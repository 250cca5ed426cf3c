import NexusPipe.Library.Except
import NexusPipe.Library.Json.Text

namespace NexusPipe.Library.Json

variable {σ ε : Type}

/-- How decoding a value can go wrong: a mismatch is remembered and the decoder goes on, an error
of a custom decoder stops it. -/
inductive Problem (ε : Type)
  | none
  | saved (err : ε)
  | fatal (err : ε)

/-- A struct field with its tag. `write` gives nothing for an empty field under `omitempty`; `read`
decodes into the struct it is given, so that a field may keep what was there. -/
structure Field (σ ε : Type) where
  name : String
  write : σ → Except ε (Option Json)
  read : σ → Json → σ × Problem ε

/-- Keys are matched up to case; two letters outside ASCII fold to `S` and `K`. -/
def foldChar (c : Char) : Char :=
  if c.toNat = 0x17f then 'S' else if c.toNat = 0x212a then 'K' else c.toUpper

def lookupField (fields : List (Field σ ε)) (key : String) : Option (Field σ ε) :=
  (fields.find? fun f => f.name = key).or
    (fields.find? fun f => f.name.toList.map foldChar = key.toList.map foldChar)

def encodeFields (value : σ) : List (Field σ ε) → Except ε (List (List Char × Json))
  | [] => .ok []
  | f :: fields =>
    (f.write value).bind fun written =>
      (encodeFields value fields).map fun members =>
        match written with
        | none => members
        | some j => (quote f.name, j) :: members

structure Decoding (σ ε : Type) where
  value : σ
  saved : Option ε := none
  stopped : Option ε := none

def decodeMember (fields : List (Field σ ε)) (d : Decoding σ ε) (m : List Char × Json) :
    Decoding σ ε :=
  if d.stopped.isSome then d
  else match lookupField fields (unquote m.1) with
    | none => d
    | some f =>
      match f.read d.value m.2 with
      | (value, .none) => { d with value }
      | (value, .saved err) => { d with value, saved := d.saved.or (some err) }
      | (value, .fatal err) => { d with value, stopped := some err }

def decodeMembers (fields : List (Field σ ε)) (value : σ) (members : List (List Char × Json)) :
    σ × Option ε :=
  let d := members.foldl (decodeMember fields) { value }
  (d.value, d.stopped.or d.saved)

/-- A decoding that goes through: keys that name no field are passed over. -/
inductive Decodes (fields : List (Field σ ε)) : List (List Char × Json) → σ → σ → Prop
  | nil (s : σ) : Decodes fields [] s s
  | skip {m : List Char × Json} {members : List (List Char × Json)} {s s' : σ}
      (unknown : lookupField fields (unquote m.1) = none) (rest : Decodes fields members s s') :
      Decodes fields (m :: members) s s'
  | read {m : List Char × Json} {members : List (List Char × Json)} {f : Field σ ε} {s middle s' : σ}
      (found : lookupField fields (unquote m.1) = some f) (read : f.read s m.2 = (middle, .none))
      (rest : Decodes fields members middle s') : Decodes fields (m :: members) s s'

section
variable {m : List Char × Json} {members : List (List Char × Json)}

theorem foldl_failed {d : Decoding σ ε} (failed : (d.stopped.or d.saved).isSome) :
    ((members.foldl (decodeMember fields) d).stopped.or
      (members.foldl (decodeMember fields) d).saved).isSome := by
  induction members generalizing d with
  | nil => exact failed
  | cons m members ih =>
    rw [List.foldl_cons]
    refine ih ?_
    unfold decodeMember
    split_ifs
    · exact failed
    · split
      · exact failed
      · split
        · exact failed
        · simp
        · simp

theorem decodeMembers_skip (unknown : lookupField fields (unquote m.1) = none) :
    decodeMembers fields s (m :: members) = decodeMembers fields s members := by
  have passed : decodeMember fields { value := s } m = { value := s } := by
    simp [decodeMember, unknown]
  rw [decodeMembers, List.foldl_cons, passed]
  rfl

theorem decodeMembers_read (found : lookupField fields (unquote m.1) = some f)
    (read : f.read s m.2 = (middle, .none)) :
    decodeMembers fields s (m :: members) = decodeMembers fields middle members := by
  have stored : decodeMember fields { value := s } m = { value := middle } := by
    simp [decodeMember, found, read]
  rw [decodeMembers, List.foldl_cons, stored]
  rfl

theorem decodeMembers_fails (found : lookupField fields (unquote m.1) = some f)
    (read : f.read s m.2 = (middle, problem)) (wrong : problem ≠ .none) :
    (decodeMembers fields s (m :: members)).2.isSome := by
  rw [decodeMembers, List.foldl_cons]
  refine foldl_failed ?_
  cases problem with
  | none => exact absurd rfl wrong
  | saved | fatal => simp [decodeMember, found, read]

theorem decodeMembers_eq_none_iff :
    decodeMembers fields s members = (s', none) ↔ Decodes fields members s s' := by
  constructor
  · intro decoded
    induction members generalizing s with
    | nil =>
      obtain rfl : s = s' := congrArg Prod.fst decoded
      exact .nil s
    | cons m members ih =>
      cases found : lookupField fields (unquote m.1) with
      | none => exact .skip found (ih (decodeMembers_skip found ▸ decoded))
      | some f =>
        by_cases fine : (f.read s m.2).2 = .none
        · have read : f.read s m.2 = ((f.read s m.2).1, .none) := Prod.ext rfl fine
          exact .read found read (ih (decodeMembers_read found read ▸ decoded))
        · have failed : (decodeMembers fields s (m :: members)).2.isSome :=
            decodeMembers_fails found rfl fine
          rw [decoded] at failed
          cases failed
  · intro decodes
    induction decodes with
    | nil s => rfl
    | skip unknown rest ih => exact (decodeMembers_skip unknown).trans ih
    | read found read rest ih => exact (decodeMembers_read found read).trans ih

end

/-- Decoding what the field writes of `value` turns `before` into `after`. -/
inductive Copies (value : σ) (f : Field σ ε) (before after : σ) : Prop
  | omitted (written : f.write value = .ok none) (same : before = after)
  | decoded (j : Json) (written : f.write value = .ok (some j))
      (read : f.read before j = (after, .none))

inductive CopiesAll (value : σ) : List (Field σ ε) → σ → σ → Prop
  | nil (s : σ) : CopiesAll value [] s s
  | cons {f : Field σ ε} {fields : List (Field σ ε)} {before middle after : σ}
      (first : Copies value f before middle) (rest : CopiesAll value fields middle after) :
      CopiesAll value (f :: fields) before after

theorem lookupField_self {fields : List (Field σ ε)} (nodup : (fields.map (·.name)).Nodup)
    (member : f ∈ fields) : lookupField fields f.name = some f := by
  have found : fields.find? (fun g => g.name = f.name) = some f := by
    induction fields with
    | nil => cases member
    | cons g fields ih =>
      rw [List.map_cons, List.nodup_cons] at nodup
      rcases List.mem_cons.mp member with rfl | later
      · simp
      · have apart : g.name ≠ f.name := fun same =>
          nodup.1 (same ▸ List.mem_map_of_mem later)
        rw [List.find?_cons_of_neg (by simpa using apart)]
        exact ih nodup.2 later
  rw [lookupField, found]
  rfl

theorem decode_encodeFields {all : List (Field σ ε)} (nodup : (all.map (·.name)).Nodup)
    (within : ∀ f ∈ fields, f ∈ all) (copies : CopiesAll value fields before after) :
    ∃ members, encodeFields value fields = .ok members ∧
      members.foldl (decodeMember all) { value := before } = { value := after } := by
  induction copies with
  | nil s => exact ⟨[], rfl, rfl⟩
  | @cons f fields before middle after first rest ih =>
    rw [List.forall_mem_cons] at within
    obtain ⟨members, encoded, decoded⟩ := ih within.2
    cases first with
    | omitted written same =>
      refine ⟨members, ?_, same ▸ decoded⟩
      simp only [encodeFields, written, encoded, Except.bind, Except.map]
    | decoded j written read =>
      refine ⟨(quote f.name, j) :: members, ?_, ?_⟩
      · simp only [encodeFields, written, encoded, Except.bind, Except.map]
      · rw [List.foldl_cons, ← decoded]
        congr 1
        simp only [decodeMember, Option.isSome_none, Bool.false_eq_true, if_false, unquote_quote,
          lookupField_self nodup within.1, read]

theorem encodeFields_printable {fields : List (Field σ ε)} {value : σ} {depth : Nat}
    (printable : ∀ f ∈ fields, ∀ j, f.write value = .ok (some j) → Printable depth j)
    {members : List (List Char × Json)} (encoded : encodeFields value fields = .ok members) :
    ∀ m ∈ members, Scans m.1 ∧ Printable depth m.2 := by
  induction fields generalizing members with
  | nil =>
    cases encoded
    simp
  | cons f fields ih =>
    rw [List.forall_mem_cons] at printable
    rw [encodeFields, bind_eq_ok] at encoded
    obtain ⟨written, wrote, encoded⟩ := encoded
    rw [map_eq_ok] at encoded
    obtain ⟨rest, encoded, rfl⟩ := encoded
    cases written with
    | none => exact ih printable.2 encoded
    | some j =>
      rw [List.forall_mem_cons]
      exact ⟨⟨scans_quote f.name, printable.1 j wrote⟩, ih printable.2 encoded⟩

end NexusPipe.Library.Json
