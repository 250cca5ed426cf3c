import NexusPipe.Proof.Queue.Message

namespace NexusPipe.Proof.Queue
open Library NexusPipe.Queue List

/-- The parts of an envelope that a message can set one by one. A payload is set as a whole, or byte by
byte when it is written as an array. -/
inductive Place
  | id | type | source | version | timestamp | contentType | encoding | correlationID | replyTo
  | priority | ttl | retryCount
  | header (key : String)
  | payload
  | byte (index : Nat)

def Place.field : Place → String
  | .id => "id"
  | .type => "type"
  | .source => "source"
  | .version => "version"
  | .timestamp => "timestamp"
  | .contentType => "content_type"
  | .encoding => "encoding"
  | .correlationID => "correlation_id"
  | .replyTo => "reply_to"
  | .priority => "priority"
  | .ttl => "ttl"
  | .retryCount => "retry_count"
  | .header _ => "headers"
  | .payload | .byte _ => "payload"

/-- The two envelopes agree there. A nil map has no entries, and behind the payload there are zeros. -/
def Same : Place → Envelope → Envelope → Prop
  | .id, s, t => s.ID = t.ID
  | .type, s, t => s.MessageType = t.MessageType
  | .source, s, t => s.Source = t.Source
  | .version, s, t => s.Version = t.Version
  | .timestamp, s, t => s.Timestamp = t.Timestamp
  | .contentType, s, t => s.ContentType = t.ContentType
  | .encoding, s, t => s.Encoding = t.Encoding
  | .correlationID, s, t => s.CorrelationID = t.CorrelationID
  | .replyTo, s, t => s.ReplyTo = t.ReplyTo
  | .priority, s, t => s.Priority = t.Priority
  | .ttl, s, t => s.TTL = t.TTL
  | .retryCount, s, t => s.RetryCount = t.RetryCount
  | .header key, s, t => (s.Headers.getD ∅).lookup key = (t.Headers.getD ∅).lookup key
  | .payload, s, t => s.Payload.map List.length = t.Payload.map List.length
  | .byte i, s, t => (s.Payload.getD []).getD i 0 = (t.Payload.getD []).getD i 0

/-- The value sets a place of its field. A null clears a map or a slice and leaves other fields alone;
an object sets the headers it names. -/
def Sets : Json → Place → Prop
  | .null, .header _ | .null, .payload | .null, .byte _ => True
  | .null, _ => False
  | .object members, .header key => ∃ m ∈ members, Json.unquote m.1 = key
  | .array items, .byte i => items[i]? ≠ some .null
  | _, _ => True

/-- What a field makes of two envelopes: it complains about both or none, and they then agree where
the value is set and where they agreed before. -/
structure ReadsAlike (f : Json.Field Envelope Text) (j : Json) : Prop where
  problem : ∀ s t, (f.read s j).2 = (f.read t j).2
  same : ∀ s t place, (f.read s j).2 = .none →
    (Same place (f.read s j).1 (f.read t j).1 ↔
      f.name = place.field ∧ Sets j place ∨ Same place s t)

theorem readsAlike_kept {f : Json.Field Envelope Text} (problem : Json.Problem Text)
    (kept : ∀ s, f.read s j = (s, problem))
    (unset : problem = .none → ∀ place, f.name = place.field → ¬ Sets j place) :
    ReadsAlike f j where
  problem s t := by rw [kept, kept]
  same s t place fine := by
    rw [kept] at fine ⊢
    rw [kept]
    refine (or_iff_right ?_).symm
    rintro ⟨named, set⟩
    exact unset fine place named set

structure Plain {α : Type} (name : String) (set : Envelope → α → Envelope) (place : Place) : Prop where
  named : ∀ other : Place, name = other.field ↔ other = place
  nonnull : ∀ j, Sets j place ↔ j ≠ .null
  writes : ∀ s t v other, Same other (set s v) (set t v) ↔ other = place ∨ Same other s t

section
variable {α : Type} {set : Envelope → α → Envelope} {f : Json.Field Envelope Text}

theorem Plain.null (plain : Plain f.name set place) (kept : ∀ s, f.read s .null = (s, .none)) :
    ReadsAlike f .null := by
  refine readsAlike_kept .none kept fun _ other same sets => ?_
  rw [(plain.named other).mp same, plain.nonnull] at sets
  exact sets rfl

theorem Plain.written (plain : Plain f.name set place) (v : α) (nonnull : j ≠ .null)
    (read : ∀ s, f.read s j = (set s v, .none)) : ReadsAlike f j where
  problem s t := by rw [read, read]
  same s t other _ := by
    rw [read, read, plain.writes s t v other, plain.named other]
    refine or_congr_left ⟨fun same => ⟨same, ?_⟩, And.left⟩
    rw [same, plain.nonnull]
    exact nonnull

theorem readsAlike_refused (kept : ∀ s, f.read s j = (s, .saved err)) : ReadsAlike f j :=
  readsAlike_kept _ kept fun fine => by cases fine

end

theorem readsAlike_stringField {get : Envelope → String} {set : Envelope → String → Envelope}
    (place : Place) (plain : Plain name set place) (j : Json) :
    ReadsAlike (stringField name type omitempty get set) j := by
  cases j with
  | null => exact plain.null fun _ => rfl
  | string raw => exact plain.written (Json.unquote raw) (by simp) fun _ => rfl
  | bool | number | array | object => exact readsAlike_refused fun _ => rfl

theorem readsAlike_intField {get : Envelope → Int64} {set : Envelope → Int64 → Envelope}
    (place : Place) (plain : Plain name set place) (j : Json) :
    ReadsAlike (intField name get set) j := by
  cases j with
  | null => exact plain.null fun _ => rfl
  | number raw =>
    cases value : Json.intValue raw with
    | none => exact readsAlike_refused fun _ => by simp only [intField, value]; rfl
    | some i =>
      by_cases range : -2 ^ 63 ≤ i ∧ i < 2 ^ 63
      · exact plain.written (.ofInt i) (by simp) fun _ => by simp only [intField, value, if_pos range]
      · exact readsAlike_refused fun _ => by simp only [intField, value, if_neg range]; rfl
  | bool | string | array | object => exact readsAlike_refused fun _ => rfl

theorem readsAlike_timestampField (host : JsonHost)
    (plain : Plain "timestamp" (fun e t => { e with Timestamp := t }) .timestamp) (j : Json) :
    ReadsAlike (timestampField host) j := by
  have fatal (j : Json) (err : Text) (stops : ∀ s, (timestampField host).read s j = (s, .fatal err)) :
      ReadsAlike (timestampField host) j :=
    readsAlike_kept _ stops fun fine => by cases fine
  cases j with
  | null => exact plain.null fun _ => rfl
  | string raw =>
    cases parsed : host.parseTime raw with
    | ok t => exact plain.written t (by simp) fun _ => by simp only [timestampField, parsed]
    | error err => exact fatal _ err fun _ => by simp only [timestampField, parsed]
  | bool | number | array | object => exact fatal _ _ fun _ => rfl

theorem decodeHeaders_problem (headers headers' : Headers) (members : List (List Char × Json)) :
    (decodeHeaders headers members).2 = (decodeHeaders headers' members).2 := by
  induction members generalizing headers headers' with
  | nil => rfl
  | cons m members ih =>
    simp only [decodeHeaders]
    rw [ih]

theorem decodeHeaders_same (headers headers' : Headers) (members : List (List Char × Json))
    (key : String) :
    (decodeHeaders headers members).1.lookup key = (decodeHeaders headers' members).1.lookup key ↔
      (∃ m ∈ members, Json.unquote m.1 = key) ∨ headers.lookup key = headers'.lookup key := by
  induction members generalizing headers headers' with
  | nil => simp [decodeHeaders]
  | cons m members ih =>
    simp only [decodeHeaders, ih, GoMap.lookup_insert_eq, mem_cons, exists_eq_or_imp]
    by_cases named : Json.unquote m.1 = key
    · simp [named]
    · simp [named, Ne.symm named]

theorem readsAlike_headersField (host : JsonHost) (j : Json) : ReadsAlike (headersField host) j := by
  cases j with
  | null =>
    refine ⟨fun _ _ => rfl, fun s t place _ => ?_⟩
    cases place <;> simp [headersField, Same, Sets, Place.field]
  | object members =>
    refine ⟨fun s t => ?_, fun s t place _ => ?_⟩
    · exact congrArg problem (decodeHeaders_problem _ _ members)
    · cases place <;> simp [headersField, Same, Sets, Place.field, decodeHeaders_same]
  | bool | number | string | array => exact readsAlike_refused fun _ => rfl

theorem decodeByte_problem (old old' : UInt8) (j : Json) :
    (decodeByte old j).2 = (decodeByte old' j).2 := by
  cases j with
  | number raw =>
    simp only [decodeByte]
    split
    · split_ifs <;> rfl
    · rfl
  | null | bool _ | string _ | array _ | object _ => rfl

theorem decodeByte_same (fine : (decodeByte old j).2 = none) :
    (decodeByte old j).1 = (decodeByte old' j).1 ↔ j ≠ .null ∨ old = old' := by
  cases j with
  | null => simp [decodeByte]
  | number raw =>
    simp only [decodeByte] at fine ⊢
    split at fine
    · split_ifs at fine ⊢
      simp
    · cases fine
  | bool _ | string _ | array _ | object _ => cases fine

theorem decodeBytes_length (old : List UInt8) (items : List Json) :
    (decodeBytes old items).1.length = items.length := by
  induction items generalizing old with
  | nil => rfl
  | cons j items ih => simp only [decodeBytes, length_cons, ih]

theorem decodeBytes_problem (old old' : List UInt8) (items : List Json) :
    (decodeBytes old items).2 = (decodeBytes old' items).2 := by
  induction items generalizing old old' with
  | nil => rfl
  | cons j items ih =>
    simp only [decodeBytes]
    rw [decodeByte_problem _ (old'.headD 0), ih old.tail old'.tail]

theorem decodeBytes_same (fine : (decodeBytes old items).2 = none) (i : Nat) :
    (decodeBytes old items).1.getD i 0 = (decodeBytes old' items).1.getD i 0 ↔
      items[i]? ≠ some .null ∨ old.getD i 0 = old'.getD i 0 := by
  induction items generalizing old old' i with
  | nil => simp [decodeBytes]
  | cons j items ih =>
    simp only [decodeBytes, Option.or_eq_none_iff] at fine
    cases i with
    | zero =>
      have first : (decodeByte (old.headD 0) j).1 = (decodeByte (old'.headD 0) j).1 ↔
          j ≠ .null ∨ old.headD 0 = old'.headD 0 := decodeByte_same fine.1
      simpa [decodeBytes, head?_eq_getElem?] using first
    | succ i =>
      have later : (decodeBytes old.tail items).1.getD i 0 =
          (decodeBytes old'.tail items).1.getD i 0 ↔
            items[i]? ≠ some .null ∨ old.tail.getD i 0 = old'.tail.getD i 0 := ih fine.2 i
      simpa [decodeBytes] using later

theorem readsAlike_payloadField (host : JsonHost) (j : Json) : ReadsAlike (payloadField host) j := by
  cases j with
  | null =>
    refine ⟨fun _ _ => rfl, fun s t place _ => ?_⟩
    cases place <;> simp [payloadField, Same, Sets, Place.field]
  | string raw =>
    cases decoded : Base64.decode (Json.unquote raw).toList with
    | none => exact readsAlike_refused fun _ => by simp only [payloadField, decoded]; rfl
    | some bytes =>
      have read (s : Envelope) : (payloadField host).read s (.string raw) =
          ({ s with Payload := some bytes }, .none) := by
        simp only [payloadField, decoded]
      refine ⟨fun _ _ => by rw [read, read], fun s t place _ => ?_⟩
      rw [read, read]
      cases place <;> simp [payloadField, Same, Sets, Place.field]
  | array items =>
    refine ⟨fun s t => ?_, fun s t place fine => ?_⟩
    · exact congrArg problem (decodeBytes_problem _ _ items)
    · have fine : (decodeBytes (s.Payload.getD []) items).2 = none := by
        simp only [payloadField] at fine
        cases failed : (decodeBytes (s.Payload.getD []) items).2 with
        | none => rfl
        | some err =>
          rw [failed] at fine
          cases fine
      cases place with
      | payload => simp [payloadField, Same, Sets, Place.field, decodeBytes_length]
      | byte i => simpa [payloadField, Same, Sets, Place.field] using decodeBytes_same fine i
      | _ => simp [payloadField, Same, Place.field]
  | bool | number | object => exact readsAlike_refused fun _ => rfl

theorem readsAlike_field (host : JsonHost) : ∀ f ∈ envelopeFields host, ∀ j, ReadsAlike f j := by
  simp only [envelopeFields, forall_mem_cons]
  refine ⟨readsAlike_stringField .id ?_, readsAlike_stringField .type ?_,
    readsAlike_stringField .source ?_, readsAlike_stringField .version ?_,
    readsAlike_timestampField host ?_, readsAlike_headersField host, readsAlike_payloadField host,
    readsAlike_stringField .contentType ?_, readsAlike_stringField .encoding ?_,
    readsAlike_stringField .correlationID ?_, readsAlike_stringField .replyTo ?_,
    readsAlike_intField .priority ?_, readsAlike_intField .ttl ?_, readsAlike_intField .retryCount ?_,
    by simp⟩
  all_goals
    constructor
    · intro other
      cases other <;> simp [Place.field]
    · intro j
      cases j <;> simp [Sets]
    · intro s t v other
      cases other <;> simp [Same]

variable {host : JsonHost} {s t e : Envelope}

def SetBy (host : JsonHost) (m : List Char × Json) (place : Place) : Prop :=
  ∃ f, Json.lookupField (envelopeFields host) (Json.unquote m.1) = some f ∧
    f.name = place.field ∧ Sets m.2 place

theorem lookupField_mem {σ ε : Type} {fields : List (Json.Field σ ε)} {f : Json.Field σ ε}
    (found : Json.lookupField fields key = some f) : f ∈ fields := by
  rcases Option.or_eq_some_iff.mp found with exact | ⟨-, folded⟩
  · exact mem_of_find?_eq_some exact
  · exact mem_of_find?_eq_some folded

theorem decodes_alike (decodes : Json.Decodes (envelopeFields host) members t t') (s : Envelope) :
    ∃ s', Json.Decodes (envelopeFields host) members s s' ∧
      ∀ place, Same place s' t' ↔ (∃ m ∈ members, SetBy host m place) ∨ Same place s t := by
  induction decodes generalizing s with
  | nil t => exact ⟨s, .nil s, by simp⟩
  | @skip m members t t' unknown rest ih =>
    obtain ⟨s', decodes, same⟩ := ih s
    refine ⟨s', .skip unknown decodes, fun place => ?_⟩
    have unset : ¬ SetBy host m place := by
      rintro ⟨f, found, -⟩
      cases unknown.symm.trans found
    rw [same, exists_mem_cons_iff, or_iff_right unset]
  | @read m members f t middle t' found read rest ih =>
    have alike := readsAlike_field host f (lookupField_mem found) m.2
    have fine : (f.read s m.2).2 = .none := by rw [alike.problem s t, read]
    obtain ⟨s', decodes, same⟩ := ih (f.read s m.2).1
    refine ⟨s', .read found (Prod.ext rfl fine) decodes, fun place => ?_⟩
    have step := alike.same s t place fine
    have set : SetBy host m place ↔ f.name = place.field ∧ Sets m.2 place := by
      constructor
      · rintro ⟨f', found', sets⟩
        obtain rfl := Option.mem_unique found found'
        exact sets
      · exact fun sets => ⟨f, found, sets⟩
    rw [read] at step
    rw [same, step, exists_mem_cons_iff, set, or_assoc]
    exact or_left_comm

def withHeaders (e : Envelope) : Envelope := { e with Headers := some (e.Headers.getD ∅) }

theorem payload_eq_iff : s.Payload = t.Payload ↔ Same .payload s t ∧ ∀ i, Same (.byte i) s t := by
  constructor
  · intro same
    simp [Same, same]
  · rintro ⟨lengths, bytes⟩
    simp only [Same] at lengths bytes
    cases left : s.Payload with
    | none =>
      rw [left] at lengths
      exact (Option.map_eq_none_iff.mp lengths.symm).symm
    | some old =>
      rw [left] at lengths bytes
      obtain ⟨new, right, length⟩ := Option.map_eq_some_iff.mp lengths.symm
      rw [right] at bytes ⊢
      congr 1
      refine ext_getElem length.symm fun i inside inside' => ?_
      have byte := bytes i
      simpa [inside, inside'] using byte

theorem withHeaders_eq_iff : withHeaders s = withHeaders t ↔ ∀ place, Same place s t := by
  simp only [withHeaders, Envelope.mk.injEq, Option.some.injEq, payload_eq_iff]
  constructor
  · rintro ⟨id, type, source, version, timestamp, headers, ⟨payload, bytes⟩, contentType, encoding,
      correlationID, replyTo, priority, ttl, retryCount⟩ place
    cases place with
    | header key => rw [Same, headers]
    | byte i => exact bytes i
    | _ => assumption
  · intro same
    exact ⟨same .id, same .type, same .source, same .version, same .timestamp,
      Finmap.ext_lookup fun key => same (.header key), ⟨same .payload, fun i => same (.byte i)⟩,
      same .contentType, same .encoding, same .correlationID, same .replyTo, same .priority,
      same .ttl, same .retryCount⟩

theorem deserialize_eq_ok (accepted : deserialize host data = .ok env) :
    ∃ members t, data ≠ [] ∧ Json.parse data = some (.object members) ∧
      Json.Decodes (envelopeFields host) members {} t ∧ env = withHeaders t ∧ env.validate = none := by
  have opened : ({} : Envelope).unmarshal host data = (env, none) := by
    rw [deserialize] at accepted
    split at accepted
    · cases accepted
    · next equal =>
        cases accepted
        exact equal
  rw [Envelope.unmarshal] at opened
  split_ifs at opened with empty
  · cases opened
  cases decoded : ({} : Envelope).decode host data with
  | mk t err =>
    simp only [decoded] at opened
    cases err with
    | some err => cases opened
    | none =>
      obtain ⟨rfl, valid⟩ := Prod.mk.inj opened
      rw [Envelope.decode] at decoded
      split at decoded
      · cases decoded
      · next members parsed =>
          exact ⟨members, t, empty, parsed, Json.decodeMembers_eq_none_iff.mp decoded, rfl, valid⟩
      · -- a null message leaves the type empty
        cases decoded
        cases valid
      · cases decoded

theorem deserialize_of_valid (valid : (({} : Envelope).unmarshal host data).2 = none) :
    deserialize host data = .ok (({} : Envelope).unmarshal host data).1 := by
  rw [deserialize]
  split
  · next equal =>
      rw [equal] at valid
      cases valid
  · next equal => rw [equal]

def bareMessage : List UInt8 := Json.utf8 "\x7b\"type\":\"event\",\"payload\":\"\"\x7d".toList

end NexusPipe.Proof.Queue
