import NexusPipe.Cron.Spec
import NexusPipe.Library.Except
import NexusPipe.Library.Words

namespace NexusPipe.Proof
open Library NexusPipe.Cron List

def Solid (s : String) : Prop := ∀ c ∈ s.toList, isSpace c = false

theorem fields_eq_words (s : String) : fields s = (words isSpace s.toList).map String.ofList := rfl

theorem solid_of_mem_fields (member : f ∈ fields s) : Solid f := by
  obtain ⟨w, word, rfl⟩ := mem_map.mp member
  rw [Solid, String.toList_ofList]
  exact (mem_words word).2

theorem fields_trimSpace (s : String) : fields (trimSpace s) = fields s := by
  have trimmed : (trimSpace s).toList = (s.toList.dropWhile isSpace).rdropWhile isSpace :=
    String.toList_ofList
  rw [fields_eq_words, trimmed, words_rdropWhile, words_dropWhile, fields_eq_words]

theorem trimSpace_eq_self (solid : Solid s) : trimSpace s = s := by
  have trimmed : trimSpace s = String.ofList ((s.toList.dropWhile isSpace).rdropWhile isSpace) := rfl
  have left : s.toList.dropWhile isSpace = s.toList :=
    dropWhile_eq_self_iff.mpr fun inside => by simp [solid _ (getElem_mem inside)]
  have right : s.toList.rdropWhile isSpace = s.toList :=
    rdropWhile_eq_self_iff.mpr fun nonempty => by simp [solid _ (getLast_mem nonempty)]
  rw [trimmed, left, right, String.ofList_toList]

variable {zone : Option String}

theorem splitZone_eq_ok (split : splitZone e = .ok (zone, rest)) :
    zone = none ∧ rest = e ∨ ∃ opening, opening ≠ [] ∧ fields e = opening ++ fields rest := by
  unfold splitZone at split
  cases found : ["TZ=", "CRON_TZ="].find? fun head => head.toList.isPrefixOf e.toList with
  | none =>
    rw [found] at split
    cases split
    exact .inl ⟨rfl, rfl⟩
  | some head =>
    rw [found] at split
    simp only at split
    split_ifs at split with spaced
    obtain ⟨-, rfl⟩ := Prod.mk.inj (Except.ok.inj split)
    have starts := find?_some found
    obtain ⟨tail, shape⟩ := isPrefixOf_iff_prefix.mp starts
    have dropped : e.toList.drop head.length = tail := by
      rw [← shape, ← String.length_toList, drop_left]
    rw [dropped] at spaced
    obtain ⟨name, after, rfl, fresh⟩ := eq_append_cons_of_mem spaced
    have cut : (name ++ ' ' :: after).dropWhile (· ≠ ' ') = ' ' :: after := by
      rw [dropWhile_append_of_pos]
      · rfl
      · exact fun c member => decide_eq_true fun same => fresh (same ▸ member)
    have member : head = "TZ=" ∨ head = "CRON_TZ=" := by
      simpa using mem_of_find?_eq_some found
    have solid : '=' ∈ head.toList := by
      rcases member with rfl | rfl <;> decide
    refine .inr ⟨(words isSpace (head.toList ++ name)).map String.ofList, ?_, ?_⟩
    · have opens := words_ne_nil (mem_append_left name solid) (by decide : isSpace '=' = false)
      simpa using opens
    · rw [fields_trimSpace, dropped, cut, fields_eq_words, fields_eq_words, ← shape,
        ← append_assoc, words_append_cons (by decide), String.toList_ofList,
        words_cons (by decide), map_append]

theorem fields_suffix (split : splitZone e = .ok (zone, rest)) : fields rest <:+ fields e := by
  rcases splitZone_eq_ok split with ⟨-, rfl⟩ | ⟨opening, -, whole⟩
  · exact suffix_rfl
  · exact whole ▸ suffix_append opening _

theorem splitZone_descriptor (starts : startsDescriptor e = true) :
    splitZone e = .ok (none, e) := by
  obtain ⟨tail, shape⟩ := isPrefixOf_iff_prefix.mp starts
  have absent : (["TZ=", "CRON_TZ="].find? fun head => head.toList.isPrefixOf e.toList) = none := by
    rw [← shape]
    rfl
  rw [splitZone, absent]

section
variable {p : Platform}

theorem length_eq_five {α : Type} {l : List α} :
    l.length = 5 ↔ ∃ a b c d e, l = [a, b, c, d, e] := by
  constructor
  · intro length
    obtain ⟨a, _, rfl⟩ := exists_cons_of_length_eq_add_one length
    obtain ⟨b, _, rfl⟩ := exists_cons_of_length_eq_add_one (Nat.succ.inj length)
    obtain ⟨c, d, e, rfl⟩ := length_eq_three.mp (Nat.succ.inj (Nat.succ.inj length))
    exact ⟨a, b, c, d, e, rfl⟩
  · rintro ⟨a, b, c, d, e, rfl⟩
    rfl

theorem parse_eq_ok : (p.host unmarshal).parse .standard e = .ok s ↔
    e ≠ "" ∧ ∃ zone rest loc, splitZone e = .ok (zone, rest) ∧
      (p.host unmarshal).specLocation zone = .ok loc ∧
      (startsDescriptor rest = true ∧ p.parseDescriptor rest loc = .ok s ∨
        startsDescriptor rest = false ∧ ∃ minute hour dom month dow,
          fields rest = [minute, hour, dom, month, dow] ∧
          ∃ spec, parseFields p.unicode ["0", minute, hour, dom, month, dow] loc = .ok spec ∧
            p.schedule spec = s) := by
  unfold Host.parse
  split_ifs with empty
  · simp [empty]
  · rw [bind_eq_ok]
    simp only [ne_eq, empty, not_false_eq_true, true_and, Prod.exists]
    refine exists_congr fun zone => exists_congr fun rest => ?_
    simp only [bind_eq_ok, exists_and_left]
    refine and_congr_right fun _ => exists_congr fun loc => and_congr_right fun _ => ?_
    cases startsDescriptor rest with
    | true => simp [mapError_eq_ok, Platform.host]
    | false =>
      by_cases five : (fields rest).length = 5
      · obtain ⟨minute, hour, dom, month, dow, parts⟩ := length_eq_five.mp five
        simp [mapError_eq_ok, bind_eq_ok, map_eq_ok, Parser.normalizeFields, Parser.places, parts,
          Platform.host]
      · have none (minute hour dom month dow : String) :
            fields rest ≠ [minute, hour, dom, month, dow] :=
          fun parts => five (length_eq_five.mpr ⟨_, _, _, _, _, parts⟩)
        simp [mapError_eq_ok, bind_eq_ok, Parser.normalizeFields, Parser.places, five, none]

def named : List String :=
  ["@yearly", "@annually", "@monthly", "@weekly", "@daily", "@midnight", "@hourly"]

theorem parseDescriptor_eq_ok (read : p.parseDescriptor d loc = .ok s) :
    d ∈ named ∨ ∃ duration, d = "@every " ++ duration ∧ Solid duration := by
  unfold Platform.parseDescriptor at read
  simp only at read
  split_ifs at read with yearly monthly weekly daily hourly every
  · exact .inl (by rcases yearly with rfl | rfl <;> decide)
  · exact .inl (by subst monthly; decide)
  · exact .inl (by subst weekly; decide)
  · exact .inl (by rcases daily with rfl | rfl <;> decide)
  · exact .inl (by subst hourly; decide)
  · obtain ⟨duration, rfl⟩ := Strings.hasPrefix_iff_append.mp every
    rw [Strings.trimPrefix_append] at read
    cases parsed : p.parseDuration duration with
    | error problem =>
      rw [parsed] at read
      cases read
    | ok length =>
      refine .inr ⟨duration, rfl, fun c member => ?_⟩
      simpa using all_eq_true.mp (p.spaceless _ _ parsed) c member

theorem exists_parseDescriptor (member : d ∈ named) (loc : Location) :
    ∃ s, p.parseDescriptor d loc = .ok s := by
  simp only [named, mem_cons, not_mem_nil, or_false] at member
  rcases member with rfl | rfl | rfl | rfl | rfl | rfl | rfl <;> exact ⟨_, rfl⟩

theorem fields_descriptor (read : p.parseDescriptor d loc = .ok s) :
    ∃ first rest, fields d = first :: rest ∧ rest.length ≤ 1 ∧ '@' ∈ first.toList := by
  rcases parseDescriptor_eq_ok read with member | ⟨duration, rfl, solid⟩
  · have single : fields d = [d] ∧ '@' ∈ d.toList := by
      simp only [named, mem_cons, not_mem_nil, or_false] at member
      rcases member with rfl | rfl | rfl | rfl | rfl | rfl | rfl <;> decide
    exact ⟨d, [], single.1, Nat.zero_le 1, single.2⟩
  · have parts : fields ("@every " ++ duration) =
        "@every" :: (words isSpace duration.toList).map String.ofList := by
      have shape : ("@every " ++ duration).toList = "@every".toList ++ ' ' :: duration.toList := by
        simp
      have opening : words isSpace "@every".toList = ["@every".toList] := by decide
      rw [fields_eq_words, shape, words_append_cons (by decide), opening]
      rfl
    refine ⟨_, _, parts, ?_, by decide⟩
    by_cases empty : duration.toList = []
    · rw [empty]
      exact Nat.zero_le 1
    · rw [words_eq_singleton solid empty]
      exact le_rfl

end

structure Numeral (s : String) : Prop where
  nonempty : s ≠ ""
  digits : s.toList.all Char.isDigit = true

structure Lettered (r : Bounds) : Prop where
  ordered : r.min ≤ r.max
  small : r.max < 2 ^ 63
  names : ∀ name ∈ r.names, name.1.toList.all Char.isDigit = false

theorem lettered_minutes : Lettered .minutes := ⟨by decide, by decide, by decide⟩
theorem lettered_hours : Lettered .hours := ⟨by decide, by decide, by decide⟩
theorem lettered_dom : Lettered .dom := ⟨by decide, by decide, by decide⟩
theorem lettered_months : Lettered .months := ⟨by decide, by decide, by decide⟩
theorem lettered_dow : Lettered .dow := ⟨by decide, by decide, by decide⟩

variable {spec : SpecSchedule}

section
variable {unicode : String → String} {r : Bounds} {f : String} {bits : Bits}

theorem digit_toNat {c : Char} (digit : c.isDigit = true) : 48 ≤ c.toNat ∧ c.toNat ≤ 57 := by
  simpa [Char.isDigit, UInt32.le_iff_toNat_le] using digit

theorem Numeral.ne_of_mem (numeral : Numeral f) (member : c ∈ f.toList) {c' : Char}
    (other : c'.isDigit = false) : c ≠ c' := by
  rintro rfl
  have digit := all_eq_true.mp numeral.digits c member
  rw [other] at digit
  cases digit

theorem toLower_numeral (numeral : Numeral f) : Strings.toLower unicode f = f := by
  have digit (c : Char) (member : c ∈ f.toList) : 48 ≤ c.toNat ∧ c.toNat ≤ 57 :=
    digit_toNat (all_eq_true.mp numeral.digits c member)
  have ascii : f.toList.all (·.toNat < 128) = true :=
    all_eq_true.mpr fun c member => decide_eq_true (by have := digit c member; omega)
  have kept : f.toList.map Strings.lowerChar = f.toList.map id :=
    map_congr_left fun c member => if_neg (by have := digit c member; omega)
  rw [Strings.toLower, if_pos ascii, Strings.lowerASCII, kept, map_id, String.ofList_toList]

theorem atoi_numeral (numeral : Numeral f) :
    atoi f = if (2 : Int) ^ 63 ≤ decimal f.toList then
        .error (sprintf "strconv.Atoi: parsing %q: value out of range" [.str f])
      else .ok (decimal f.toList) := by
  have unsigned (sign : Char) (other : sign.isDigit = false) : f.toList.head? ≠ some sign :=
    fun same => numeral.ne_of_mem (mem_of_head? same) other rfl
  have nonempty : f.toList ≠ [] := fun empty => numeral.nonempty (String.toList_eq_nil_iff.mp empty)
  have low : ¬ ((decimal f.toList : Int) < -2 ^ 63) := by omega
  simp only [atoi, unsigned '-' (by decide), unsigned '+' (by decide), or_self, if_false,
    nonempty, numeral.digits, low, false_or, Bool.not_true, Bool.false_eq_true]

theorem mustParseInt_numeral (numeral : Numeral f) :
    mustParseInt f = .ok n ↔ decimal f.toList < 2 ^ 63 ∧ n = decimal f.toList := by
  rw [mustParseInt, atoi_numeral numeral]
  split_ifs with large
  · have out : ¬ decimal f.toList < 2 ^ 63 := by omega
    simp only [out, false_and]
  · have inside : decimal f.toList < 2 ^ 63 := by omega
    have natural : ¬ ((decimal f.toList : Int) < 0) := by omega
    simp only [natural, if_false, Int.toNat_natCast, Except.ok.injEq, inside, true_and, eq_comm]

theorem getRange_point (slash : '/' ∉ f.toList) (hyphen : '-' ∉ f.toList) (star : f ≠ "*")
    (question : f ≠ "?") :
    getRange unicode r f = (parseIntOrName unicode r f).bind fun n => rangeBits r f n n 1 0 := by
  have whole {sep : Char} (absent : sep ∉ f.toList) : Strings.split f sep = [f] := by
    rw [Strings.split, splitOn_eq_singleton absent, map_singleton, String.ofList_toList]
  simp only [getRange, whole slash, headD_cons, whole hyphen, rangeEnds, star, question, or_self,
    if_false, rangeStep]
  cases parseIntOrName unicode r f <;> rfl

theorem parseIntOrName_numeral (numeral : Numeral f) (lettered : Lettered r) :
    parseIntOrName unicode r f = mustParseInt f := by
  have unnamed : r.names.lookup f = none := by
    rw [lookup_eq_none_iff]
    intro name member
    rw [bne_iff_ne]
    intro same
    have letters := lettered.names name member
    rw [← same, numeral.digits] at letters
    cases letters
  rw [parseIntOrName, toLower_numeral numeral, unnamed]

theorem getRange_numeral (numeral : Numeral f) (lettered : Lettered r) :
    getRange unicode r f = (mustParseInt f).bind fun n => rangeBits r f n n 1 0 := by
  have absent {c : Char} (other : c.isDigit = false) : c ∉ f.toList :=
    fun member => numeral.ne_of_mem member other rfl
  have number {text : String} (other : text.toList.all Char.isDigit = false) : f ≠ text := by
    rintro rfl
    rw [numeral.digits] at other
    cases other
  rw [getRange_point (absent (by decide)) (absent (by decide)) (number (by decide)) (number (by decide)),
    parseIntOrName_numeral numeral lettered]

theorem digits_of_mustParseInt (minus : f.toList.head? ≠ some '-')
    (plus : f.toList.head? ≠ some '+') (read : mustParseInt f = .ok n) :
    f.toList.all Char.isDigit = true := by
  by_contra letters
  rw [Bool.not_eq_true] at letters
  have refused : atoi f = .error (sprintf "strconv.Atoi: parsing %q: invalid syntax" [.str f]) := by
    simp only [atoi, minus, plus, or_self, if_false, letters, Bool.not_false, or_true, if_true]
  rw [mustParseInt, refused] at read
  cases read

theorem getRange_of_getField (read : getField unicode r f = .ok bits) :
    ∀ part ∈ ranges f, ∃ bits, getRange unicode r part = .ok bits := by
  unfold getField at read
  generalize (0 : Bits) = seen at read
  generalize ranges f = parts at read ⊢
  induction parts generalizing seen with
  | nil => exact fun part absent => absurd absent not_mem_nil
  | cons first rest ih =>
    rw [foldlM_cons] at read
    obtain ⟨seen', step, read⟩ := bind_eq_ok.mp read
    obtain ⟨bits, ranged, -⟩ := map_eq_ok.mp step
    exact forall_mem_cons.mpr ⟨⟨bits, ranged⟩, ih seen' read⟩

theorem mem_ranges (member : part ∈ Strings.split f ',') (nonempty : part ≠ "") :
    part ∈ ranges f := by
  obtain ⟨chars, piece, rfl⟩ := mem_map.mp member
  refine mem_map.mpr ⟨chars, mem_filter.mpr ⟨piece, decide_eq_true ?_⟩, rfl⟩
  rintro rfl
  exact nonempty rfl

theorem getField_eq_getRange (whole : ∀ c ∈ f.toList, c ≠ ',') (nonempty : f ≠ "") :
    getField unicode r f = getRange unicode r f := by
  have part : ranges f = [f] := by
    have solid : ∀ c ∈ f.toList, decide (c = ',') = false := fun c member =>
      decide_eq_false (whole c member)
    have single := words_eq_singleton solid fun empty => nonempty (String.toList_eq_nil_iff.mp empty)
    have := congrArg (map String.ofList) single
    rwa [map_singleton, String.ofList_toList] at this
  rw [getField, part, foldlM_cons]
  cases getRange unicode r f with
  | error problem => rfl
  | ok bits => exact congrArg Except.ok (BitVec.zero_or)

theorem rangeBits_point : rangeBits r f n n 1 0 = .ok bits ↔
    r.min ≤ n ∧ n ≤ r.max ∧ bits = getBits n n 1 := by
  unfold rangeBits
  have unstarred : getBits n n 1 ||| 0 = getBits n n 1 := BitVec.or_zero
  rw [if_neg (lt_irrefl n), if_neg Nat.one_ne_zero, unstarred]
  split_ifs with below above
  · simp only [false_iff]
    omega
  · simp only [false_iff]
    omega
  · simp only [not_lt.mp below, not_lt.mp above, true_and, Except.ok.injEq, eq_comm]

theorem getField_numeral (numeral : Numeral f) (lettered : Lettered r) :
    getField unicode r f = .ok bits ↔ r.min ≤ decimal f.toList ∧ decimal f.toList ≤ r.max ∧
        bits = getBits (decimal f.toList) (decimal f.toList) 1 := by
  have whole (c : Char) (member : c ∈ f.toList) : c ≠ ',' := numeral.ne_of_mem member (by decide)
  rw [getField_eq_getRange whole numeral.nonempty, getRange_numeral numeral lettered, bind_eq_ok]
  constructor
  · rintro ⟨n, parsed, inside⟩
    obtain ⟨-, rfl⟩ := (mustParseInt_numeral numeral).mp parsed
    exact rangeBits_point.mp inside
  · intro inside
    refine ⟨_, (mustParseInt_numeral numeral).mpr ⟨?_, rfl⟩, rangeBits_point.mpr inside⟩
    exact lt_of_le_of_lt inside.2.1 lettered.small

theorem getField_star (lettered : Lettered r) : getField unicode r "*" = .ok r.all := by
  have read : getRange unicode r "*" = rangeBits r "*" r.min r.max 1 starBit := rfl
  rw [getField_eq_getRange (forall_mem_singleton.mpr (by decide)) (by decide), read, rangeBits,
    if_neg (lt_irrefl _), if_neg (lt_irrefl _), if_neg (not_lt.mpr lettered.ordered),
    if_neg Nat.one_ne_zero, Bounds.all]

def Within (r : Bounds) (f : String) : Prop :=
  f = "*" ∨ r.min ≤ decimal f.toList ∧ decimal f.toList ≤ r.max

variable (unicode) in
theorem exists_getField_iff (lettered : Lettered r) (entry : f = "*" ∨ Numeral f) :
    (∃ bits, getField unicode r f = .ok bits) ↔ Within r f := by
  rcases entry with rfl | numeral
  · exact iff_of_true ⟨_, getField_star lettered⟩ (.inl rfl)
  · have number : f ≠ "*" := by
      rintro rfl
      exact absurd numeral.digits (by decide)
    simp only [getField_numeral numeral lettered, Within, number, false_or, ← and_assoc,
      exists_and_left, exists_eq, and_true]

theorem parseFields_eq_ok {second minute hour : String} :
    parseFields unicode [second, minute, hour, dom, month, dow] loc = .ok spec ↔
      getField unicode .seconds second = .ok spec.Second ∧
      getField unicode .minutes minute = .ok spec.Minute ∧
      getField unicode .hours hour = .ok spec.Hour ∧ getField unicode .dom dom = .ok spec.Dom ∧
      getField unicode .months month = .ok spec.Month ∧
      getField unicode .dow dow = .ok spec.Dow ∧ spec.Location = loc := by
  simp only [parseFields, bind_eq_ok, map_eq_ok]
  constructor
  · rintro ⟨_, h₁, _, h₂, _, h₃, _, h₄, _, h₅, _, h₆, rfl⟩
    exact ⟨h₁, h₂, h₃, h₄, h₅, h₆, rfl⟩
  · rintro ⟨h₁, h₂, h₃, h₄, h₅, h₆, rfl⟩
    exact ⟨_, h₁, _, h₂, _, h₃, _, h₄, _, h₅, _, h₆, rfl⟩

end

theorem accepts_of_search (found : spec.search wall now = some t) :
    spec.accepts (wall t) = true := by
  obtain ⟨t', -, ended⟩ := loopFor_exit (fun _ => True) (fun _ _ _ _ => trivial) trivial
    (Option.join_eq_some_iff.mp found)
  unfold SpecSchedule.searchRound at ended
  split_ifs at ended with late accepted
  · cases ended
  · rw [← Option.some.inj (Sum.inr.inj ended)]
    exact accepted

def Activates (s : Schedule) (loc : Location) (t : Int) : Prop :=
  ∃ now, s.after (s.zone loc) now = some t

def barePlatform : Platform where
  zones name := some (sprintf "unknown time zone %s" [.str name])
  offset _ _ := 0
  unicode s := s
  parseDuration s := .error (sprintf "time: invalid duration %q" [.str s])
  spaceless _ _ read := by cases read

def bareHost : Host := barePlatform.host fun _ => none

end NexusPipe.Proof
