import NexusPipe.Pkg.Validator
import NexusPipe.Proof.Cron.Spec
import NexusPipe.Proof.Scheduler.Cron

namespace NexusPipe.Proof.Pkg.Validator
open Library NexusPipe.Cron NexusPipe.Pkg.Validator NexusPipe.Scheduler Scheduler List

theorem mem_oneOf : w ∈ (oneOf chars).matches' ↔ ∃ c ∈ chars.toList, w = [c] := by
  unfold oneOf
  induction chars.toList with
  | nil => simp [RegularExpression.matches'_zero, Language.notMem_zero]
  | cons c chars ih =>
    rw [map_cons, sum_cons, RegularExpression.matches'_add, Language.mem_add, ih,
      exists_mem_cons_iff, RegularExpression.matches'_char]
    rfl

theorem mem_literal : w ∈ (literal text).matches' ↔ w = text.toList := by
  unfold literal
  induction text.toList generalizing w with
  | nil => simp [RegularExpression.matches'_epsilon, Language.mem_one]
  | cons c chars ih =>
    rw [map_cons, prod_cons, RegularExpression.matches'_mul, Language.mem_mul]
    constructor
    · rintro ⟨_, rfl, rest, matched, rfl⟩
      rw [ih.mp matched]
      rfl
    · rintro rfl
      exact ⟨[c], rfl, chars, ih.mpr rfl, rfl⟩

def Entry (f : String) : Prop := f = "*" ∨ Numeral f

theorem entry_of_cronField (matched : w ∈ cronField.matches') : Entry (String.ofList w) := by
  have inDigits {chars : String} (all : chars.toList.all Char.isDigit = true) {u : List Char}
      (one : u ∈ (oneOf chars).matches') : ∃ c, c.isDigit = true ∧ u = [c] := by
    obtain ⟨c, member, rfl⟩ := mem_oneOf.mp one
    exact ⟨c, all_eq_true.mp all c member, rfl⟩
  rcases matched with ⟨tens, optional, units, last, rfl⟩ | star
  · obtain ⟨c, isDigit, rfl⟩ := inDigits (by decide) last
    refine .inr ⟨by simp, ?_⟩
    rcases optional with none | low
    · obtain rfl : tens = [] := none
      simpa using isDigit
    · obtain ⟨c', isDigit', rfl⟩ := inDigits (by decide) low
      simp [isDigit, isDigit']
  · obtain rfl : w = ['*'] := star
    exact .inl rfl

theorem Entry.solid (entry : Entry f) : f.toList ≠ [] ∧ Solid f := by
  rcases entry with rfl | numeral
  · exact ⟨by decide, forall_mem_singleton.mpr (by decide)⟩
  · refine ⟨fun empty => numeral.nonempty (String.toList_eq_nil_iff.mp empty), fun c member => ?_⟩
    have digit := digit_toNat (all_eq_true.mp numeral.digits c member)
    simp only [isSpace, decide_eq_false_iff_not]
    omega

theorem Entry.at_notMem (entry : Entry f) : '@' ∉ f.toList := by
  rcases entry with rfl | numeral
  · decide
  · exact fun member => numeral.ne_of_mem member (by decide) rfl

theorem blank_isSpace (member : c ∈ "\t\n\x0c\r ".toList) : isSpace c = true :=
  all_eq_true.mp (by decide : "\t\n\x0c\r ".toList.all isSpace = true) c member

theorem words_entries {parts : List (List Char)}
    (separated : ∀ part ∈ parts, part ∈ (cronField * blank).matches')
    (matched : last ∈ cronField.matches') :
    (words isSpace (parts.flatten ++ last)).length = parts.length + 1 ∧
      ∀ w ∈ words isSpace (parts.flatten ++ last), Entry (String.ofList w) := by
  have single {w : List Char} (matched : w ∈ cronField.matches') : words isSpace w = [w] := by
    obtain ⟨nonempty, inside⟩ := (entry_of_cronField matched).solid
    rw [Solid, String.toList_ofList] at inside
    rw [String.toList_ofList] at nonempty
    exact words_eq_singleton inside nonempty
  induction parts with
  | nil =>
    rw [flatten_nil, nil_append, single matched]
    exact ⟨rfl, forall_mem_singleton.mpr (entry_of_cronField matched)⟩
  | cons part parts ih =>
    obtain ⟨length, all⟩ := ih fun part member => separated part (mem_cons_of_mem _ member)
    obtain ⟨field, first, gap, isBlank, rfl⟩ := separated _ mem_cons_self
    obtain ⟨c, member, rfl⟩ := mem_oneOf.mp isBlank
    have separates := blank_isSpace member
    rw [flatten_cons, append_assoc, append_assoc, singleton_append,
      words_append_cons separates, single first, singleton_append]
    refine ⟨by rw [length_cons, length, length_cons], ?_⟩
    exact forall_mem_cons.mpr ⟨entry_of_cronField first, all⟩

theorem fields_of_cronFields {s : String} {tail : List Char} (ends : tail <:+ s.toList)
    (matched : tail ∈ cronFields.matches') :
    ∃ entries, entries <:+ fields s ∧ entries.length = 4 ∧ ∀ f ∈ entries, Entry f := by
  obtain ⟨opening, shape⟩ := ends
  obtain ⟨_, power, last, final, rfl⟩ := matched
  rw [RegularExpression.matches'_pow] at power
  obtain ⟨parts, rfl, four, separated⟩ := Language.mem_pow.mp power
  cases parts with
  | nil => cases four
  | cons part parts =>
    obtain ⟨field, first, gap, isBlank, rfl⟩ := separated _ mem_cons_self
    obtain ⟨c, member, rfl⟩ := mem_oneOf.mp isBlank
    obtain ⟨length, all⟩ := words_entries
      (fun part member => separated part (mem_cons_of_mem _ member)) final
    refine ⟨(words isSpace (parts.flatten ++ last)).map String.ofList, ?_, ?_, ?_⟩
    · have cut : s.toList = (opening ++ field) ++ c :: (parts.flatten ++ last) := by
        rw [← shape]
        simp
      rw [fields_eq_words, cut, words_append_cons (blank_isSpace member), map_append]
      exact suffix_append _ _
    · rw [length_map, length, ← length_cons, four]
    · exact forall_mem_map.mpr all

def openings : List String :=
  ["@annually", "@yearly", "@monthly", "@weekly", "@daily", "@hourly", "@every_"]

theorem openings_of_cronName (matched : w ∈ cronName.matches') :
    ∃ name ∈ openings, name.toList <+: w := by
  obtain ⟨_, rfl, rest, alternatives, rfl⟩ := matched
  have opens {text : String} {tail : List Char} (member : "@" ++ text ∈ openings)
      (named : tail ∈ (literal text).matches') (more : List Char) :
      ∃ name ∈ openings, name.toList <+: ['@'] ++ (tail ++ more) := by
    refine ⟨"@" ++ text, member, more, ?_⟩
    rw [mem_literal.mp named, String.toList_append, append_assoc]
    rfl
  rcases alternatives with (((((h | h) | h) | h) | h) | h) | h
  · simpa using opens (by decide) h []
  · simpa using opens (by decide) h []
  · simpa using opens (by decide) h []
  · simpa using opens (by decide) h []
  · simpa using opens (by decide) h []
  · simpa using opens (by decide) h []
  · obtain ⟨_, ⟨every, h, count, _, rfl⟩, unit, _, rfl⟩ := h
    simpa using opens (by decide) h (count ++ unit)

theorem cronPattern_cases (matched : cronPattern s = true) :
    (∃ name ∈ openings, Strings.hasPrefix s name) ∨
      ∃ entries, entries <:+ fields s ∧ entries.length = 4 ∧ ∀ f ∈ entries, Entry f := by
  rcases (Bool.or_eq_true_iff).mp matched with starts | ends
  · obtain ⟨head, member, named⟩ := any_eq_true.mp starts
    rw [RegularExpression.rmatch_iff_matches'] at named
    obtain ⟨name, listed, opens⟩ := openings_of_cronName named
    have starts := opens.trans ((mem_inits _ _).mp member)
    exact .inl ⟨name, listed, Strings.hasPrefix_iff.mpr starts⟩
  · obtain ⟨tail, member, listed⟩ := any_eq_true.mp ends
    rw [RegularExpression.rmatch_iff_matches'] at listed
    exact .inr (fields_of_cronFields ((mem_tails _ _).mp member) listed)

section
variable (p : Platform) (unmarshal : String → Option (GoMap String Any))

/-- One of the library's names, or five fields of which the minute is readable and the others lie
in their ranges, behind a time zone that can be loaded. -/
def Schedulable (s : String) : Prop :=
  ∃ zone rest loc, splitZone s = .ok (zone, rest) ∧
    (p.host unmarshal).specLocation zone = .ok loc ∧
    (rest ∈ named ∨
      startsDescriptor rest = false ∧ ∃ minute hour dom month dow,
        fields rest = [minute, hour, dom, month, dow] ∧
        (∃ bits, getField p.unicode .minutes minute = .ok bits) ∧
        Within .hours hour ∧ Within .dom dom ∧ Within .months month ∧ Within .dow dow)

end

section
variable {p : Platform}

theorem validCron_eq_ok : validCron (.string s) = .ok () ↔ cronPattern s = true := by
  rw [validCron]
  split_ifs with matched <;> simp [matched]

theorem startsDescriptor_of_opening (listed : name ∈ openings)
    (opens : Strings.hasPrefix s name = true) : startsDescriptor s = true := by
  have all : openings.all fun name => "@".toList.isPrefixOf name.toList := by decide
  have starts := isPrefixOf_iff_prefix.mp (all_eq_true.mp all name listed)
  exact isPrefixOf_iff_prefix.mpr (starts.trans (Strings.hasPrefix_iff.mp opens))

theorem not_every (matched : cronPattern s = true)
    (split : splitZone s = .ok (zone, "@every " ++ duration))
    (read : p.parseDescriptor ("@every " ++ duration) loc = .ok schedule) : False := by
  rcases cronPattern_cases matched with ⟨name, listed, opens⟩ | ⟨entries, ending, four, all⟩
  · rw [splitZone_descriptor (startsDescriptor_of_opening listed opens)] at split
    obtain ⟨-, rfl⟩ := Prod.mk.inj (Except.ok.inj split)
    rw [Strings.hasPrefix_iff, String.toList_append] at opens
    simp only [openings, mem_cons, not_mem_nil, or_false] at listed
    rcases listed with rfl | rfl | rfl | rfl | rfl | rfl | rfl <;> simp at opens
  · obtain ⟨first, more, fields_eq, short, at_first⟩ := fields_descriptor read
    have inside : fields ("@every " ++ duration) <:+ entries := by
      refine suffix_of_suffix_length_le (fields_suffix split) ending ?_
      rw [fields_eq, length_cons]
      omega
    have member := inside.subset (fields_eq ▸ mem_cons_self)
    exact (all first member).at_notMem at_first

theorem entries_of_fields {minute hour : String} (matched : cronPattern s = true)
    (split : splitZone s = .ok (zone, rest)) (plain : startsDescriptor rest = false)
    (five : fields rest = [minute, hour, dom, month, dow]) :
    Entry hour ∧ Entry dom ∧ Entry month ∧ Entry dow := by
  rcases cronPattern_cases matched with ⟨name, listed, opens⟩ | ⟨entries, ending, four, all⟩
  · have starts := startsDescriptor_of_opening listed opens
    rw [splitZone_descriptor starts] at split
    obtain ⟨-, rfl⟩ := Prod.mk.inj (Except.ok.inj split)
    rw [starts] at plain
    cases plain
  · have whole : entries <:+ minute :: [hour, dom, month, dow] := by
      rw [← five]
      refine suffix_of_suffix_length_le ending (fields_suffix split) ?_
      rw [four, five]
      exact Nat.le_succ 4
    have last : entries <:+ [hour, dom, month, dow] :=
      suffix_of_suffix_length_le whole (suffix_cons minute _) four.le
    obtain rfl := last.eq_of_length four
    simpa using all

theorem validCron_parses_iff (valid : validCron (.string s) = .ok ()) :
    (∃ schedule, parseCronExpression (p.host unmarshal) s = .ok schedule) ↔
      Schedulable p unmarshal s := by
  have matched := validCron_eq_ok.mp valid
  simp only [parseCronExpression_eq_ok, parse_eq_ok]
  constructor
  · rintro ⟨schedule, -, zone, rest, loc, split, located, ⟨-, read⟩ | ⟨plain, minute, hour, dom,
      month, dow, parts, spec, read, -⟩⟩
    · refine ⟨zone, rest, loc, split, located, .inl ?_⟩
      rcases parseDescriptor_eq_ok read with member | ⟨duration, rfl, -⟩
      · exact member
      · exact (not_every matched split read).elim
    · obtain ⟨h, d, m, w⟩ := entries_of_fields matched split plain parts
      obtain ⟨-, minutes, hours, days, months, weekdays, -⟩ := parseFields_eq_ok.mp read
      refine ⟨zone, rest, loc, split, located, .inr ⟨plain, minute, hour, dom, month, dow, parts,
        ⟨_, minutes⟩, ?_, ?_, ?_, ?_⟩⟩
      · exact (exists_getField_iff p.unicode lettered_hours h).mp ⟨_, hours⟩
      · exact (exists_getField_iff p.unicode lettered_dom d).mp ⟨_, days⟩
      · exact (exists_getField_iff p.unicode lettered_months m).mp ⟨_, months⟩
      · exact (exists_getField_iff p.unicode lettered_dow w).mp ⟨_, weekdays⟩
  · rintro ⟨zone, rest, loc, split, located, accepted⟩
    have nonempty : s ≠ "" := by
      rintro rfl
      exact absurd matched (by decide +kernel)
    rcases accepted with member | ⟨plain, minute, hour, dom, month, dow, parts, ⟨minutes, inMinutes⟩,
      inHours, inDays, inMonths, inWeek⟩
    · obtain ⟨schedule, read⟩ := exists_parseDescriptor (p := p) member loc
      have starts : startsDescriptor rest = true :=
        all_eq_true.mp (by decide : named.all startsDescriptor = true) rest member
      exact ⟨schedule, nonempty, zone, rest, loc, split, located, .inl ⟨starts, read⟩⟩
    · obtain ⟨h, d, m, w⟩ := entries_of_fields matched split plain parts
      obtain ⟨hours, readHours⟩ := (exists_getField_iff p.unicode lettered_hours h).mpr inHours
      obtain ⟨days, readDays⟩ := (exists_getField_iff p.unicode lettered_dom d).mpr inDays
      obtain ⟨months, readMonths⟩ := (exists_getField_iff p.unicode lettered_months m).mpr inMonths
      obtain ⟨weekdays, readWeek⟩ := (exists_getField_iff p.unicode lettered_dow w).mpr inWeek
      refine ⟨_, nonempty, zone, rest, loc, split, located, .inr ⟨plain, minute, hour, dom, month, dow,
        parts, ⟨1, minutes, hours, days, months, weekdays, loc⟩, ?_, rfl⟩⟩
      exact parseFields_eq_ok.mpr ⟨rfl, inMinutes, readHours, readDays, readMonths, readWeek, rfl⟩

end

theorem every_and_hour24_refused :
    validCron (.string "@every_5m") = .ok () ∧ validCron (.string "0 24 * * *") = .ok () ∧
      (parseCronExpression bareHost "@every_5m").isOk = false ∧
      (parseCronExpression bareHost "0 24 * * *").isOk = false := by
  decide +kernel

theorem nightly_parses : validCron (.string "0 2 * * *") = .ok () ∧
    ∃ schedule, parseCronExpression bareHost "0 2 * * *" = .ok schedule := by
  have valid : validCron (.string "0 2 * * *") = .ok () := by decide +kernel
  refine ⟨valid, (validCron_parses_iff valid).mpr ⟨none, "0 2 * * *", .localZone, rfl, rfl, .inr ?_⟩⟩
  exact ⟨by decide, "0", "2", "*", "*", "*", by decide, ⟨_, rfl⟩, .inr (by decide), .inl rfl,
    .inl rfl, .inl rfl⟩

end NexusPipe.Proof.Pkg.Validator
