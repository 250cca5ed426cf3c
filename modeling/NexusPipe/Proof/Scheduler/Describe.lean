import NexusPipe.Library.List
import NexusPipe.Proof.Cron.Spec
import NexusPipe.Proof.Scheduler.Cron

namespace NexusPipe.Proof.Scheduler
open Library NexusPipe.Cron NexusPipe.Scheduler

structure Reading where
  zone : Option String
  minute : String
  hour : String
  dom : String
  month : String
  dow : String

namespace Reading

def fields (r : Reading) : List String := [r.minute, r.hour, r.dom, r.month, r.dow]

def days (r : Reading) : List String := [r.dom, r.month, r.dow]

end Reading

def Reads (e : String) (r : Reading) : Prop :=
  ∃ rest, splitZone e = .ok (r.zone, rest) ∧ startsDescriptor rest = false ∧ fields rest = r.fields

def fixedTexts : List (List String × String × String) :=
  [(["*", "*", "*", "*", "*"], "Every", "minute"),
    (["0", "*", "*", "*", "*"], "Every", "hour"),
    (["0", "0", "*", "*", "*"], "Daily at", "midnight"),
    (["0", "12", "*", "*", "*"], "Daily at", "noon"),
    (["0", "0", "1", "*", "*"], "First day of every month at", "midnight"),
    (["0", "9", "*", "*", "1"], "Every Monday at 9:00", "AM"),
    (["0", "9", "*", "*", "5"], "Every Friday at 9:00", "AM")]

def dayPhrase (dow : String) : String :=
  if dow = "*" then "Daily at" else "Every " ++ describeDayOfWeek dow ++ " at"

def Repeats (r : Reading) (n unit : String) : Prop :=
  unit = "minutes" ∧ n ∈ ["5", "10", "15", "30"] ∧ r.minute = "*/" ++ n ∧ r.hour = "*" ∨
    unit = "hours" ∧ r.minute = "0" ∧ r.hour = "*/" ++ n

inductive Phrase (r : Reading) : String → String → Prop
  | fixed {opening last : String} (listed : (r.fields, opening, last) ∈ fixedTexts) :
      Phrase r opening last
  | timed (dom : r.dom = "*") (month : r.month = "*") :
      Phrase r (dayPhrase r.dow) (padField r.hour ++ ":" ++ padField r.minute)
  | repeated {n unit : String} (repeats : Repeats r n unit) : Phrase r ("Every " ++ n) unit

def quotes : List String := ["Cron: ", "Custom schedule: "]

def Says (e : String) (r : Reading) (text : String) : Prop :=
  (∃ head ∈ quotes, text = head ++ e) ∨
    ∃ opening last, Phrase r opening last ∧ text = opening ++ " " ++ last

section
variable {r : Reading}

theorem says_fixed (opening last : String) (same : r.fields = values)
    (listed : (values, opening, last) ∈ fixedTexts) (shape : text = opening ++ " " ++ last) :
    Says e r text :=
  .inr ⟨opening, last, .fixed (same ▸ listed), shape⟩

theorem says_minutes (n : String) (listed : n ∈ ["5", "10", "15", "30"])
    (same : r.minute = "*/" ++ n ∧ r.hour = "*") (shape : text = "Every " ++ n ++ " " ++ "minutes") :
    Says e r text :=
  .inr ⟨_, _, .repeated (.inl ⟨rfl, listed, same⟩), shape⟩

theorem describeText_says
    (five : (if (fields e).length = 6 then (fields e).drop 1 else fields e) = r.fields) :
    Says e r (describeText e) := by
  unfold describeText
  simp only [five]
  simp only [Reading.fields]
  refine iteInduction (fun h => says_fixed "Every" "minute" h (by decide) (by decide)) fun _ => ?_
  refine iteInduction (fun h => says_fixed "Every" "hour" h (by decide) (by decide)) fun _ => ?_
  refine iteInduction (fun h => says_fixed "Daily at" "midnight" h (by decide) (by decide)) fun _ => ?_
  refine iteInduction (fun h => says_fixed "Daily at" "noon" h (by decide) (by decide)) fun _ => ?_
  refine iteInduction
    (fun h => says_fixed "First day of every month at" "midnight" h (by decide) (by decide)) fun _ => ?_
  refine iteInduction (fun h => says_fixed "Every Monday at 9:00" "AM" h (by decide) (by decide))
    fun _ => ?_
  refine iteInduction (fun h => says_fixed "Every Friday at 9:00" "AM" h (by decide) (by decide))
    fun _ => ?_
  refine iteInduction (fun h => ?_) fun _ => ?_
  · obtain ⟨dom, month, weekly, -⟩ := h
    refine .inr ⟨_, _, .timed dom month, ?_⟩
    rw [dayPhrase, if_neg weekly]
    simp [← String.toList_inj]
  refine iteInduction (fun h => ?_) fun _ => ?_
  · obtain ⟨dom, month, daily, -⟩ := h
    refine .inr ⟨_, _, .timed dom month, ?_⟩
    rw [dayPhrase, if_pos daily]
    simp [← String.toList_inj]
  refine iteInduction (fun h => says_minutes "5" (by decide) h (by decide)) fun _ => ?_
  refine iteInduction (fun h => says_minutes "10" (by decide) h (by decide)) fun _ => ?_
  refine iteInduction (fun h => says_minutes "15" (by decide) h (by decide)) fun _ => ?_
  refine iteInduction (fun h => says_minutes "30" (by decide) h (by decide)) fun _ => ?_
  refine iteInduction (fun h => ?_) fun _ => .inl ⟨_, by decide, rfl⟩
  obtain ⟨n, hour⟩ := Strings.hasPrefix_iff_append.mp h.2
  refine .inr ⟨_, _, .repeated (.inr ⟨rfl, h.1, hour⟩), ?_⟩
  rw [hour, Strings.trimPrefix_append]
  simp [← String.toList_inj]

theorem says_of_reads (read : Reads e r) : Says e r (describeText e) := by
  obtain ⟨rest, split, -, parts⟩ := read
  rcases splitZone_eq_ok split with ⟨-, rfl⟩ | ⟨opening, nonempty, whole⟩
  · refine describeText_says ?_
    rw [parts]
    rfl
  · by_cases six : (fields e).length = 6
    · refine describeText_says ?_
      have single : opening.length = 1 := by
        rw [whole, parts, List.length_append] at six
        exact Nat.add_right_cancel six
      rw [if_pos six, whole, ← single, List.drop_left, parts]
    · refine .inl ⟨"Custom schedule: ", by decide, ?_⟩
      have long : (fields e).length ≠ 5 := by
        have positive := List.length_pos_iff.mpr nonempty
        rw [whole, parts, List.length_append, Reading.fields]
        simp only [List.length_cons, List.length_nil]
        omega
      unfold describeText
      simp only [if_neg six]
      split
      · rename_i five
        exact absurd (congrArg List.length five) long
      · rfl

theorem head_phrase (phrase : Phrase r opening last) :
    ∃ c, opening.toList.head? = some c ∧ c ≠ 'C' := by
  have every (rest : String) : ∃ c, ("Every " ++ rest).toList.head? = some c ∧ c ≠ 'C' :=
    ⟨'E', by simp, by decide⟩
  cases phrase with
  | fixed listed =>
    have starts : fixedTexts.all fun entry => entry.2.1.toList.head?.any (· ≠ 'C') := by decide
    simpa [Option.any_eq_true] using List.all_eq_true.mp starts _ listed
  | timed dom month =>
    rw [dayPhrase, String.append_assoc]
    split_ifs
    · exact ⟨'D', by decide, by decide⟩
    · exact every _
  | repeated repeats => exact every _

theorem mem_padField (member : c ∈ (padField f).toList) : c = '0' ∨ c ∈ f.toList := by
  unfold padField at member
  split_ifs at member
  · simpa using member
  · exact .inr member

theorem solid_of_reads (read : Reads e r) : ∀ f ∈ r.fields, Solid f := by
  obtain ⟨rest, -, -, parts⟩ := read
  exact fun f member => solid_of_mem_fields (parts ▸ member)

theorem last_solid (solid : ∀ f ∈ r.fields, Solid f) (phrase : Phrase r opening last) :
    ' ' ∉ last.toList := by
  have padded {f : String} (member : f ∈ r.fields) : ' ' ∉ (padField f).toList := by
    intro space
    rcases mem_padField space with zero | inside
    · cases zero
    · exact absurd (solid f member ' ' inside) (by decide)
  cases phrase with
  | fixed listed =>
    have words : fixedTexts.all fun entry => entry.2.2.toList.all (· ≠ ' ') := by decide
    have solid := List.all_eq_true.mp words _ listed
    exact fun space => of_decide_eq_true (List.all_eq_true.mp solid ' ' space) rfl
  | timed dom month =>
    simp only [String.toList_append, List.mem_append, not_or]
    exact ⟨⟨padded (by simp [Reading.fields]), by decide⟩, padded (by simp [Reading.fields])⟩
  | repeated repeats =>
    rcases repeats with ⟨rfl, -⟩ | ⟨rfl, -⟩ <;> decide

theorem fixed_plain (listed : (values, opening, last) ∈ fixedTexts) : ':' ∉ last.toList := by
  have words : fixedTexts.all fun entry => entry.2.2.toList.all (· ≠ ':') := by decide
  have plain := List.all_eq_true.mp words _ listed
  exact fun colon => of_decide_eq_true (List.all_eq_true.mp plain ':' colon) rfl

end

section
variable {r₁ r₂ : Reading}

theorem quoted_inj (listed₁ : head₁ ∈ quotes) (listed₂ : head₂ ∈ quotes)
    (same : head₁ ++ e₁ = head₂ ++ e₂) : e₁ = e₂ := by
  simp only [quotes, List.mem_cons, List.not_mem_nil, or_false] at listed₁ listed₂
  rcases listed₁ with rfl | rfl
  · rcases listed₂ with rfl | rfl
    · exact (String.append_right_inj _).mp same
    · simp [← String.toList_inj] at same
  · rcases listed₂ with rfl | rfl
    · simp [← String.toList_inj] at same
    · exact (String.append_right_inj _).mp same

theorem quoted_ne_phrase (listed : head ∈ quotes) (phrase : Phrase r₂ opening last) :
    head ++ e₁ ≠ opening ++ " " ++ last := by
  intro same
  obtain ⟨c, first, other⟩ := head_phrase phrase
  have heads := congrArg (fun text => text.toList.head?) same
  simp only [String.toList_append, List.head?_append, first, Option.some_or] at heads
  simp only [quotes, List.mem_cons, List.not_mem_nil, or_false] at listed
  rcases listed with rfl | rfl
  · exact other (by simpa using heads.symm)
  · exact other (by simpa using heads.symm)

theorem phrases_of_same_text (read₁ : Reads e₁ r₁) (read₂ : Reads e₂ r₂)
    (same : describeText e₁ = describeText e₂) :
    e₁ = e₂ ∨ ∃ opening₁ last₁ opening₂ last₂, Phrase r₁ opening₁ last₁ ∧ Phrase r₂ opening₂ last₂ ∧
      opening₁ ++ " " ++ last₁ = opening₂ ++ " " ++ last₂ := by
  rcases says_of_reads read₁ with ⟨head₁, listed₁, text₁⟩ | ⟨opening₁, last₁, phrase₁, text₁⟩
  · rcases says_of_reads read₂ with ⟨head₂, listed₂, text₂⟩ | ⟨opening₂, last₂, phrase₂, text₂⟩
    · exact .inl (quoted_inj listed₁ listed₂ (text₁.symm.trans (same.trans text₂)))
    · exact absurd (text₁.symm.trans (same.trans text₂)) (quoted_ne_phrase listed₁ phrase₂)
  · rcases says_of_reads read₂ with ⟨head₂, listed₂, text₂⟩ | ⟨opening₂, last₂, phrase₂, text₂⟩
    · exact absurd (text₂.symm.trans (same.symm.trans text₁)) (quoted_ne_phrase listed₂ phrase₁)
    · exact .inr ⟨opening₁, last₁, opening₂, last₂, phrase₁, phrase₂,
        text₁.symm.trans (same.trans text₂)⟩

structure Alike (r₁ r₂ : Reading) : Prop where
  minute : padField r₁.minute = padField r₂.minute
  hour : padField r₁.hour = padField r₂.hour
  days : r₁.dom = r₂.dom ∧ r₁.month = r₂.month ∧ dayPhrase r₁.dow = dayPhrase r₂.dow ∨
    ∃ n unit, Repeats r₁ n unit

theorem alike_of_fields (same : r₁.fields = r₂.fields) : Alike r₁ r₂ := by
  obtain ⟨minute, hour, dom, month, dow⟩ :
      r₁.minute = r₂.minute ∧ r₁.hour = r₂.hour ∧ r₁.dom = r₂.dom ∧ r₁.month = r₂.month ∧
        r₁.dow = r₂.dow := by simpa [Reading.fields] using same
  exact ⟨congrArg padField minute, congrArg padField hour, .inl ⟨dom, month, congrArg dayPhrase dow⟩⟩

theorem alike_of_repeats (repeats₁ : Repeats r₁ n unit) (repeats₂ : Repeats r₂ n unit) :
    Alike r₁ r₂ := by
  have same : r₁.minute = r₂.minute ∧ r₁.hour = r₂.hour := by
    rcases repeats₁ with ⟨rfl, -, minute₁, hour₁⟩ | ⟨rfl, minute₁, hour₁⟩
    · rcases repeats₂ with ⟨-, -, minute₂, hour₂⟩ | ⟨other, -⟩
      · exact ⟨minute₁.trans minute₂.symm, hour₁.trans hour₂.symm⟩
      · exact absurd other (by decide)
    · rcases repeats₂ with ⟨other, -⟩ | ⟨-, minute₂, hour₂⟩
      · exact absurd other (by decide)
      · exact ⟨minute₁.trans minute₂.symm, hour₁.trans hour₂.symm⟩
  exact ⟨congrArg padField same.1, congrArg padField same.2, .inr ⟨n, unit, repeats₁⟩⟩

theorem Repeats.plain (repeats : Repeats r n unit) : ':' ∉ unit.toList := by
  rcases repeats with ⟨rfl, -⟩ | ⟨rfl, -⟩ <;> decide

theorem Repeats.notMem_fixedTexts (repeats : Repeats r n unit) :
    (values, opening, unit) ∉ fixedTexts := by
  intro listed
  have words : fixedTexts.all fun entry => entry.2.2 ≠ "minutes" && entry.2.2 ≠ "hours" := by decide
  have other := List.all_eq_true.mp words _ listed
  rcases repeats with ⟨rfl, -⟩ | ⟨rfl, -⟩ <;> simp at other

theorem alike_of_phrases (colon₁ : ':' ∉ r₁.hour.toList) (colon₂ : ':' ∉ r₂.hour.toList)
    (phrase₁ : Phrase r₁ opening last) (phrase₂ : Phrase r₂ opening last) : Alike r₁ r₂ := by
  have padded {f : String} (colon : ':' ∉ f.toList) : ':' ∉ (padField f).toList := fun member =>
    (mem_padField member).elim (by decide) colon
  have timed (r : Reading) : ':' ∈ (padField r.hour ++ ":" ++ padField r.minute).toList := by simp
  generalize shape : opening = opening' at phrase₂
  generalize word : last = last' at phrase₂
  cases phrase₁ with
  | fixed listed₁ =>
    cases phrase₂ with
    | fixed listed₂ =>
      subst shape word
      have keys : (fixedTexts.map Prod.snd).Nodup := by decide
      exact alike_of_fields (congrArg Prod.fst
        (List.inj_on_of_nodup_map keys listed₁ listed₂ rfl))
    | timed dom month => exact absurd (timed r₂) (word ▸ fixed_plain listed₁)
    | repeated repeats => exact absurd listed₁ (word ▸ repeats.notMem_fixedTexts)
  | timed dom₁ month₁ =>
    cases phrase₂ with
    | fixed listed₂ => exact absurd (timed r₁) (word ▸ fixed_plain listed₂)
    | timed dom₂ month₂ =>
      have parts : (padField r₁.hour).toList = (padField r₂.hour).toList ∧
          (padField r₁.minute).toList = (padField r₂.minute).toList := by
        rw [← append_cons_inj (padded colon₁) (padded colon₂)]
        simpa [← String.toList_inj] using word
      exact ⟨String.toList_inj.mp parts.2, String.toList_inj.mp parts.1,
        .inl ⟨dom₁.trans dom₂.symm, month₁.trans month₂.symm, shape⟩⟩
    | repeated repeats => exact absurd (timed r₁) (word ▸ repeats.plain)
  | repeated repeats₁ =>
    cases phrase₂ with
    | fixed listed₂ => exact absurd listed₂ (word ▸ repeats₁.notMem_fixedTexts)
    | timed dom month => exact absurd (timed r₂) (word ▸ repeats₁.plain)
    | repeated repeats₂ =>
      subst word
      obtain rfl := (String.append_right_inj _).mp shape
      exact alike_of_repeats repeats₁ repeats₂

end

section
variable {r : Bounds} {f : String}

theorem eq_singleton_of_size (one : f.utf8ByteSize = 1) : ∃ c, f = String.singleton c := by
  cases shape : f.toList with
  | nil =>
    rw [String.toList_eq_nil_iff.mp shape] at one
    cases one
  | cons c l =>
    have whole : f = String.singleton c ++ String.ofList l := by
      simp [← String.toList_inj, shape]
    rw [whole, String.utf8ByteSize_append, String.utf8ByteSize_singleton] at one
    have positive := c.utf8Size_pos
    have rest : (String.ofList l).utf8ByteSize = 0 := by omega
    refine ⟨c, ?_⟩
    rw [whole, String.utf8ByteSize_eq_zero_iff.mp rest, String.append_empty]

theorem digit_of_getField (nameless : r.names = [])
    (read : getField unicode r ("0" ++ String.singleton c) = .ok bits) :
    c = ',' ∨ c.isDigit = true := by
  obtain ⟨min, max, names⟩ := r
  obtain rfl : names = [] := nameless
  by_cases comma : c = ','
  · exact .inl comma
  right
  rw [getField_eq_getRange (by simpa using Ne.intro comma) (by simp [← String.toList_inj])] at read
  by_cases slash : c = '/'
  · subst slash
    cases read
  by_cases hyphen : c = '-'
  · subst hyphen
    cases read
  rw [getRange_point (by simpa using Ne.symm slash) (by simpa using Ne.symm hyphen)
    (by simp [← String.toList_inj]) (by simp [← String.toList_inj]), bind_eq_ok] at read
  obtain ⟨n, number, -⟩ := read
  have digits := digits_of_mustParseInt (by simp) (by simp) number
  simpa using digits

theorem getField_padded (lettered : Lettered r) (nameless : r.names = []) (one : f.utf8ByteSize = 1)
    (list : f ≠ ",") (read : getField unicode r f = .ok bits)
    (read' : getField unicode r ("0" ++ f) = .ok bits') : bits = bits' := by
  obtain ⟨c, rfl⟩ := eq_singleton_of_size one
  rcases digit_of_getField nameless read' with rfl | digit
  · exact absurd rfl list
  · have numeral : Numeral (String.singleton c) :=
      ⟨by simp [← String.toList_inj], by simpa using digit⟩
    have numeral' : Numeral ("0" ++ String.singleton c) :=
      ⟨by simp [← String.toList_inj], by simpa using digit⟩
    rw [getField_numeral numeral lettered] at read
    rw [getField_numeral numeral' lettered] at read'
    have value : decimal ("0" ++ String.singleton c).toList = decimal (String.singleton c).toList := by
      simp [decimal]
    rw [read.2.2, read'.2.2, value]

theorem getField_eq_of_padField (lettered : Lettered r) (nameless : r.names = [])
    (list : f ≠ ",") (list' : g ≠ ",") (same : padField f = padField g)
    (read : getField unicode r f = .ok bits) (read' : getField unicode r g = .ok bits') :
    bits = bits' := by
  unfold padField at same
  split_ifs at same with one one' one'
  · rw [(String.append_right_inj _).mp same] at read
    exact ok_unique read read'
  · exact getField_padded lettered nameless one list read (same ▸ read')
  · exact (getField_padded lettered nameless one' list' read' (same ▸ read)).symm
  · exact ok_unique (same ▸ read) read'

/-! The name of a day gives its number back, of those that the library reads. -/

def dayNumber (name : String) : String :=
  if name = "Sunday" then "0"
  else if name = "Monday" then "1"
  else if name = "Tuesday" then "2"
  else if name = "Wednesday" then "3"
  else if name = "Thursday" then "4"
  else if name = "Friday" then "5"
  else if name = "Saturday" then "6"
  else name

def misread : List String :=
  ["7", "Sunday", "Monday", "Tuesday", "Wednesday", "Thursday", "Friday", "Saturday"]

variable {d : String}

theorem dayNumber_dayName (readable : d ∉ misread) : dayNumber (dayName d) = d := by
  simp only [misread, List.mem_cons, List.not_mem_nil, or_false, not_or] at readable
  unfold dayName
  split_ifs with h₀ h₁ h₂ h₃ h₄ h₅ h₆
  · rw [h₀.resolve_right readable.1]
    decide
  · rw [h₁]
    decide
  · rw [h₂]
    decide
  · rw [h₃]
    decide
  · rw [h₄]
    decide
  · rw [h₅]
    decide
  · rw [h₆]
    decide
  · simp only [dayNumber, readable, if_false]

variable {dow : String}

theorem not_misread (read : getField unicode .dow dow = .ok bits)
    (member : d ∈ Strings.split dow ',') : d ∉ misread := by
  intro listed
  have nonempty : d ≠ "" := by
    rintro rfl
    exact absurd listed (by decide)
  obtain ⟨bits, ranged⟩ := getRange_of_getField read d (mem_ranges member nonempty)
  simp only [misread, List.mem_cons, List.not_mem_nil, or_false] at listed
  rcases listed with rfl | rfl | rfl | rfl | rfl | rfl | rfl | rfl <;> cases ranged

theorem comma_notMem_dayName (single : ',' ∉ d.toList) : ',' ∉ (dayName d).toList := by
  unfold dayName
  split_ifs
  all_goals first | decide | exact single

theorem mem_split (member : d ∈ Strings.split dow sep) (inside : c ∈ d.toList) :
    c ∈ dow.toList ∧ c ≠ sep := by
  obtain ⟨piece, part, rfl⟩ := List.mem_map.mp member
  rw [String.toList_ofList] at inside
  rw [List.splitOn_eq_splitOnP] at part
  obtain ⟨whole, other⟩ := mem_splitOnP part inside
  exact ⟨whole, by simpa using other⟩

theorem split_inj (same : Strings.split text sep = Strings.split text' sep) : text = text' := by
  have pieces : text.toList.splitOn sep = text'.toList.splitOn sep :=
    List.map_injective_iff.mpr (fun _ _ => String.ofList_injective) same
  have whole := congrArg ([sep].intercalate ·) pieces
  simp only [List.intercalate_splitOn] at whole
  exact String.toList_inj.mp whole

def dayNames (dow : String) : List String := (Strings.split dow ',').map dayName

theorem describeDayOfWeek_eq (solid : Solid dow) :
    describeDayOfWeek dow = Strings.join (dayNames dow) ", " := by
  have trimmed : ((Strings.split dow ',').map fun d => dayName (trimSpace d)) = dayNames dow :=
    List.map_congr_left fun _ member => congrArg dayName
      (trimSpace_eq_self fun c inside => solid c (mem_split member inside).1)
  rw [describeDayOfWeek, trimmed]

theorem dayNames_inj (read : getField unicode .dow dow = .ok bits)
    (read' : getField unicode .dow dow' = .ok bits') (same : dayNames dow = dayNames dow') :
    dow = dow' := by
  have numbers {dow : String} {bits : Bits} (read : getField unicode .dow dow = .ok bits) :
      (dayNames dow).map dayNumber = Strings.split dow ',' := by
    rw [dayNames, List.map_map]
    refine (List.map_congr_left fun d member => ?_).trans (List.map_id _)
    exact dayNumber_dayName (not_misread read member)
  have parts := congrArg (List.map dayNumber) same
  rw [numbers read, numbers read'] at parts
  exact split_inj parts

section
variable (solid : Solid dow) (solid' : Solid dow') (read : getField unicode .dow dow = .ok bits)
  (read' : getField unicode .dow dow' = .ok bits')
include solid solid' read read'

theorem describeDayOfWeek_inj (same : describeDayOfWeek dow = describeDayOfWeek dow') :
    dow = dow' := by
  have fresh (dow : String) : ∀ l ∈ (dayNames dow).map String.toList, ',' ∉ l := by
    simp only [dayNames, List.forall_mem_map]
    exact fun d member => comma_notMem_dayName fun inside => (mem_split member inside).2 rfl
  have nonempty (dow : String) : (dayNames dow).map String.toList ≠ [] := by
    simp [dayNames, Strings.split, List.splitOn_ne_nil]
  rw [describeDayOfWeek_eq solid, describeDayOfWeek_eq solid', Strings.join, Strings.join,
    String.ofList_inj] at same
  have names := intercalate_inj (fresh dow) (fresh dow') (nonempty dow) (nonempty dow') same
  exact dayNames_inj read read' (List.map_injective_iff.mpr (fun _ _ => String.toList_inj.mp) names)

theorem dayPhrase_inj (same : dayPhrase dow = dayPhrase dow') : dow = dow' := by
  unfold dayPhrase at same
  split_ifs at same with star star' star'
  · exact star.trans star'.symm
  · simp [← String.toList_inj] at same
  · simp [← String.toList_inj] at same
  · have names := (String.append_right_inj _).mp ((String.append_left_inj _).mp same)
    exact describeDayOfWeek_inj solid solid' read read' names

end

end

structure Legible (r : Reading) : Prop where
  colon : ':' ∉ r.hour.toList
  minute : r.minute ≠ ","
  hour : r.hour ≠ ","

def Interval (r : Reading) : Prop := ∃ n unit, Repeats r n unit

section
variable {p : Platform} {r₁ r₂ : Reading}

theorem schedule_of_reads (read : Reads e r) (parsed : (p.host unmarshal).parse .standard e = .ok s) :
    ∃ loc spec, (p.host unmarshal).specLocation r.zone = .ok loc ∧
      parseFields p.unicode ["0", r.minute, r.hour, r.dom, r.month, r.dow] loc = .ok spec ∧
      p.schedule spec = s := by
  obtain ⟨rest, split, plain, parts⟩ := read
  obtain ⟨-, zone, rest', loc, split', located, outcome⟩ := parse_eq_ok.mp parsed
  obtain ⟨rfl, rfl⟩ := Prod.mk.inj (ok_unique split split')
  rcases outcome with ⟨descriptor, -⟩ | ⟨-, minute, hour, dom, month, dow, parts', spec, read, rfl⟩
  · rw [plain] at descriptor
    cases descriptor
  · refine ⟨loc, spec, located, ?_, rfl⟩
    obtain ⟨rfl, rfl, rfl, rfl, rfl⟩ : r.minute = minute ∧ r.hour = hour ∧ r.dom = dom ∧
        r.month = month ∧ r.dow = dow := by
      simpa [Reading.fields] using parts.symm.trans parts'
    exact read

theorem spec_eq_of_alike (solid₁ : ∀ f ∈ r₁.fields, Solid f) (solid₂ : ∀ f ∈ r₂.fields, Solid f)
    (legible₁ : Legible r₁) (legible₂ : Legible r₂) (alike : Alike r₁ r₂)
    (days : Interval r₁ → r₁.days = r₂.days)
    (read₁ : parseFields unicode ["0", r₁.minute, r₁.hour, r₁.dom, r₁.month, r₁.dow] loc = .ok spec₁)
    (read₂ : parseFields unicode ["0", r₂.minute, r₂.hour, r₂.dom, r₂.month, r₂.dow] loc = .ok spec₂) :
    spec₁ = spec₂ := by
  obtain ⟨second₁, minute₁, hour₁, dom₁, month₁, dow₁, loc₁⟩ := parseFields_eq_ok.mp read₁
  obtain ⟨second₂, minute₂, hour₂, dom₂, month₂, dow₂, loc₂⟩ := parseFields_eq_ok.mp read₂
  have sameDays : r₁.dom = r₂.dom ∧ r₁.month = r₂.month ∧ r₁.dow = r₂.dow := by
    rcases alike.days with ⟨dom, month, phrase⟩ | interval
    · have dow := dayPhrase_inj (solid₁ _ (by simp [Reading.fields]))
        (solid₂ _ (by simp [Reading.fields])) dow₁ dow₂ phrase
      exact ⟨dom, month, dow⟩
    · simpa [Reading.days] using days interval
  obtain ⟨dom, month, dow⟩ := sameDays
  have minute := getField_eq_of_padField lettered_minutes rfl legible₁.minute legible₂.minute
    alike.minute minute₁ minute₂
  have hour := getField_eq_of_padField lettered_hours rfl legible₁.hour legible₂.hour alike.hour
    hour₁ hour₂
  rw [dom] at dom₁
  rw [month] at month₁
  rw [dow] at dow₁
  cases spec₁
  cases spec₂
  simp only [SpecSchedule.mk.injEq]
  exact ⟨ok_unique second₁ second₂, minute, hour, ok_unique dom₁ dom₂, ok_unique month₁ month₂,
    ok_unique dow₁ dow₂, loc₁.trans loc₂.symm⟩

theorem describeSchedule_eq_ok : describeSchedule host e = .ok text ↔
      (∃ s, parseCronExpression host e = .ok s) ∧ describeText e = text := by
  simp only [describeSchedule, map_eq_ok, exists_and_right]

-- An empty list of minutes and the minute zero, and a colon behind a star.
example : describeText ", 5 * * *" = describeText "0, 5 * * *" ∧
    describeText "*-b:15 *-a * * *" = describeText "15 *-a:*-b * * *" := by decide +kernel

end

def february : Int := 738916 * 24 * hour

end NexusPipe.Proof.Scheduler
