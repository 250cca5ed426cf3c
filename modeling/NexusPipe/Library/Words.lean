import Mathlib.Data.List.DropRight

/-! The parts of a list between its separators. -/

namespace NexusPipe.Library
open List

variable {α : Type*} {sep : α → Bool} {l : List α}

def words (sep : α → Bool) (l : List α) : List (List α) := (l.splitOnP sep).filter (· ≠ [])

theorem words_append_cons (separates : sep c = true) (l r : List α) :
    words sep (l ++ c :: r) = words sep l ++ words sep r := by
  rw [words, splitOnP_append_cons l r separates, filter_append, words, words]

theorem words_cons (separates : sep c = true) (l : List α) : words sep (c :: l) = words sep l :=
  words_append_cons separates [] l

theorem words_eq_singleton (inside : ∀ x ∈ l, sep x = false) (nonempty : l ≠ []) :
    words sep l = [l] := by
  rw [words, splitOnP_eq_singleton inside]
  simp [nonempty]

theorem words_append_left (blank : ∀ x ∈ l, sep x = true) (r : List α) :
    words sep (l ++ r) = words sep r := by
  induction l with
  | nil => rfl
  | cons c l ih =>
    rw [cons_append, words_cons (blank c mem_cons_self)]
    exact ih fun x member => blank x (mem_cons_of_mem c member)

theorem words_append_right (l : List α) (blank : ∀ x ∈ r, sep x = true) :
    words sep (l ++ r) = words sep l := by
  cases r with
  | nil => rw [append_nil]
  | cons c r =>
    have rest : words sep r = [] := by
      have := words_append_left (fun x member => blank x (mem_cons_of_mem c member)) []
      rwa [append_nil] at this
    rw [words_append_cons (blank c mem_cons_self), rest, append_nil]

theorem words_dropWhile (l : List α) : words sep (l.dropWhile sep) = words sep l := by
  have blank : ∀ x ∈ l.takeWhile sep, sep x = true := fun x member => mem_takeWhile_imp member
  have whole := words_append_left blank (l.dropWhile sep)
  rw [takeWhile_append_dropWhile] at whole
  exact whole.symm

theorem words_rdropWhile (l : List α) : words sep (l.rdropWhile sep) = words sep l := by
  have blank : ∀ x ∈ l.rtakeWhile sep, sep x = true := fun x member => mem_rtakeWhile_imp member
  have whole := words_append_right (l.rdropWhile sep) blank
  rw [rdropWhile_append_rtakeWhile] at whole
  exact whole.symm

theorem mem_splitOnP (member : w ∈ l.splitOnP sep) (inside : x ∈ w) : x ∈ l ∧ sep x = false := by
  induction l generalizing w with
  | nil =>
    rw [splitOnP_nil, mem_singleton] at member
    rw [member] at inside
    cases inside
  | cons c l ih =>
    rw [splitOnP_cons_eq_if_modifyHead] at member
    split_ifs at member with separates
    · rcases mem_cons.mp member with rfl | later
      · cases inside
      · exact (ih later inside).imp_left (mem_cons_of_mem c)
    · obtain ⟨first, rest, parts⟩ := exists_cons_of_ne_nil (splitOnP_ne_nil sep l)
      rw [parts, modifyHead_cons] at member
      rw [parts] at ih
      rcases mem_cons.mp member with rfl | later
      · rcases mem_cons.mp inside with rfl | further
        · exact ⟨mem_cons_self, eq_false_of_ne_true separates⟩
        · exact (ih mem_cons_self further).imp_left (mem_cons_of_mem c)
      · exact (ih (mem_cons_of_mem first later) inside).imp_left (mem_cons_of_mem c)

theorem mem_words (member : w ∈ words sep l) : w ≠ [] ∧ ∀ x ∈ w, sep x = false := by
  obtain ⟨part, nonempty⟩ := mem_filter.mp member
  exact ⟨of_decide_eq_true nonempty, fun x inside => (mem_splitOnP part inside).2⟩

theorem words_ne_nil (member : c ∈ l) (inside : sep c = false) : words sep l ≠ [] := by
  induction l with
  | nil => cases member
  | cons x l ih =>
    rw [words, splitOnP_cons_eq_if_modifyHead]
    split_ifs with separates
    · rcases mem_cons.mp member with rfl | later
      · rw [inside] at separates
        cases separates
      · simpa [words] using ih later
    · obtain ⟨first, rest, parts⟩ := exists_cons_of_ne_nil (splitOnP_ne_nil sep l)
      simp [parts]

end NexusPipe.Library
