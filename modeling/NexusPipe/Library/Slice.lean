import Mathlib.Data.List.Basic

namespace NexusPipe.Library

abbrev Arrays (α : Type*) := List (List α)

structure Slice where
  array : Nat
  offset : Nat
  len : Nat
  cap : Nat
  deriving DecidableEq, Repr

namespace Slice
variable {α : Type*}

def read (arrays : Arrays α) (s : Slice) : List α :=
  ((arrays.getD s.array []).drop s.offset).take s.len

def Valid (arrays : Arrays α) (s : Slice) : Prop :=
  s.len ≤ s.cap ∧
    (s.cap = 0 ∨ s.array < arrays.length ∧ s.offset + s.cap ≤ (arrays.getD s.array []).length)

instance (arrays : Arrays α) (s : Slice) : Decidable (s.Valid arrays) :=
  inferInstanceAs (Decidable (_ ∧ _))

def make (arrays : Arrays α) (elements spare : List α) : Arrays α × Slice :=
  (arrays ++ [elements ++ spare], ⟨arrays.length, 0, elements.length, elements.length + spare.length⟩)

/-- `append(s, x)`: in place when there is room, and else in a new array, of which `spare` is what the
runtime adds for later. -/
def append (arrays : Arrays α) (s : Slice) (x : α) (spare : List α) : Arrays α × Slice :=
  if s.len < s.cap then
    (arrays.modify s.array fun array => array.set (s.offset + s.len) x, { s with len := s.len + 1 })
  else make arrays (s.read arrays ++ [x]) spare

variable {arrays : Arrays α} {s : Slice}

theorem getD_append_of_lt {array : List α} (inside : k < arrays.length) :
    (arrays ++ [array]).getD k [] = arrays.getD k [] := by
  simp only [List.getD_eq_getElem?_getD, List.getElem?_append_left inside]

theorem length_read (valid : s.Valid arrays) : (s.read arrays).length = s.len := by
  rw [read, List.length_take, List.length_drop]
  rcases valid with ⟨short, empty | ⟨-, fits⟩⟩
  · omega
  · omega

theorem valid_make (valid : s.Valid arrays) (elements spare : List α) :
    s.Valid (make arrays elements spare).1 := by
  refine ⟨valid.1, valid.2.imp_right fun ⟨inside, fits⟩ => ?_⟩
  rw [make, getD_append_of_lt inside]
  exact ⟨by simp; omega, fits⟩

theorem valid_made (arrays : Arrays α) (elements spare : List α) :
    (make arrays elements spare).2.Valid (make arrays elements spare).1 :=
  ⟨by simp [make], .inr (by simp [make])⟩

theorem read_make (valid : s.Valid arrays) (elements spare : List α) :
    s.read (make arrays elements spare).1 = s.read arrays := by
  rcases valid with ⟨short, empty | ⟨inside, -⟩⟩
  · have : s.len = 0 := by omega
    simp [read, this]
  · rw [read, make, getD_append_of_lt inside, read]

theorem valid_set (valid : s.Valid arrays) (k i : Nat) (x : α) :
    s.Valid (arrays.modify k fun array => array.set i x) := by
  have lengths : ((arrays.modify k fun array => array.set i x).getD s.array []).length =
      (arrays.getD s.array []).length := by
    simp only [List.getD_eq_getElem?_getD, List.getElem?_modify]
    cases arrays[s.array]? <;> simp
    split <;> simp
  refine ⟨valid.1, ?_⟩
  rw [lengths, List.length_modify]
  exact valid.2

theorem valid_append (valid : s.Valid arrays) (t : Slice) (x : α) (spare : List α) :
    s.Valid (append arrays t x spare).1 := by
  unfold append
  split
  · exact valid_set valid _ _ x
  · exact valid_make valid _ spare

theorem valid_appended (valid : s.Valid arrays) (x : α) (spare : List α) :
    (append arrays s x spare).2.Valid (append arrays s x spare).1 := by
  unfold append
  split
  · next room => exact ⟨room, (valid_set valid s.array (s.offset + s.len) x).2⟩
  · exact valid_made _ _ spare

end Slice
end NexusPipe.Library
