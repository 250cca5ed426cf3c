import NexusPipe.Library.GoMap
import NexusPipe.Library.Slice

namespace NexusPipe.Library
open List

structure Cell where
  array : Nat
  index : Nat
  deriving DecidableEq, Repr

namespace Cell
variable {α : Type*}

def read (arrays : Arrays α) (c : Cell) : Option α := (arrays.getD c.array [])[c.index]?

def Kept (s : Slice) (c : Cell) : Prop := c.array = s.array → c.index < s.offset + s.len

end Cell

namespace Slice
variable {α : Type*} {s : Slice}

def nil : Slice := ⟨0, 0, 0, 0⟩

def last (s : Slice) : Cell := ⟨s.array, s.offset + s.len - 1⟩

theorem valid_nil (arrays : Arrays α) : nil.Valid arrays := ⟨le_rfl, .inl rfl⟩

@[simp] theorem read_nil (arrays : Arrays α) : nil.read arrays = [] := take_zero

@[simp] theorem read_made (arrays : Arrays α) (elements spare : List α) :
    (make arrays elements spare).2.read (make arrays elements spare).1 = elements := by
  simp [read, make]

theorem getD_modify_set (arrays : Arrays α) (k i j : Nat) (x : α) :
    (arrays.modify k fun array => array.set i x).getD j [] =
      if j = k then (arrays.getD j []).set i x else arrays.getD j [] := by
  simp only [getD_eq_getElem?_getD, getElem?_modify]
  by_cases same : j = k
  · cases arrays[j]? <;> simp [same]
  · cases arrays[j]? <;> simp [same, Ne.symm same]

theorem fits_of_room (valid : s.Valid arrays) (room : s.len < s.cap) :
    s.offset + s.len < (arrays.getD s.array []).length := by
  rcases valid.2 with empty | ⟨-, fits⟩
  · omega
  · omega

theorem read_append (valid : s.Valid arrays) (x : α) (spare : List α) :
    (append arrays s x spare).2.read (append arrays s x spare).1 = s.read arrays ++ [x] := by
  unfold append
  split
  · next room =>
      have fits := fits_of_room valid room
      simp only [read, getD_modify_set, if_true, take_add_one, drop_set]
      rw [if_neg (by omega), Nat.add_sub_cancel_left, take_set_of_le le_rfl,
        getElem?_set_self (by rw [length_drop]; omega), Option.toList_some]
  · rw [read_made]

theorem last_append (valid : s.Valid arrays) (x : α) (spare : List α) :
    (append arrays s x spare).2.last.read (append arrays s x spare).1 = some x ∧
      (append arrays s x spare).2.last.Kept (append arrays s x spare).2 := by
  unfold append
  split
  · next room =>
      have fits := fits_of_room valid room
      refine ⟨?_, fun _ => by simp only [last]; omega⟩
      simp only [Cell.read, last, getD_modify_set, if_true, ← Nat.add_assoc, Nat.add_sub_cancel]
      exact getElem?_set_self fits
  · refine ⟨?_, fun _ => by simp only [make, last, length_append, length_singleton]; omega⟩
    simp [Cell.read, last, make]

end Slice

namespace Cell
variable {α : Type*} {c : Cell}

theorem array_lt (reads : c.read arrays = some y) : c.array < arrays.length := by
  by_contra outside
  simp [read, getD_eq_getElem?_getD, getElem?_eq_none (not_lt.mp outside)] at reads

theorem read_append (kept : c.Kept s) (reads : c.read arrays = some y) (x : α) (spare : List α) :
    c.read (s.append arrays x spare).1 = some y ∧ c.Kept (s.append arrays x spare).2 := by
  unfold Slice.append
  split
  · refine ⟨?_, fun same => Nat.lt_succ_of_lt (kept same)⟩
    rw [read, Slice.getD_modify_set]
    split
    · next same =>
        rw [getElem?_set_ne (by have := kept same; omega)]
        exact reads
    · exact reads
  · have inside := array_lt reads
    refine ⟨?_, fun same => absurd same (by simp only [Slice.make]; omega)⟩
    rw [read, Slice.make, Slice.getD_append_of_lt inside]
    exact reads

end Cell

section
variable {α κ : Type*} [DecidableEq κ] {key : α → Option κ} {arrays : Arrays α} {s : Slice}
  {index : GoMap κ Cell}

/-- The index leads from each key to the one element of the slice that has it, and to nothing else.
The cell it gives need not be the place in the slice where the element now is. -/
structure Indexed (key : α → Option κ) (arrays : Arrays α) (s : Slice) (index : GoMap κ Cell) :
    Prop where
  valid : s.Valid arrays
  found : ∀ k c, index.lookup k = some c →
    c.Kept s ∧ ∃ x ∈ s.read arrays, c.read arrays = some x ∧ key x = some k
  complete : ∀ x ∈ s.read arrays, ∃ k c,
    key x = some k ∧ index.lookup k = some c ∧ c.read arrays = some x

namespace Indexed

theorem of_read_nil (valid : s.Valid arrays) (empty : s.read arrays = []) :
    Indexed key arrays s (∅ : GoMap κ Cell) where
  valid := valid
  found k c found := by simp at found
  complete x listed := by simp [empty] at listed

section
variable (indexed : Indexed key arrays s index)
include indexed

theorem key_unique (first : x ∈ s.read arrays) (second : y ∈ s.read arrays) (same : key x = key y) :
    x = y := by
  obtain ⟨k, c, keyed, found, reads⟩ := indexed.complete x first
  obtain ⟨k', c', keyed', found', reads'⟩ := indexed.complete y second
  obtain rfl : k = k' := Option.mem_unique keyed (same.trans keyed')
  obtain rfl : c = c' := Option.mem_unique found found'
  exact Option.mem_unique reads reads'

theorem append (keyed : key x = some k) (unique : ∀ y ∈ s.read arrays, key y = some k → y = x)
    (spare : List α) : Indexed key (s.append arrays x spare).1 (s.append arrays x spare).2
      (index.insert k (s.append arrays x spare).2.last) := by
  have last := Slice.last_append indexed.valid x spare
  have read := Slice.read_append indexed.valid x spare
  refine ⟨Slice.valid_appended indexed.valid x spare, fun k' c found => ?_, fun y listed => ?_⟩
  · rw [GoMap.lookup_insert_eq] at found
    rw [read]
    split at found
    · next same =>
        obtain rfl := Option.some.inj found
        exact ⟨last.2, x, by simp, last.1, same ▸ keyed⟩
    · obtain ⟨kept, y, listed, reads, keyed'⟩ := indexed.found k' c found
      obtain ⟨reads', kept'⟩ := Cell.read_append kept reads x spare
      exact ⟨kept', y, mem_append_left _ listed, reads', keyed'⟩
  · rw [read, mem_append, mem_singleton] at listed
    rcases listed with listed | rfl
    · obtain ⟨k', c, keyed', found, reads⟩ := indexed.complete y listed
      by_cases same : k' = k
      · -- an element that has the key already is the one appended again
        obtain rfl := unique y listed (same ▸ keyed')
        exact ⟨k, _, keyed, by rw [GoMap.lookup_insert_eq, if_pos rfl], last.1⟩
      · have kept := (indexed.found k' c found).1
        exact ⟨k', c, keyed', by rw [GoMap.lookup_insert_eq, if_neg same, found],
          (Cell.read_append kept reads x spare).1⟩
    · exact ⟨k, _, keyed, by rw [GoMap.lookup_insert_eq, if_pos rfl], last.1⟩

theorem congr (same : ∀ x ∈ s.read arrays, key' x = key x) :
    Indexed key' arrays s index where
  valid := indexed.valid
  found k c found := by
    obtain ⟨kept, x, listed, reads, keyed⟩ := indexed.found k c found
    exact ⟨kept, x, listed, reads, (same x listed).trans keyed⟩
  complete x listed := by
    obtain ⟨k, c, keyed, found, reads⟩ := indexed.complete x listed
    exact ⟨k, c, (same x listed).trans keyed, found, reads⟩

theorem isSome_lookup_iff (k : κ) :
    (index.lookup k).isSome ↔ ∃ x ∈ s.read arrays, key x = some k := by
  constructor
  · intro present
    obtain ⟨c, found⟩ := Option.isSome_iff_exists.mp present
    obtain ⟨-, x, listed, -, keyed⟩ := indexed.found k c found
    exact ⟨x, listed, keyed⟩
  · rintro ⟨x, listed, keyed⟩
    obtain ⟨k', c, keyed', found, -⟩ := indexed.complete x listed
    obtain rfl : k = k' := Option.mem_unique keyed keyed'
    exact Option.isSome_iff_exists.mpr ⟨c, found⟩

end

end Indexed
end
end NexusPipe.Library
