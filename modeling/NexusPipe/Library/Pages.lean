import Mathlib.Data.List.Basic

namespace NexusPipe.Library

variable {α : Type*}

def page (k : Nat) (l : List α) (i : Nat) : List α := (l.drop (i * k)).take k

def pageCount (k n : Nat) : Nat := n / k + if n % k ≠ 0 then 1 else 0

theorem flatMap_page_range (k : Nat) (l : List α) (n : Nat) :
    (List.range n).flatMap (page k l) = l.take (n * k) := by
  induction n with
  | zero => simp
  | succ n ih =>
    rw [List.range_succ, List.flatMap_append, ih, List.flatMap_singleton, Nat.succ_mul, List.take_add,
      page]

theorem lt_pageCount_iff (positive : 0 < k) : i < pageCount k n ↔ i * k < n := by
  have split := Nat.div_add_mod n k
  have small := Nat.mod_lt n positive
  rw [pageCount]
  constructor
  · intro inside
    split_ifs at inside with rest
    · have := Nat.mul_le_mul_left k (Nat.lt_succ_iff.mp inside)
      rw [Nat.mul_comm i k]
      omega
    · have := Nat.mul_le_mul_left k (Nat.succ_le_of_lt inside)
      rw [Nat.mul_succ, Nat.add_zero] at this
      rw [Nat.mul_comm i k]
      omega
  · intro inside
    have : i ≤ n / k := by
      rw [Nat.le_div_iff_mul_le positive]
      exact Nat.le_of_lt inside
    split_ifs with rest
    · omega
    · rcases Nat.lt_or_eq_of_le this with before | rfl
      · exact before
      · rw [Nat.mul_comm] at inside
        omega

theorem flatMap_pages (positive : 0 < k) (l : List α) :
    (List.range (pageCount k l.length)).flatMap (page k l) = l := by
  rw [flatMap_page_range, List.take_of_length_le]
  exact Nat.le_of_not_lt fun more => Nat.lt_irrefl _ ((lt_pageCount_iff positive).mpr more)

end NexusPipe.Library
