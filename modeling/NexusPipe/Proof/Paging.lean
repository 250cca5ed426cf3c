import Mathlib.Algebra.Order.Ring.Int
import NexusPipe.Paging
import NexusPipe.Proof.Go

namespace NexusPipe.Proof.Paging
open Library

variable {α : Type} {len : Nat} {page perPage start : Int} {s : List α}

structure Corrected (page perPage : Int) : Prop where
  page_pos : 1 ≤ page
  perPage_pos : 1 ≤ perPage
  perPage_le : perPage ≤ 100

theorem corrected (page perPage : Int) : Corrected (Paging.page page) (Paging.perPage perPage) := by
  unfold Paging.page Paging.perPage
  constructor <;> split_ifs <;> omega

def offset (page perPage : Int) : Int := (page - 1) * perPage

/-- The wrapped offset lies behind the list, or both ends of the page can be represented and it has
not wrapped into the list from behind. -/
def InRange (len : Nat) (page perPage : Int) : Prop :=
  len ≤ toInt64 (offset page perPage) ∨
    0 ≤ toInt64 (offset page perPage) ∧ toInt64 (offset page perPage) + perPage < 2 ^ 63 ∧
      offset page perPage < len

instance : Decidable (InRange len page perPage) := inferInstanceAs (Decidable (_ ∨ _))

theorem totalPages_eq (len k : Nat) : Paging.totalPages len k = pageCount k len := by
  rw [Paging.totalPages, pageCount]
  push_cast
  simp only [← Int.natCast_mod, ne_eq, Int.natCast_eq_zero]

theorem totalPages_lt_iff (ok : Corrected page perPage) (len : Nat) :
    Paging.totalPages len perPage < page ↔ len ≤ offset page perPage := by
  obtain ⟨k, rfl⟩ := Int.eq_ofNat_of_zero_le (show 0 ≤ perPage by have := ok.perPage_pos; omega)
  obtain ⟨i, earlier⟩ := Int.eq_ofNat_of_zero_le (show 0 ≤ page - 1 by have := ok.page_pos; omega)
  have positive : 0 < k := by have := ok.perPage_pos; omega
  have inside := lt_pageCount_iff (n := len) (i := i) positive
  rw [offset, totalPages_eq, earlier, ← Int.natCast_mul, Int.ofNat_le, ← not_lt, ← inside]
  omega

inductive Cut (s : List α) (page perPage : Int) : Except Fault (List α) → Prop
  | behind (after : s.length ≤ toInt64 (offset page perPage)) : Cut s page perPage (.ok [])
  | shown (start : Nat) (start_eq : toInt64 (offset page perPage) = start) (inside : start < s.length)
      (fits : start + perPage < 2 ^ 63) :
      Cut s page perPage (.ok ((s.drop start).take perPage.toNat))
  | fails (fault : Fault) (before : toInt64 (offset page perPage) < s.length)
      (outside : toInt64 (offset page perPage) < 0 ∨
        2 ^ 63 ≤ toInt64 (offset page perPage) + perPage) :
      Cut s page perPage (.error fault)

theorem sliceBetween_eq_error (outside : start < 0 ∨ stop < start) :
    sliceBetween s start stop = .error (.panic "slice bounds out of range") :=
  if_neg (by omega)

theorem sliceBetween_start (positive : 1 ≤ perPage) {start : Nat} (inside : start < s.length) :
    sliceBetween s start (min (start + perPage) s.length) =
      .ok ((s.drop start).take perPage.toNat) := by
  rw [sliceBetween, if_pos (by omega), Int.toNat_natCast, List.drop_take]
  congr 1
  rcases Int.le_total (start + perPage) s.length with short | long
  · rw [min_eq_left short]
    congr 1
    omega
  · rw [min_eq_right long, List.take_of_length_le (by simp), List.take_of_length_le (by simp; omega)]

section
variable (ok : Corrected page perPage)
include ok

theorem cut_of_bounds (between : Int → Int → Except Fault (List α))
    (shows : ∀ start stop, 0 ≤ start → start ≤ stop → stop ≤ start + 100 →
      between start stop = sliceBetween s start stop)
    (fails : ∀ start stop, start < 0 ∨ stop < start → ∃ fault, between start stop = .error fault) :
    Cut s page perPage
      ((Paging.bounds s.length page perPage).elim (.ok []) fun b => between b.1 b.2) := by
  have positive := ok.perPage_pos
  have small := ok.perPage_le
  have below := toInt64_le (offset page perPage)
  have unfolds : Paging.bounds s.length page perPage =
      if toInt64 (offset page perPage) ≥ s.length then none
      else some (toInt64 (offset page perPage),
        if toInt64 (toInt64 (offset page perPage) + perPage) > s.length then (s.length : Int)
        else toInt64 (toInt64 (offset page perPage) + perPage)) := rfl
  rw [unfolds]
  by_cases behind : (s.length : Int) ≤ toInt64 (offset page perPage)
  · rw [if_pos behind, Option.elim_none]
    exact .behind behind
  rw [if_neg behind, Option.elim_some]
  by_cases negative : toInt64 (offset page perPage) < 0
  · obtain ⟨fault, failed⟩ := fails _ _ (.inl negative)
    rw [failed]
    exact .fails fault (not_le.mp behind) (.inl negative)
  obtain ⟨start, start_eq⟩ := Int.eq_ofNat_of_zero_le (not_lt.mp negative)
  by_cases fits : start + perPage < 2 ^ 63
  · have stop : (if toInt64 (start + perPage) > s.length then (s.length : Int)
        else toInt64 (start + perPage)) = min (start + perPage) s.length := by
      rw [toInt64_eq_self (by omega) fits]
      split_ifs <;> omega
    rw [start_eq, stop, shows _ _ (by omega) (by omega) (by omega),
      sliceBetween_start positive (by omega)]
    exact .shown start start_eq (by omega) fits
  · have wrapped : toInt64 (start + perPage) = start + perPage - 2 ^ 64 := by
      rw [toInt64, Int.bmod_def, if_neg (by omega), Int.emod_eq_of_lt (by omega) (by omega)]
      rfl
    obtain ⟨fault, failed⟩ := fails start (start + perPage - 2 ^ 64) (.inr (by omega))
    rw [start_eq, wrapped, if_neg (by omega), failed]
    exact .fails fault (not_le.mp behind) (.inr (by omega))

theorem cut_sliced (s : List α) : Cut s page perPage (Paging.sliced s page perPage) := by
  have cut := cut_of_bounds ok (sliceBetween s) (fun start stop _ _ _ => rfl)
    fun start stop outside => ⟨_, sliceBetween_eq_error outside⟩
  rw [Paging.sliced]
  cases bounds : Paging.bounds s.length page perPage with
  | none | some => rwa [bounds] at cut

theorem cut_copied (s : List α) : Cut s page perPage (Paging.copied s page perPage) := by
  have cut := cut_of_bounds (s := s) ok
    (fun start stop =>
      if toInt64 (stop - start) < 0 then .error (.panic "makeslice: len out of range")
      else sliceBetween s start stop)
    (fun start stop low between short => if_neg (by
      rw [toInt64_eq_self (by omega) (by omega)]
      omega))
    (fun start stop outside => by
      split_ifs
      · exact ⟨_, rfl⟩
      · exact ⟨_, sliceBetween_eq_error outside⟩)
  rw [Paging.copied]
  cases bounds : Paging.bounds s.length page perPage with
  | none | some => rwa [bounds] at cut

theorem Cut.safe_iff (cut : Cut s page perPage result) :
    (∃ shown, result = .ok shown ∧ (Paging.totalPages s.length perPage < page → shown = [])) ↔
      InRange s.length page perPage := by
  have positive := ok.perPage_pos
  rw [totalPages_lt_iff ok, InRange]
  cases cut with
  | behind after => exact iff_of_true ⟨[], rfl, fun _ => rfl⟩ (.inl after)
  | shown start start_eq inside fits =>
    have nonempty : (s.drop start).take perPage.toNat ≠ [] := by
      rw [ne_eq, List.take_eq_nil_iff, List.drop_eq_nil_iff]
      omega
    constructor
    · rintro ⟨shown, same, beyond⟩
      obtain rfl := Except.ok.inj same
      exact .inr ⟨by omega, by omega, not_le.mp fun after => nonempty (beyond after)⟩
    · rintro (after | ⟨-, -, before⟩)
      · omega
      · exact ⟨_, rfl, fun after => absurd before (not_lt.mpr after)⟩
  | fails fault before outside =>
    refine iff_of_false ?_ (by omega)
    rintro ⟨shown, same, -⟩
    cases same

end

theorem Cut.eq_page {i k : Nat} (cut : Cut s (i + 1) k result) (fits : i * k + k < 2 ^ 63) :
    result = .ok (Library.page k s i) := by
  have start_eq : toInt64 (offset (i + 1) k) = (i * k : Nat) := by
    rw [offset, Int.add_sub_cancel, ← Int.natCast_mul]
    exact toInt64_eq_self (by omega) (by omega)
  cases cut with
  | behind after => rw [Library.page, List.drop_of_length_le (by omega), List.take_nil]
  | shown start same _ _ =>
    obtain rfl : start = i * k := by omega
    rfl
  | fails fault before outside => omega

end NexusPipe.Proof.Paging
