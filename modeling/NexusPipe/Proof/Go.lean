import NexusPipe.Go

namespace NexusPipe.Proof

theorem toInt64_le (i : Int) : toInt64 i ≤ 2 ^ 63 - 1 :=
  Int.le_sub_one_of_lt (Int.bmod_lt (by decide))

theorem le_toInt64 (i : Int) : -2 ^ 63 ≤ toInt64 i := Int.le_bmod (by decide)

theorem toInt64_eq_self (low : -2 ^ 63 ≤ i) (high : i < 2 ^ 63) : toInt64 i = i :=
  Int.bmod_eq_of_le (by omega) (by omega)

theorem toInt64_le_self (nonneg : 0 ≤ i) : toInt64 i ≤ i := by
  rw [toInt64, Int.bmod_def]
  split <;> omega

theorem toInt64_pos_iff (positive : 0 < i) (below : i < 2 ^ 64) : 0 < toInt64 i ↔ i < 2 ^ 63 := by
  rw [toInt64, Int.bmod_def]
  split <;> omega

section
variable {f : Int → Int}
  (grows : ∀ attempt, 1 ≤ attempt → f attempt ≤ f (attempt + 1) ∧ f (attempt + 1) ≤ 2 * f attempt)
include grows

theorem le_of_grows (first : 1 ≤ attempt) (later : attempt ≤ next) : f attempt ≤ f next := by
  induction next, later using Int.leInduction with
  | base => exact le_refl _
  | succ next later ih => exact ih.trans (grows next (first.trans later)).1

variable (positive : 0 < f 1)
include positive

theorem toInt64_of_grows (below : f last < 2 ^ 63) (first : 1 ≤ attempt) (within : attempt ≤ last) :
    toInt64 (f attempt) = f attempt := by
  have least := le_of_grows grows (le_refl 1) first
  have most := le_of_grows grows first within
  exact toInt64_eq_self (by omega) (by omega)

theorem toInt64_pos_iff_last (fits : f 1 < 2 ^ 63) (some : 1 ≤ last) :
    (∀ attempt, 1 ≤ attempt → attempt ≤ last → 0 < toInt64 (f attempt)) ↔ f last < 2 ^ 63 := by
  constructor
  · intro all
    induction last, some using Int.leInduction with
    | base => exact fits
    | succ last some ih =>
      have below := ih fun attempt first within => all attempt first (by omega)
      have least := le_of_grows grows (le_refl 1) some
      obtain ⟨more, double⟩ := grows last some
      exact (toInt64_pos_iff (by omega) (by omega)).mp (all (last + 1) (by omega) (le_refl _))
  · intro below attempt first within
    rw [toInt64_of_grows grows positive below first within]
    exact positive.trans_le (le_of_grows grows (le_refl 1) first)

end

theorem pow_lt_iff {n : Int} (natural : 0 ≤ n) : (2 : Int) ^ n.toNat < 2 ^ 63 ↔ n < 63 := by
  have exponents := Nat.pow_lt_pow_iff_right (a := 2) (n := n.toNat) (m := 63) (by decide)
  have cast : ((2 ^ n.toNat : Nat) : Int) = 2 ^ n.toNat := Int.natCast_pow 2 _
  omega

theorem convert_powTwo (machine : Conversion) {n : Int} (natural : 0 ≤ n)
    (fits : (2 : Int) ^ n.toNat < 2 ^ 63) : (machine.convert (powTwo n)).toInt = 2 ^ n.toNat := by
  have small := (pow_lt_iff natural).mp fits
  obtain ⟨k, rfl⟩ := Int.eq_ofNat_of_zero_le natural
  have value : truncate (pow2 k) = 2 ^ k := by
    simp [truncate, pow2]
  have least : (0 : Int) < 2 ^ k := Int.pow_pos (by decide)
  rw [Int.toNat_natCast] at fits ⊢
  rw [powTwo, if_neg (by omega), if_pos (by omega), machine.truncates _ (by omega) (by omega), value,
    Int64.toInt_ofInt]
  exact toInt64_eq_self (by omega) fits

/-- A value that does not fit becomes the least integer, as on an x86 processor. -/
def wrapping : Conversion where
  convert
    | .finite q =>
      if -2 ^ 63 ≤ truncate q ∧ truncate q < 2 ^ 63 then .ofInt (truncate q) else .minValue
    | _ => .minValue
  truncates _ low high := if_pos ⟨low, high⟩

end NexusPipe.Proof
