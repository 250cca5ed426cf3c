import NexusPipe.Proof.Go
import NexusPipe.Queue.RabbitMQ

namespace NexusPipe.Proof.Queue
open NexusPipe.Queue

def doubled (base attempt : Int) : Int := base * 2 ^ (min (attempt - 1) 30).toNat

theorem doubled_grows (positive : 0 < base) (first : 1 ≤ attempt) :
    doubled base attempt ≤ doubled base (attempt + 1) ∧
      doubled base (attempt + 1) ≤ 2 * doubled base attempt := by
  have least : 0 < doubled base attempt := Int.mul_pos positive (Int.pow_pos (by decide))
  by_cases below : attempt ≤ 30
  · have next : doubled base (attempt + 1) = 2 * doubled base attempt := by
      have shift : (min (attempt + 1 - 1) 30).toNat = (min (attempt - 1) 30).toNat + 1 := by omega
      rw [doubled, doubled, shift, Int.pow_succ, ← Int.mul_assoc, Int.mul_comm]
    omega
  · have next : doubled base (attempt + 1) = doubled base attempt := by
      have shift : (min (attempt + 1 - 1) 30).toNat = (min (attempt - 1) 30).toNat := by omega
      rw [doubled, doubled, shift]
    omega

theorem randInt64_quarter (clock : 0 ≤ now) (long : millisecond < d) :
    ∃ jitter, randInt64 now (d.tdiv 4) = .ok jitter ∧ 0 ≤ jitter ∧ jitter < d / 4 := by
  have quarter : 0 < d / 4 := by
    unfold millisecond nanosecond at long
    omega
  rw [Int.tdiv_eq_ediv_of_nonneg (by omega), randInt64, if_neg (by omega)]
  exact ⟨_, rfl, Int.tmod_nonneg _ clock, Int.tmod_lt_of_pos _ quarter⟩

theorem calculateBackoff_returns (base : Int) {max : Int} (clock : 0 ≤ now) (first : 1 ≤ attempt)
    (fits : attempt < 2 ^ 63) (cap : 0 < max) (room : max + max / 4 < 2 ^ 63) :
    ∃ delay, calculateBackoff now attempt base max = .ok delay ∧ delay ≤ max + max / 4 ∧
      (0 < delay ↔ 0 < toInt64 (doubled base attempt)) := by
  have shift : toInt64 (attempt - 1) = attempt - 1 := toInt64_eq_self (by omega) (by omega)
  rw [calculateBackoff, shift, if_neg (by omega), ← doubled]
  generalize toInt64 (doubled base attempt) = product
  obtain ⟨d, capped, most, sign⟩ : ∃ d, (if product > max then max else product) = d ∧ d ≤ max ∧
      (0 < d ↔ 0 < product) := ⟨_, rfl, by split_ifs <;> omega, by split_ifs <;> omega⟩
  simp only [capped, ← sign]
  by_cases long : millisecond < d
  · obtain ⟨jitter, drawn, least, less⟩ := randInt64_quarter clock long
    rw [if_pos long, drawn]
    refine ⟨toInt64 (d + jitter), rfl, ?_⟩
    unfold millisecond nanosecond at long
    rw [toInt64_eq_self (by omega) (by omega)]
    omega
  · exact ⟨d, if_neg long, by omega, Iff.rfl⟩

theorem calculateBackoff_in_range_iff (base max last : Int) (positive : 0 < base)
    (fits : base < 2 ^ 63) (cap : 0 < max) (room : max + max / 4 < 2 ^ 63) (first : 1 ≤ last)
    (representable : last < 2 ^ 63) : (∀ now attempt, 0 ≤ now → 1 ≤ attempt → attempt ≤ last →
      ∃ delay, calculateBackoff now attempt base max = .ok delay ∧ delay ≤ max + max / 4) ∧
    ((∀ now attempt delay, 0 ≤ now → 1 ≤ attempt → attempt ≤ last →
        calculateBackoff now attempt base max = .ok delay → 0 < delay) ↔
      base * 2 ^ (min (last - 1) 30).toNat < 2 ^ 63) := by
  have single : doubled base 1 = base := Int.mul_one base
  have wraps := toInt64_pos_iff_last (f := doubled base)
    (fun attempt first => doubled_grows positive first) (by omega) (by omega) first
  constructor
  · intro now attempt clock one within
    obtain ⟨delay, returned, bound, -⟩ := calculateBackoff_returns base clock one
      (within.trans_lt representable) cap room
    exact ⟨delay, returned, bound⟩
  · rw [← doubled, ← wraps]
    constructor
    · intro delays attempt one within
      obtain ⟨delay, returned, -, sign⟩ := calculateBackoff_returns base (le_refl 0) one
        (within.trans_lt representable) cap room
      exact sign.mp (delays 0 attempt delay (le_refl 0) one within returned)
    · intro products now attempt delay clock one within returned
      obtain ⟨delay', returned', -, sign⟩ := calculateBackoff_returns base clock one
        (within.trans_lt representable) cap room
      cases returned.symm.trans returned'
      exact sign.mpr (products attempt one within)

theorem calculateBackoff_in_range_default : 0 < defaultConfig.ReconnectBase ∧
    ∀ now attempt delay, 0 ≤ now → 1 ≤ attempt → attempt ≤ 1000 →
      calculateBackoff now attempt defaultConfig.ReconnectBase defaultConfig.ReconnectMax =
        .ok delay → 0 < delay :=
  ⟨by decide, (calculateBackoff_in_range_iff defaultConfig.ReconnectBase defaultConfig.ReconnectMax
    1000 (by decide) (by decide) (by decide) (by decide) (by decide) (by decide)).2.mpr (by decide)⟩

theorem backoff_negative :
    calculateBackoff 0 31 (10 * second) (60 * second) = .ok (-7709325833709551616) := by
  rfl

end NexusPipe.Proof.Queue
