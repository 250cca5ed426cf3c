import NexusPipe.Proof.Go
import NexusPipe.Retry.Exponential

namespace NexusPipe.Proof.Retry.Delay
open NexusPipe.Retry

def factor : Strategy → Int → Int
  | .fixed, _ => 1
  | .linear, attempt => attempt
  | .exponential, attempt | .exponentialWithJitter, attempt => 2 ^ (attempt - 1).toNat

theorem factor_first (strategy : Strategy) : factor strategy 1 = 1 := by
  cases strategy <;> rfl

theorem factor_grows (strategy : Strategy) (first : 1 ≤ attempt) :
    factor strategy attempt ≤ factor strategy (attempt + 1) ∧
      factor strategy (attempt + 1) ≤ 2 * factor strategy attempt := by
  have power : (2 : Int) ^ (attempt + 1 - 1).toNat = 2 * 2 ^ (attempt - 1).toNat := by
    rw [show (attempt + 1 - 1).toNat = (attempt - 1).toNat + 1 by omega, Int.pow_succ, Int.mul_comm]
  have positive : (0 : Int) < 2 ^ (attempt - 1).toNat := Int.pow_pos (by decide)
  cases strategy <;> simp only [factor] <;> omega

section
variable {cfg : Config}

theorem exponentialDelay_eq (first : 1 ≤ attempt)
    (fits : (2 : Int) ^ (attempt - 1).toNat < 2 ^ 63) : exponentialDelay machine cfg attempt =
      toInt64 (cfg.BaseDelay * 2 ^ (attempt - 1).toNat) := by
  have natural : 0 ≤ attempt - 1 := by omega
  have small := (pow_lt_iff natural).mp fits
  rw [exponentialDelay, toInt64_eq_self (i := attempt - 1) (by omega) (by omega),
    convert_powTwo machine natural fits]

theorem calculateDelay_eq (plain : cfg.Strategy ≠ .exponentialWithJitter)
    (positive : 0 < cfg.BaseDelay) (base : cfg.BaseDelay < 2 ^ 63) (cap : 0 < cfg.MaxDelay)
    (first : 1 ≤ attempt) (fits : (2 : Int) ^ (attempt - 1).toNat < 2 ^ 63) :
    calculateDelay machine cfg random attempt =
      min (toInt64 (cfg.BaseDelay * factor cfg.Strategy attempt)) cfg.MaxDelay := by
  have capped (d : Int) :
      (if cfg.MaxDelay > 0 ∧ d > cfg.MaxDelay then cfg.MaxDelay else d) = min d cfg.MaxDelay := by
    split_ifs <;> omega
  rw [calculateDelay, capped]
  congr 1
  cases strategy : cfg.Strategy with
  | fixed => rw [factor, Int.mul_one, toInt64_eq_self (by omega) base]
  | linear => rfl
  | exponential => exact exponentialDelay_eq first fits
  | exponentialWithJitter => exact absurd strategy plain

end

structure Grows (delay : Int → Int) (max last : Int) : Prop where
  positive : ∀ attempt, 1 ≤ attempt → attempt ≤ last → 0 < delay attempt
  capped : ∀ attempt, 1 ≤ attempt → attempt ≤ last → delay attempt ≤ max
  ordered : ∀ attempt next, 1 ≤ attempt → attempt ≤ next → next ≤ last → delay attempt ≤ delay next

theorem calculateDelay_grows_iff (machine : Conversion) (cfg : Config) (random : Int → Float64)
    (last : Int) (plain : cfg.Strategy ≠ .exponentialWithJitter) (positive : 0 < cfg.BaseDelay)
    (base : cfg.BaseDelay < 2 ^ 63) (cap : 0 < cfg.MaxDelay) (first : 1 ≤ last)
    (fits : (2 : Int) ^ (last - 1).toNat < 2 ^ 63) :
    Grows (fun attempt => calculateDelay machine cfg (random attempt) attempt) cfg.MaxDelay last ↔
      cfg.BaseDelay * factor cfg.Strategy last < 2 ^ 63 := by
  have grows (attempt : Int) (first : 1 ≤ attempt) :
      cfg.BaseDelay * factor cfg.Strategy attempt ≤
          cfg.BaseDelay * factor cfg.Strategy (attempt + 1) ∧
        cfg.BaseDelay * factor cfg.Strategy (attempt + 1) ≤
          2 * (cfg.BaseDelay * factor cfg.Strategy attempt) := by
    obtain ⟨more, double⟩ := factor_grows cfg.Strategy first
    constructor
    · exact Int.mul_le_mul_of_nonneg_left more positive.le
    · rw [Int.mul_left_comm]
      exact Int.mul_le_mul_of_nonneg_left double positive.le
  have single : cfg.BaseDelay * factor cfg.Strategy 1 = cfg.BaseDelay := by
    rw [factor_first, Int.mul_one]
  have least : 0 < cfg.BaseDelay * factor cfg.Strategy 1 := by
    rw [single]
    exact positive
  have most : cfg.BaseDelay * factor cfg.Strategy 1 < 2 ^ 63 := by
    rw [single]
    exact base
  have delay (attempt : Int) (one : 1 ≤ attempt) (within : attempt ≤ last) :
      calculateDelay machine cfg (random attempt) attempt =
        min (toInt64 (cfg.BaseDelay * factor cfg.Strategy attempt)) cfg.MaxDelay := by
    refine calculateDelay_eq plain positive base cap one ((pow_lt_iff (by omega)).mpr ?_)
    have := (pow_lt_iff (by omega)).mp fits
    omega
  constructor
  · intro law
    apply (toInt64_pos_iff_last grows least most first).mp
    intro attempt one within
    have small := law.positive attempt one within
    rw [delay attempt one within] at small
    exact (lt_min_iff.mp small).1
  · intro below
    have all := (toInt64_pos_iff_last grows least most first).mpr below
    refine ⟨fun attempt one within => ?_, fun attempt one within => ?_,
      fun attempt next one later within => ?_⟩
    · rw [delay attempt one within]
      exact lt_min (all attempt one within) cap
    · rw [delay attempt one within]
      exact min_le_right _ _
    · rw [delay attempt one (later.trans within), delay next (one.trans later) within]
      rw [toInt64_of_grows grows least below one (later.trans within),
        toInt64_of_grows grows least below (one.trans later) within]
      exact min_le_min_right _ (le_of_grows grows one later)

theorem calculateDelay_grows_default :
    Grows (fun attempt => calculateDelay wrapping defaultConfig (.finite 0) attempt)
      defaultConfig.MaxDelay 37 :=
  (calculateDelay_grows_iff wrapping defaultConfig (fun _ => .finite 0) 37 (by decide) (by decide)
    (by decide) (by decide) (by decide) (by decide)).mpr (by decide)

theorem delay_negative_after_cap :
    calculateDelay wrapping defaultConfig (.finite 0) 37 = 30 * second ∧
      calculateDelay wrapping defaultConfig (.finite 0) 38 = -4702848726509551616 := by
  have delay (attempt : Int) (first : 1 ≤ attempt)
      (fits : (2 : Int) ^ (attempt - 1).toNat < 2 ^ 63) :
      calculateDelay wrapping defaultConfig (.finite 0) attempt = _ :=
    calculateDelay_eq (by decide) (by decide) (by decide) (by decide) first fits
  exact ⟨delay 37 (by decide) (by decide), delay 38 (by decide) (by decide)⟩

end NexusPipe.Proof.Retry.Delay
