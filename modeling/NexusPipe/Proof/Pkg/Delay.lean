import Mathlib.Data.Nat.Fib.Basic
import NexusPipe.Pkg.Retry
import NexusPipe.Proof.Go

namespace NexusPipe.Proof.Pkg.Delay
open NexusPipe.Pkg.Retry

variable {V E : Type}

def growth (strategy attempt : Int) : Int :=
  if strategy = strategyExponential then 2 ^ (attempt - 1).toNat
  else if strategy = strategyFibonacci then Nat.fib attempt.toNat
  else attempt

def total (config : Config E) (attempt : Int) : Int :=
  min (toInt64 (growth config.Strategy attempt * config.BaseDelay)) config.MaxDelay +
    (toInt64 (config.Jitter * attempt)).tmod (config.Jitter + 1)

section
theorem growth_pos (strategy : Int) (first : 1 ≤ attempt) : 0 < growth strategy attempt := by
  unfold growth
  split_ifs
  · exact Int.pow_pos (by decide)
  · exact Int.natCast_pos.mpr (Nat.fib_pos.mpr (by omega))
  · omega

theorem fib_small (small : k ≤ 63) : (Nat.fib k : Int) < 2 ^ 63 := by
  have last : Nat.fib 63 < 2 ^ 63 := by decide
  have more := Nat.fib_mono small
  omega

theorem iterate_fib (small : k + 2 ≤ 63) :
    (fun pair : Int × Int => (pair.2, toInt64 (pair.1 + pair.2)))^[k] (1, 1) =
      ((Nat.fib (k + 1) : Int), (Nat.fib (k + 2) : Int)) := by
  induction k with
  | zero => rfl
  | succ k ih =>
    have next : Nat.fib (k + 1 + 2) = Nat.fib (k + 1) + Nat.fib (k + 2) := Nat.fib_add_two
    have fits := fib_small small
    rw [Function.iterate_succ_apply', ih (by omega), toInt64_eq_self (by omega) (by omega)]
    refine Prod.ext rfl ?_
    dsimp only
    omega

theorem fibonacciDelay_eq (base : Int) (first : 1 ≤ attempt) (small : attempt ≤ 63) :
    fibonacciDelay attempt base = toInt64 (Nat.fib attempt.toNat * base) := by
  rw [fibonacciDelay, iterate_fib (by omega)]
  rcases Int.lt_or_le attempt 2 with one | more
  · obtain rfl : attempt = 1 := by omega
    rfl
  · rw [show (attempt - 2).toNat + 2 = attempt.toNat by omega]

end

section
variable {r : Retryer V E}

theorem delay_eq (cap : 0 < r.config.MaxDelay) (jitter : 0 ≤ r.config.Jitter)
    (room : r.config.MaxDelay + r.config.Jitter < 2 ^ 63) (first : 1 ≤ attempt)
    (fits : (2 : Int) ^ (attempt - 1).toNat < 2 ^ 63) :
    r.delay machine attempt = toInt64 (total r.config attempt) := by
  have small := (pow_lt_iff (by omega)).mp fits
  have capped (d : Int) : (if r.config.MaxDelay > 0 ∧ d > r.config.MaxDelay then
      r.config.MaxDelay else d) = min d r.config.MaxDelay := by
    split_ifs <;> omega
  have product : (if r.config.Strategy = strategyExponential then
      toInt64 ((machine.convert (powTwo (toInt64 (attempt - 1)))).toInt * r.config.BaseDelay)
      else if r.config.Strategy = strategyFibonacci then fibonacciDelay attempt r.config.BaseDelay
      else toInt64 (attempt * r.config.BaseDelay)) =
      toInt64 (growth r.config.Strategy attempt * r.config.BaseDelay) := by
    unfold growth
    split_ifs
    · rw [toInt64_eq_self (i := attempt - 1) (by omega) (by omega),
        convert_powTwo machine (by omega) fits]
    · exact fibonacciDelay_eq _ first (by omega)
    · rfl
  rw [Retryer.delay, product, capped, total]
  split_ifs with some
  · rw [toInt64_eq_self (i := r.config.Jitter + 1) (by omega) (by omega)]
  · have none : r.config.Jitter = 0 := by omega
    have least := le_toInt64 (growth r.config.Strategy attempt * r.config.BaseDelay)
    rw [none, Int.zero_mul, Int.zero_add, Int.tmod_one, Int.add_zero]
    exact (toInt64_eq_self (by omega) (by omega)).symm

theorem total_bounds {config : Config E} (cap : 0 < config.MaxDelay) (jitter : 0 ≤ config.Jitter) :
    -2 ^ 63 - config.Jitter ≤ total config attempt ∧
      total config attempt ≤ config.MaxDelay + config.Jitter := by
  have least := le_toInt64 (growth config.Strategy attempt * config.BaseDelay)
  have low := Int.lt_tmod_of_pos (toInt64 (config.Jitter * attempt)) (b := config.Jitter + 1)
    (by omega)
  have high := Int.tmod_lt_of_pos (toInt64 (config.Jitter * attempt)) (b := config.Jitter + 1)
    (by omega)
  unfold total
  omega

theorem total_pos {config : Config E} (base : 0 < config.BaseDelay) (cap : 0 < config.MaxDelay)
    (jitter : 0 ≤ config.Jitter) (first : 1 ≤ attempt)
    (delays : growth config.Strategy attempt * config.BaseDelay < 2 ^ 63)
    (jitters : config.Jitter * attempt < 2 ^ 63) : 0 < total config attempt := by
  have product := Int.mul_pos (growth_pos config.Strategy first) base
  have nonneg := Int.mul_nonneg jitter (show 0 ≤ attempt by omega)
  have rest := Int.tmod_nonneg (config.Jitter + 1) nonneg
  rw [total, toInt64_eq_self (by omega) delays, toInt64_eq_self (by omega) jitters]
  omega

end

theorem new_positive (config : Config E) :
    0 < (new (V := V) config).config.BaseDelay ∧ 0 < (new (V := V) config).config.MaxDelay := by
  simp only [new, millisecond, nanosecond, second]
  constructor
  · split_ifs <;> omega
  · split_ifs <;> omega

/-- The delay is positive exactly if the sum is, or if it is so far below zero that it comes round
into the range. Without a wrap-around in the two products it is positive. -/
theorem delay_in_bounds_iff (machine : Conversion) (config : Config E) (attempt : Int)
    (jitter : 0 ≤ config.Jitter)
    (room : (new (V := V) config).config.MaxDelay + config.Jitter < 2 ^ 63) (first : 1 ≤ attempt)
    (fits : (2 : Int) ^ (attempt - 1).toNat < 2 ^ 63) :
    let r : Retryer V E := new config
    (0 < r.delay machine attempt ∧
        r.delay machine attempt ≤ r.config.MaxDelay + r.config.Jitter ↔
      0 < total r.config attempt ∨
        total r.config attempt + 2 ^ 64 ≤ r.config.MaxDelay + r.config.Jitter) ∧
    (growth r.config.Strategy attempt * r.config.BaseDelay < 2 ^ 63 →
      r.config.Jitter * attempt < 2 ^ 63 → 0 < total r.config attempt) := by
  intro r
  obtain ⟨base, cap⟩ : 0 < r.config.BaseDelay ∧ 0 < r.config.MaxDelay := new_positive config
  have jitter : 0 ≤ r.config.Jitter := jitter
  have room : r.config.MaxDelay + r.config.Jitter < 2 ^ 63 := room
  constructor
  · have bounds : -2 ^ 63 - r.config.Jitter ≤ total r.config attempt ∧ _ := total_bounds cap jitter
    rw [delay_eq cap jitter room first fits, toInt64, Int.bmod_def]
    split <;> omega
  · exact total_pos base cap jitter first

def jittered : Config Unit where
  MaxAttempts := 0
  BaseDelay := 0
  MaxDelay := 0
  Strategy := strategyFibonacci
  Jitter := 10 * millisecond
  RetryableErr := none

theorem jittered_in_bounds :
    let r : Retryer Unit Unit := new jittered
    0 < r.delay wrapping 12 ∧ r.delay wrapping 12 ≤ r.config.MaxDelay + r.config.Jitter := by
  obtain ⟨bounds, unwrapped⟩ := delay_in_bounds_iff (V := Unit) wrapping jittered 12 (by decide)
    (by decide) (by decide) (by decide)
  exact bounds.mpr (.inl (unwrapped (by decide) (by decide)))

def patient : Config Unit :=
  { jittered with MaxAttempts := 40, Strategy := strategyExponential, Jitter := 0 }

theorem patient_delay_negative :
    let r : Retryer Unit Unit := new patient
    38 ≤ r.config.MaxAttempts ∧ r.config.MaxDelay = 30 * second ∧
      r.delay wrapping 38 = -4702848726509551616 := by
  refine ⟨by decide, by decide, ?_⟩
  exact delay_eq (by decide) (by decide) (by decide) (by decide) (by decide)

end NexusPipe.Proof.Pkg.Delay
