import NexusPipe.Proof.Go
import NexusPipe.Proof.Pkg.Retry

namespace NexusPipe.Proof.Pkg.Attempts
open Library NexusPipe.Pkg.Retry Proof.Pkg.Retry

variable {V E : Type} {config : Config E} {call : DoCall V E} {k n fuel : Nat}

def invocations (config : Config E) (call : DoCall V E) : Nat → LoopState E → List Int
  | 0, _ => []
  | fuel + 1, s =>
    (if s.attempt ≤ config.MaxAttempts ∧ call.checked s.attempt = none then [s.attempt] else []) ++
      (nextRound config call s).elim (invocations config call fuel) fun _ => []

structure GoesOn (config : Config E) (call : DoCall V E) (attempt : Int) : Prop where
  failed : ∃ err, call.outcome attempt = .error err ∧ config.retryable err = true
  live : attempt < config.MaxAttempts → call.waited attempt = none

def Succeeds (call : DoCall V E) (n : Nat) : Prop := 0 < n ∧ ∃ v, call.outcome n = .ok v

def EndsAfter (call : DoCall V E) (n : Nat) : LoopEnd V E → Prop
  | .canceled _ attempts | .failed _ attempts => attempts = n ∧ ¬ Succeeds call n
  | .succeeded val attempts => attempts = n ∧ 0 < n ∧ call.outcome n = .ok val

def attemptsUpTo (first n : Nat) : List Int := (List.range' first n).map Int.ofNat

theorem waited_of_again (next : nextRound config call s = .inl s')
    (more : s.attempt < config.MaxAttempts) : call.waited s.attempt = none := by
  unfold nextRound at next
  rw [if_pos more.le] at next
  split at next
  · cases next
  · split at next
    · cases next
    · dsimp only at next
      rw [if_pos more] at next
      split_ifs at next
      split at next
      · cases next
      · assumption

structure Finishes (config : Config E) (call : DoCall V E) (fuel : Nat) (lastErr : Option E)
    (k n : Nat) (ending : LoopEnd V E) : Prop where
  later : k ≤ n
  bounded : n ≤ config.MaxAttempts
  returned : loopFor (nextRound config call) fuel ⟨k + 1, k, lastErr⟩ = some ending
  invoked : invocations config call fuel ⟨k + 1, k, lastErr⟩ = attemptsUpTo (k + 1) (n - k)
  ends : EndsAfter call n ending
  goesOn : ∀ i : Nat, k < i → i < n → GoesOn config call i
  checked : ∀ i : Nat, k < i → i ≤ n → call.checked i = none

theorem finishes_before (few : k ≤ config.MaxAttempts)
    (round : nextRound config call ⟨k + 1, k, lastErr⟩ = .inr ending)
    (silent : ¬ ((k + 1 : Int) ≤ config.MaxAttempts ∧ call.checked (k + 1) = none))
    (ends : EndsAfter call k ending) :
    Finishes config call (fuel + 1) lastErr k k ending where
  later := le_refl k
  bounded := few
  returned := loopFor_inr round fuel
  invoked := by
    rw [invocations, if_neg silent, round, Nat.sub_self]
    rfl
  ends := ends
  goesOn i above below := by omega
  checked i above below := by omega

theorem finishes_after (more : (k + 1 : Int) ≤ config.MaxAttempts)
    (live : call.checked (k + 1) = none)
    (round : nextRound config call ⟨k + 1, k, lastErr⟩ = .inr ending)
    (ends : EndsAfter call (k + 1) ending) :
    Finishes config call (fuel + 1) lastErr k (k + 1) ending where
  later := Nat.le_succ k
  bounded := by omega
  returned := loopFor_inr round fuel
  invoked := by simp [invocations, round, more, live, attemptsUpTo]
  ends := ends
  goesOn i above below := by omega
  checked i above below := by
    obtain rfl : i = k + 1 := by omega
    exact_mod_cast live

theorem loop_finishes (fits : config.MaxAttempts < 2 ^ 63 - 1) (few : k ≤ config.MaxAttempts)
    (entered : ¬ Succeeds call k) (lastErr : Option E) (enough : config.MaxAttempts - k < fuel) :
    ∃ n ending, Finishes config call fuel lastErr k n ending := by
  induction fuel generalizing k lastErr with
  | zero => omega
  | succ fuel ih =>
    have rounded := nextRound_cases config call ⟨k + 1, k, lastErr⟩
    generalize round : nextRound config call ⟨k + 1, k, lastErr⟩ = result at rounded
    cases rounded with
    | checked more done =>
      exact ⟨k, _, finishes_before few round (fun both => by simp [done] at both) ⟨rfl, entered⟩⟩
    | exhausted last =>
      exact ⟨k, _, finishes_before few round (fun both => by dsimp only at last; omega) ⟨rfl, entered⟩⟩
    | succeeded more live outcome =>
      exact ⟨k + 1, _, finishes_after more live round ⟨rfl, Nat.succ_pos k, outcome⟩⟩
    | permanent more live outcome =>
      exact ⟨k + 1, _, finishes_after more live round ⟨rfl, by simp [Succeeds, outcome]⟩⟩
    | waited more live outcome =>
      exact ⟨k + 1, _, finishes_after more.le live round ⟨rfl, by simp [Succeeds, outcome]⟩⟩
    | @again err more live outcome retryable =>
      dsimp only at more live outcome round
      have advanced : toInt64 (k + 1 + 1) = k + 1 + 1 := toInt64_eq_self (by omega) (by omega)
      rw [advanced] at round
      obtain ⟨n, ending, rest⟩ := ih (k := k + 1) (by omega) (by simp [Succeeds, outcome]) (some err)
        (by omega)
      have later := rest.later
      refine ⟨n, ending, by omega, rest.bounded, ?_, ?_, rest.ends, fun i above below => ?_,
        fun i above below => ?_⟩
      · rw [loopFor_inl round]
        exact_mod_cast rest.returned
      · have invoked := rest.invoked
        push_cast at invoked
        have count : n - k = n - (k + 1) + 1 := by omega
        simp [invocations, round, more, live, invoked, attemptsUpTo, count, List.range'_succ]
      · rcases Nat.eq_or_lt_of_le above with rfl | above
        · refine ⟨⟨err, by exact_mod_cast outcome, retryable⟩, fun below => ?_⟩
          exact waited_of_again round (by exact_mod_cast below)
        · exact rest.goesOn i above below
      · rcases Nat.eq_or_lt_of_le above with rfl | above
        · exact_mod_cast live
        · exact rest.checked i above below

theorem endsAfter_unique (ends : EndsAfter call n ending) (ends' : EndsAfter call m ending) :
    n = m := by
  cases ending <;> exact Int.ofNat.inj (ends.1.symm.trans ends'.1)

theorem conclude_of_endsAfter (r : Retryer V E) (uncached : r.cache = none)
    (ends : EndsAfter call n ending) :
    ∃ result, r.conclude call ending = (result, r) ∧ result.Attempts = n ∧
      (result.Err = none ↔ Succeeds call n) := by
  have unstored (value : Option V) (err : Option (ResultErr E)) : r.store call value err = r := by
    rw [Retryer.store, uncached, Option.map_none, ← uncached]
  cases ending with
  | canceled err attempts => exact ⟨_, rfl, ends.1, by simp [ends.2]⟩
  | succeeded val attempts =>
    exact ⟨_, by rw [Retryer.conclude, unstored], ends.1, iff_of_true rfl ⟨ends.2.1, val, ends.2.2⟩⟩
  | failed lastErr attempts =>
    exact ⟨_, by rw [Retryer.conclude, unstored], ends.1, by simp [ends.2]⟩

theorem do_returns (config : Config E) (fits : config.MaxAttempts < 2 ^ 63 - 1)
    (call : DoCall V E) :
    let r : Retryer V E := new config
    ∃ (n : Nat) (result : Result V E), n ≤ r.config.MaxAttempts ∧ result.Attempts = n ∧
      (∀ fuel : Nat, r.config.MaxAttempts < fuel →
        r.doCall fuel call = some (result, r) ∧
          invocations r.config call fuel {} = attemptsUpTo 1 n) ∧
      (result.Err = none ↔ 0 < n ∧ ∃ v, call.outcome n = .ok v) ∧
      (∀ i : Nat, 0 < i → i < n → GoesOn r.config call i) ∧
      ∀ i : Nat, 0 < i → i ≤ n → call.checked i = none := by
  intro r
  have limit : r.config.MaxAttempts =
      if config.MaxAttempts ≤ 0 then 3 else config.MaxAttempts := rfl
  have positive : 0 < r.config.MaxAttempts := by
    rw [limit]
    split_ifs <;> omega
  have fits : r.config.MaxAttempts < 2 ^ 63 - 1 := by
    rw [limit]
    split_ifs <;> omega
  have run (fuel : Nat) (enough : r.config.MaxAttempts < fuel) :
      ∃ n ending, Finishes r.config call fuel none 0 n ending :=
    loop_finishes fits positive.le (fun some => absurd some.1 (lt_irrefl 0)) none
      (by push_cast; omega)
  obtain ⟨n, ending, first⟩ := run (r.config.MaxAttempts.toNat + 1) (by omega)
  obtain ⟨result, concluded, attempts, success⟩ := conclude_of_endsAfter r rfl first.ends
  refine ⟨n, result, first.bounded, attempts, fun fuel enough => ?_, success, first.goesOn,
    first.checked⟩
  obtain ⟨m, other, later⟩ := run fuel enough
  have same := loopFor_mono first.returned (show r.config.MaxAttempts.toNat + 1 ≤ fuel by omega)
  obtain rfl : ending = other := Option.mem_unique same later.returned
  obtain rfl : n = m := endsAfter_unique first.ends later.ends
  refine ⟨?_, later.invoked⟩
  change (loopFor (nextRound r.config call) fuel {}).map (r.conclude call) = _
  rw [← concluded]
  exact congrArg (Option.map (r.conclude call)) same

noncomputable def failingTwice : DoCall String (Bool × String) where
  outcome attempt := if attempt < 3 then .error (false, "unavailable") else .ok "done"
  start := Time.zero
  readAt := Time.zero
  storedAt := Time.zero
  finish := Time.zero
  first := someKey

theorem do_returns_sample :
    ∃ (n : Nat) (result : Result String (Bool × String)), n ≤ 3 ∧ result.Attempts = n ∧
      ∀ fuel : Nat, 3 < fuel → (new threeAttempts).doCall fuel failingTwice =
        some (result, new threeAttempts) :=
  have ⟨n, result, few, attempts, returned, _⟩ :=
    do_returns threeAttempts (by decide) failingTwice
  have few : (n : Int) ≤ 3 := few
  ⟨n, result, Int.ofNat_le.mp few, attempts,
    fun fuel enough => (returned fuel (Int.ofNat_lt.mpr enough)).1⟩

end NexusPipe.Proof.Pkg.Attempts
