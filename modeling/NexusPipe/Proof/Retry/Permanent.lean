import NexusPipe.Proof.Retry.Exponential

namespace NexusPipe.Proof.Retry.Permanent
open Library NexusPipe.Retry

variable {A V E : Type} {answers : Answers A V E} {maxAttempts : Int} {s : Call A V E}

def lastFailure (maxAttempts : Int) (outcomes : List (Except E V)) : Option (AttemptError E) :=
  match outcomes.getLast? with
  | some (.error err) => some ⟨outcomes.length, maxAttempts, err⟩
  | _ => none

def Ended (answers : Answers A V E) (maxAttempts : Int) (s : Call A V E) : Prop :=
  match s.phase with
  | .loop attempt => s.outcomes.length = attempt ∧ attempt ≤ maxAttempts.toNat ∧
      s.lastErr = lastFailure maxAttempts s.outcomes
  | .selecting attempt | .calling attempt | .running attempt =>
    s.outcomes.length = attempt ∧ attempt < maxAttempts ∧
      s.lastErr = lastFailure maxAttempts s.outcomes
  | .returned answer => s.outcomes.length ≤ maxAttempts.toNat ∧
      ((∃ v, answer = answers.success v ∧ s.outcomes.getLast? = some (.ok v)) ∨
      (answer = answers.failure (.exhausted maxAttempts (lastFailure maxAttempts s.outcomes)) ∧
        maxAttempts ≤ s.outcomes.length) ∨
      ∃ err, answer = answers.failure (.context err) ∧ s.outcomes.length < maxAttempts)

theorem retryStep_ended (ended : Ended answers maxAttempts s)
    (next : retryStep answers maxAttempts s action = some s') : Ended answers maxAttempts s' := by
  unfold Ended at ended
  cases retryStep_cases next with
  | cancel err live => exact ended
  | begin phase more | backOff phase later more =>
    rw [phase] at ended
    exact ⟨ended.1, more, ended.2.2⟩
  | exhaust phase last =>
    rw [phase] at ended
    obtain ⟨count, few, kept⟩ := ended
    exact ⟨count ▸ few, .inr (.inl ⟨by rw [kept], count ▸ last⟩)⟩
  | invoke phase | retry phase =>
    rw [phase] at ended
    exact ended
  | @stop attempt err phase cancelled =>
    rw [phase] at ended
    obtain ⟨count, more, -⟩ := ended
    exact ⟨by dsimp only; omega, .inr (.inr ⟨err, rfl, count ▸ more⟩)⟩
  | succeed phase v =>
    rw [phase] at ended
    obtain ⟨count, more, -⟩ := ended
    refine ⟨?_, .inl ⟨v, rfl, List.getLast?_concat⟩⟩
    rw [List.length_append, List.length_singleton]
    omega
  | fail phase err =>
    rw [phase] at ended
    obtain ⟨count, more, -⟩ := ended
    exact ⟨by simp [count], by omega, by simp [lastFailure, count]⟩

/-- A permanent error is the last outcome, and the returned error unwraps to it, exactly if it comes
from the last attempt. -/
def PermanentLaw (step : Call A V FuncError → CallAction V FuncError → Option (Call A V FuncError))
    (errorOf : A → Option (RetryError FuncError)) (maxAttempts : Int) : Prop :=
  ∀ actions s answer k e inner, runSchedule step {} actions = some s →
    s.phase = .returned answer → s.outcomes[k]? = some (.error e) →
    .permanentError inner ∈ e.chain →
    ((s.outcomes.length = k + 1 ∧ ∃ err ∈ errorOf answer, .permanentError inner ∈ err.chain) ↔
      (k + 1 : Nat) = maxAttempts)

theorem retryStep_permanentLaw {answers : Answers A V FuncError}
    (success : ∀ v, errorOf (answers.success v) = none)
    (failure : ∀ err, errorOf (answers.failure err) = some err) (maxAttempts : Int) :
    PermanentLaw (retryStep answers maxAttempts) errorOf maxAttempts := by
  intro actions s answer k e inner run complete failed permanent
  have ended := runSchedule_invariant (Ended answers maxAttempts)
    (fun s a s' holds next => retryStep_ended holds next) run ⟨rfl, Nat.zero_le _, rfl⟩
  simp only [Ended, complete] at ended
  obtain ⟨few, reason⟩ := ended
  obtain ⟨below, is⟩ := List.getElem?_eq_some_iff.mp failed
  have last (final : s.outcomes.length = k + 1) : s.outcomes.getLast? = some (.error e) := by
    rw [List.getLast?_eq_getElem?, final, Nat.add_sub_cancel, failed]
  rcases reason with ⟨v, rfl, ok⟩ | ⟨rfl, all⟩ | ⟨err, rfl, early⟩
  · refine iff_of_false (fun held => ?_) fun same => ?_
    · obtain ⟨err, none, -⟩ := held.2
      rw [success] at none
      cases none
    · rw [last (by omega)] at ok
      cases ok
  · refine ⟨fun held => by omega, fun same => ?_⟩
    have final : s.outcomes.length = k + 1 := by omega
    refine ⟨final, _, failure _, ?_⟩
    rw [lastFailure, last final]
    exact permanent
  · refine iff_of_false (fun held => ?_) fun same => by omega
    obtain ⟨other, is, member⟩ := held.2
    rw [failure] at is
    cases is
    cases member

theorem do_permanentLaw {T : Type} (zero : T) (maxAttempts : Int) :
    PermanentLaw (doStep maxAttempts) id maxAttempts ∧
      PermanentLaw (doWithDataStep zero maxAttempts) Prod.snd maxAttempts :=
  ⟨retryStep_permanentLaw (fun _ => rfl) (fun _ => rfl) maxAttempts,
    retryStep_permanentLaw (fun _ => rfl) (fun _ => rfl) maxAttempts⟩

def permanentThenOk : List (CallAction Unit FuncError) :=
  [.proceed, .proceed, .outcome (.error (.permanentError (.new "bad request"))), .proceed, .timer,
    .proceed, .outcome (.ok ())]

theorem permanent_error_retried : isPermanent (.permanentError (.new "bad request")) = true ∧
      (runSchedule (doStep 3) {} permanentThenOk).map (fun s => (s.phase, s.outcomes)) =
        some (.returned none, [.error (.permanentError (.new "bad request")), .ok ()]) :=
  ⟨rfl, rfl⟩

end NexusPipe.Proof.Retry.Permanent
