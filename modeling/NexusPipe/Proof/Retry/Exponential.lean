import NexusPipe.Library.Schedule
import NexusPipe.Retry.Exponential

namespace NexusPipe.Proof.Retry
open Library NexusPipe.Retry

section
variable {A V E : Type} {answers : Answers A V E} {maxAttempts : Int} {s s' : Call A V E}
  {action : CallAction V E}

inductive Stepped (answers : Answers A V E) (maxAttempts : Int) (s : Call A V E) :
    CallAction V E → Call A V E → Prop
  | cancel (err : ContextError) (live : s.ctx = none) :
      Stepped answers maxAttempts s (.cancel err) { s with ctx := some err }
  | begin (phase : s.phase = .loop 0) (more : 0 < maxAttempts) :
      Stepped answers maxAttempts s .proceed { s with phase := .calling 0 }
  | backOff (phase : s.phase = .loop attempt) (later : 0 < attempt) (more : attempt < maxAttempts) :
      Stepped answers maxAttempts s .proceed { s with phase := .selecting attempt }
  | exhaust (phase : s.phase = .loop attempt) (last : maxAttempts ≤ attempt) :
      Stepped answers maxAttempts s .proceed
        { s with phase := .returned (answers.failure (.exhausted maxAttempts s.lastErr)) }
  | invoke (phase : s.phase = .calling attempt) :
      Stepped answers maxAttempts s .proceed { s with phase := .running attempt }
  | stop {attempt : Nat} {err : ContextError} (phase : s.phase = .selecting attempt)
      (cancelled : s.ctx = some err) :
      Stepped answers maxAttempts s .done
        { s with phase := .returned (answers.failure (.context err)) }
  | retry {attempt : Nat} (phase : s.phase = .selecting attempt) :
      Stepped answers maxAttempts s .timer { s with phase := .calling attempt }
  | succeed (phase : s.phase = .running attempt) (v : V) :
      Stepped answers maxAttempts s (.outcome (.ok v))
        { s with phase := .returned (answers.success v), outcomes := s.outcomes ++ [.ok v] }
  | fail (phase : s.phase = .running attempt) (err : E) :
      Stepped answers maxAttempts s (.outcome (.error err)) { s with
          phase := .loop (attempt + 1)
          lastErr := some ⟨attempt + 1, maxAttempts, err⟩
          outcomes := s.outcomes ++ [.error err] }

theorem retryStep_cases (next : retryStep answers maxAttempts s action = some s') :
    Stepped answers maxAttempts s action s' := by
  cases action with
  | cancel err =>
    simp only [retryStep] at next
    split_ifs at next with live
    exact Option.some.inj next ▸ .cancel err live
  | proceed =>
    simp only [retryStep] at next
    split at next
    · rename_i attempt phase
      split_ifs at next with more later
      · exact Option.some.inj next ▸ .backOff phase later more
      · obtain rfl : attempt = 0 := Nat.eq_zero_of_not_pos later
        exact Option.some.inj next ▸ .begin phase more
      · exact Option.some.inj next ▸ .exhaust phase (Int.not_lt.mp more)
    · rename_i attempt phase
      exact Option.some.inj next ▸ .invoke phase
    · cases next
  | done =>
    simp only [retryStep] at next
    split at next
    · rename_i attempt err phase cancelled
      exact Option.some.inj next ▸ .stop phase cancelled
    · cases next
  | timer =>
    simp only [retryStep] at next
    split at next
    · rename_i attempt phase
      exact Option.some.inj next ▸ .retry phase
    · cases next
  | outcome result =>
    simp only [retryStep] at next
    split at next
    · rename_i attempt v phase
      exact Option.some.inj next ▸ .succeed phase v
    · rename_i attempt err phase
      exact Option.some.inj next ▸ .fail phase err
    · cases next

def Committed (maxAttempts : Int) : Phase A → Prop
  | .loop 0 => 0 < maxAttempts
  | .calling _ => True
  | _ => False

theorem committed_loop :
    Committed maxAttempts (Phase.loop (A := A) attempt) ↔ attempt = 0 ∧ 0 < maxAttempts := by
  cases attempt <;> simp [Committed]

def NeverLate (s : Call A V E) (action : CallAction V E) : Prop :=
  ∀ attempt, s.phase = .calling attempt → action = .proceed → s.ctx = none

/-- The context is not cancelled while the call is committed, and a select does not take the timer
once it is. -/
def Timely (maxAttempts : Int) (s : Call A V E) : CallAction V E → Prop
  | .cancel _ => ¬ Committed maxAttempts s.phase
  | .timer => s.ctx = none
  | _ => True

def Prompt (maxAttempts : Int) (s : Call A V E) : Prop :=
  Committed maxAttempts s.phase → s.ctx = none

theorem Prompt.neverLate (prompt : Prompt maxAttempts s) (action : CallAction V E) :
    NeverLate s action := by
  intro attempt phase _
  apply prompt
  rw [phase]
  trivial

theorem prompt_iff_timely (prompt : Prompt maxAttempts s)
    (next : retryStep answers maxAttempts s action = some s') :
    Prompt maxAttempts s' ↔ Timely maxAttempts s action := by
  cases retryStep_cases next with
  | cancel err live => simp [Prompt, Timely]
  | begin phase more =>
    refine iff_of_true (fun _ => prompt ?_) trivial
    rw [phase]
    exact more
  | retry phase => simp [Prompt, Timely, Committed]
  | backOff | exhaust | invoke | stop | succeed | fail =>
    exact iff_of_true (fun committed => committed.elim) trivial

theorem not_prompt_step (late : ¬ Prompt maxAttempts s) (never : NeverLate s action)
    (next : retryStep answers maxAttempts s action = some s') : ¬ Prompt maxAttempts s' := by
  obtain ⟨committed, cancelled⟩ := Classical.not_imp.mp late
  cases retryStep_cases next with
  | cancel err live => exact absurd live cancelled
  | begin phase more => exact Classical.not_imp.mpr ⟨trivial, cancelled⟩
  | invoke phase => exact absurd (never _ phase rfl) cancelled
  | backOff phase later more =>
    rw [phase, committed_loop] at committed
    exact absurd committed.1 later.ne'
  | exhaust phase last =>
    rw [phase, committed_loop] at committed
    omega
  | stop phase | retry phase | succeed phase | fail phase =>
    rw [phase] at committed
    exact committed.elim

variable {actions : List (CallAction V E)}

theorem neverLate_of_timely
    (timely : Along (retryStep answers maxAttempts) (Timely maxAttempts) s actions)
    (prompt : Prompt maxAttempts s) :
    Along (retryStep answers maxAttempts) NeverLate s actions := by
  have always : Along (retryStep answers maxAttempts) (fun _ _ => True) s actions :=
    along_of_forall (fun _ _ _ => trivial) s
  refine (along_congr (Prompt maxAttempts) ?_ ?_ prompt timely).mpr always
  · exact fun s a s' prompt meets next => (prompt_iff_timely prompt next).mpr meets
  · exact fun s a prompt _ => iff_of_true (prompt.neverLate a) trivial

theorem timely_of_neverLate (run : runSchedule (retryStep answers maxAttempts) s actions = some s')
    (complete : s'.phase = .returned answer) (prompt : Prompt maxAttempts s)
    (never : Along (retryStep answers maxAttempts) NeverLate s actions) :
    Along (retryStep answers maxAttempts) (Timely maxAttempts) s actions := by
  refine (throughout_iff_along (fun _ => True) (Prompt maxAttempts) (fun _ _ _ _ _ => trivial)
    (fun s a s' _ prompt next => prompt_iff_timely prompt next) run trivial prompt).mp ?_
  rintro before after middle rfl reached
  by_contra late
  -- a late cancellation would still be there at the end
  have final := runSchedule_invariant_along NeverLate (fun s => ¬ Prompt maxAttempts s)
    (fun s a s' late never next => not_prompt_step late never next)
    (runSchedule_rest run reached) (along_rest never reached) late
  apply final
  rw [Prompt, complete]
  exact fun committed => committed.elim

def StoppedEarly (maxAttempts : Int) (s : Call A V E) : Prop :=
  (∀ v, .ok v ∉ s.outcomes) ∧ s.outcomes.length < maxAttempts

def Consistent (answers : Answers A V E) (maxAttempts : Int) (s : Call A V E) : Prop :=
  match s.phase with
  | .loop attempt | .selecting attempt | .calling attempt | .running attempt =>
    s.outcomes.length = attempt
  | .returned answer => StoppedEarly maxAttempts s →
      ∃ err, s.ctx = some err ∧ answer = answers.failure (.context err)

theorem retryStep_consistent (consistent : Consistent answers maxAttempts s)
    (next : retryStep answers maxAttempts s action = some s') :
    Consistent answers maxAttempts s' := by
  unfold Consistent at consistent
  cases retryStep_cases next with
  | cancel err live =>
    unfold Consistent
    cases phase : s.phase with
    | returned answer =>
      rw [phase] at consistent
      intro early
      obtain ⟨err', cancelled, -⟩ := consistent early
      rw [live] at cancelled
      cases cancelled
    | loop | selecting | calling | running =>
      rw [phase] at consistent
      exact consistent
  | begin phase more | backOff phase later more | invoke phase | retry phase =>
    rw [phase] at consistent
    exact consistent
  | exhaust phase last =>
    rw [phase] at consistent
    exact fun early => absurd early.2 (by rw [consistent]; exact Int.not_lt.mpr last)
  | @stop attempt err phase cancelled => exact fun _ => ⟨err, cancelled, rfl⟩
  | succeed phase v => exact fun early => absurd (by simp) (early.1 v)
  | fail phase err =>
    rw [phase] at consistent
    simp [Consistent, consistent]

/-- Over all runs of a call: a timely cancellation is never followed by an invocation, no other one
is if the call returns, and a call that stops early returns the context's error. -/
structure CancellationLaw (step : Call A V E → CallAction V E → Option (Call A V E))
    (answers : Answers A V E) (maxAttempts : Int) : Prop where
  sufficient (actions : List (CallAction V E)) :
    Along step (Timely maxAttempts) {} actions → Along step NeverLate {} actions
  necessary (actions : List (CallAction V E)) (s : Call A V E) (answer : A) :
    runSchedule step {} actions = some s → s.phase = .returned answer →
      Along step NeverLate {} actions → Along step (Timely maxAttempts) {} actions
  stopped (actions : List (CallAction V E)) (s : Call A V E) (answer : A) :
    runSchedule step {} actions = some s → s.phase = .returned answer →
      StoppedEarly maxAttempts s →
        ∃ err, s.ctx = some err ∧ answer = answers.failure (.context err)

variable (answers maxAttempts) in
theorem retryStep_cancellationLaw :
    CancellationLaw (retryStep answers maxAttempts) answers maxAttempts where
  sufficient actions timely := neverLate_of_timely timely fun _ => rfl
  necessary actions s answer run complete never :=
    timely_of_neverLate run complete (fun _ => rfl) never
  stopped actions s answer run complete := by
    have consistent := runSchedule_invariant (Consistent answers maxAttempts)
      (fun s a s' holds next => retryStep_consistent holds next) run rfl
    rw [Consistent, complete] at consistent
    exact consistent

end

theorem do_cancellationLaw {E T : Type} (zero : T) (maxAttempts : Int) :
    CancellationLaw (doStep (E := E) maxAttempts) doAnswers maxAttempts ∧
      CancellationLaw (doWithDataStep (E := E) zero maxAttempts) (doWithDataAnswers zero)
        maxAttempts :=
  ⟨retryStep_cancellationLaw doAnswers maxAttempts,
    retryStep_cancellationLaw (doWithDataAnswers zero) maxAttempts⟩

def cancelledBefore : List (CallAction Unit String) :=
  [.cancel .canceled, .proceed, .proceed, .outcome (.ok ())]

theorem invoked_after_cancel : ¬ Along (doStep 5) NeverLate {} cancelledBefore ∧
      (runSchedule (doStep 5) {} cancelledBefore).map (·.phase) = some (.returned none) := by
  refine ⟨?_, rfl⟩
  rintro ⟨-, cancelled⟩
  obtain ⟨-, begun⟩ := cancelled _ rfl
  obtain ⟨live, -⟩ := begun _ rfl
  cases live 0 rfl rfl

end NexusPipe.Proof.Retry
