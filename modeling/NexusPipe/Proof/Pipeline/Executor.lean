import NexusPipe.Library.While
import NexusPipe.Pipeline.Executor

namespace NexusPipe.Proof.Pipeline
open NexusPipe.Pipeline Models Library PipelineExecutor

variable {W V : Type}

def Retries (env : StageEnv W) (stage : Stage) (handler : StageHandler W V) (input : Option V)
    (attempt : Nat) : Prop :=
  (env attempt).check = none ∧ ¬ (attempt > 0 ∧ (env attempt).backoffEnds) ∧
    (handler (env attempt).world stage input).2 ≠ none

def attemptExit (env : StageEnv W) (stage : Stage) (handler : StageHandler W V) (input : Option V)
    (attempt : Nat) : Option TaskStatus :=
  match (env attempt).check with
  | some .deadlineExceeded => some .timedOut
  | some .canceled => some .cancelled
  | none =>
    if attempt > 0 ∧ (env attempt).backoffEnds then some .cancelled
    else match (handler (env attempt).world stage input).2 with
      | none => some .completed
      | some _ => none

variable {e : PipelineExecutor W V} {env : StageEnv W} {stage : Stage} {handler : StageHandler W V}
  {input : Option V}

theorem attemptExit_cases (env : StageEnv W) (stage : Stage) (handler : StageHandler W V)
    (input : Option V) (k : Nat) : ((env k).check = some .deadlineExceeded ∧
        attemptExit env stage handler input k = some .timedOut) ∨
      (((env k).check = some .canceled ∨ (env k).check = none ∧ k > 0 ∧ (env k).backoffEnds) ∧
        attemptExit env stage handler input k = some .cancelled) ∨
      ((env k).check = none ∧ ¬ (k > 0 ∧ (env k).backoffEnds) ∧
        (handler (env k).world stage input).2 = none ∧
        attemptExit env stage handler input k = some .completed) ∨
      Retries env stage handler input k ∧ attemptExit env stage handler input k = none := by
  unfold attemptExit Retries
  cases checked : (env k).check with
  | some err => cases err <;> simp
  | none =>
    by_cases ends : k > 0 ∧ (env k).backoffEnds
    · simp [ends]
    · cases answered : (handler (env k).world stage input).2 <;> simp [ends]

variable {k : Nat}

theorem attemptExit_eq_none :
    attemptExit env stage handler input k = none ↔ Retries env stage handler input k := by
  rcases attemptExit_cases env stage handler input k with
    ⟨checked, exit⟩ | ⟨ended, exit⟩ | ⟨checked, _, answered, exit⟩ | ⟨retries, exit⟩
  · simp [exit, Retries, checked]
  · rcases ended with checked | ⟨checked, ends⟩
    · simp [exit, Retries, checked]
    · simp [exit, Retries, checked, ends]
  · simp [exit, Retries, answered]
  · simp [exit, retries]

theorem attemptExit_eq_cancelled : attemptExit env stage handler input k = some .cancelled ↔
      (env k).check = some .canceled ∨ (env k).check = none ∧ k > 0 ∧ (env k).backoffEnds := by
  rcases attemptExit_cases env stage handler input k with
    ⟨checked, exit⟩ | ⟨ended, exit⟩ | ⟨checked, waits, _, exit⟩ | ⟨⟨checked, waits, _⟩, exit⟩
  · simp [exit, checked]
  · simp [exit, ended]
  · simp [exit, checked, waits]
  · simp [exit, checked, waits]

theorem attemptExit_eq_timedOut : attemptExit env stage handler input k = some .timedOut ↔
      (env k).check = some .deadlineExceeded := by
  rcases attemptExit_cases env stage handler input k with
    ⟨checked, exit⟩ | ⟨ended, exit⟩ | ⟨checked, _, _, exit⟩ | ⟨⟨checked, _, _⟩, exit⟩
  · simp [exit, checked]
  · rcases ended with checked | ⟨checked, _⟩ <;> simp [exit, checked]
  · simp [exit, checked]
  · simp [exit, checked]

theorem attemptExit_mem (left : attemptExit env stage handler input k = some status) :
    status = .completed ∨ status = .timedOut ∨ status = .cancelled := by
  rcases attemptExit_cases env stage handler input k with
    ⟨_, exit⟩ | ⟨_, exit⟩ | ⟨_, _, _, exit⟩ | ⟨_, exit⟩ <;> rw [exit] at left <;> cases left <;> simp

theorem attemptLoop_status (left attempt : Nat) (lastErr : Text) (trace : List (StageEvent V)) :
    (e.attemptLoop env stage handler input left attempt lastErr trace).result.Status =
      ((List.range' attempt left).findSome? (attemptExit env stage handler input)).getD .failed := by
  induction left generalizing attempt lastErr trace with
  | zero => rfl
  | succ left ih =>
    rw [List.range'_succ, List.findSome?_cons, attemptLoop]
    cases checked : (env attempt).check with
    | none =>
      by_cases ends : attempt > 0 ∧ (env attempt).backoffEnds
      · simp [attemptExit, checked, ends]
      · cases answered : (handler (env attempt).world stage input).2 with
        | none => simp [attemptExit, checked, ends, answered]
        | some err =>
          simp only [attemptExit, checked, ends, ↓reduceIte, answered]
          exact ih _ _ _
    | some err => cases err <;> simp [attemptExit, checked]

/-- The context ends the stage at an attempt check or during a retry backoff, after attempts that
all failed. A deadline seen at an attempt check does not count: it is reported as a timeout. -/
def Interrupted (e : PipelineExecutor W V) (env : StageEnv W) (stage : Stage) (input : Option V) :
    Prop :=
  ∃ handler, e.handlers.lookup stage.TaskType = some handler ∧
    ∃ k ≤ PipelineExecutor.resolveMaxRetries stage,
      (∀ j < k, Retries env stage handler input j) ∧
      ((env k).check = some .canceled ∨ (env k).check = none ∧ k > 0 ∧ (env k).backoffEnds)

/-- The stage has no handler, or all its attempts fail, or the deadline is seen at an attempt
check after attempts that all failed. -/
def Fails (e : PipelineExecutor W V) (env : StageEnv W) (stage : Stage) (input : Option V) : Prop :=
  ∀ handler, e.handlers.lookup stage.TaskType = some handler →
    (∀ k ≤ PipelineExecutor.resolveMaxRetries stage, Retries env stage handler input k) ∨
    ∃ k ≤ PipelineExecutor.resolveMaxRetries stage,
      (∀ j < k, Retries env stage handler input j) ∧ (env k).check = some .deadlineExceeded

def Breaks (status : TaskStatus) : Prop := status = .failed ∨ status = .timedOut

instance (status : TaskStatus) : Decidable (Breaks status) :=
  inferInstanceAs (Decidable (_ ∨ _))

def stageExit (env : StageEnv W) (stage : Stage) (handler : StageHandler W V) (input : Option V) :
    Option TaskStatus :=
  (List.range (PipelineExecutor.resolveMaxRetries stage + 1)).findSome?
    (attemptExit env stage handler input)

theorem stageExit_eq_some : stageExit env stage handler input = some status ↔
      ∃ k ≤ resolveMaxRetries stage, (∀ j < k, Retries env stage handler input j) ∧
          attemptExit env stage handler input k = some status := by
  simp only [stageExit, findSome?_range_iff, attemptExit_eq_none, Nat.lt_succ_iff]

theorem stageExit_eq_none : stageExit env stage handler input = none ↔
      ∀ k ≤ resolveMaxRetries stage, Retries env stage handler input k := by
  simp [stageExit, attemptExit_eq_none, Nat.lt_succ_iff]

theorem stageExit_mem (left : stageExit env stage handler input = some status) :
    status = .completed ∨ status = .timedOut ∨ status = .cancelled := by
  obtain ⟨k, _, _, here⟩ := stageExit_eq_some.mp left
  exact attemptExit_mem here

theorem executeStage_status (found : e.handlers.lookup stage.TaskType = some handler) :
    (e.executeStage env stage input).result.Status =
      (stageExit env stage handler input).getD .failed := by
  rw [executeStage, getHandler, found, stageExit, List.range_eq_range']
  exact attemptLoop_status _ _ _ _

theorem executeStage_failed (missing : e.handlers.lookup stage.TaskType = none) :
    (e.executeStage env stage input).result.Status = .failed := by
  rw [executeStage, getHandler, missing]

theorem executeStage_breaks_iff :
    Breaks (e.executeStage env stage input).result.Status ↔ Fails e env stage input := by
  cases found : e.handlers.lookup stage.TaskType with
  | none => simp [Breaks, Fails, found, executeStage_failed found]
  | some handler =>
    simp only [Breaks, Fails, executeStage_status found, found, Option.some.injEq, forall_eq',
      ← @attemptExit_eq_timedOut W V env stage handler input, ← stageExit_eq_none,
      ← stageExit_eq_some]
    cases left : stageExit env stage handler input with
    | none => simp
    | some status => rcases stageExit_mem left with rfl | rfl | rfl <;> simp

theorem executeStage_cancelled_iff : (e.executeStage env stage input).result.Status = .cancelled ↔
      Interrupted e env stage input := by
  cases found : e.handlers.lookup stage.TaskType with
  | none => simp [Interrupted, found, executeStage_failed found]
  | some handler =>
    simp only [Interrupted, found, Option.some.injEq, exists_eq_left', executeStage_status found,
      ← @attemptExit_eq_cancelled W V env stage handler input, ← stageExit_eq_some]
    cases stageExit env stage handler input <;> simp

variable (e env stage input) in
theorem executeStage_status_cases :
    (e.executeStage env stage input).result.Status = .completed ∨ Fails e env stage input ∨
      Interrupted e env stage input := by
  rw [← executeStage_breaks_iff, ← executeStage_cancelled_iff]
  cases found : e.handlers.lookup stage.TaskType with
  | none => simp [Breaks, executeStage_failed found]
  | some handler =>
    rw [executeStage_status found]
    cases left : stageExit env stage handler input with
    | none => simp [Breaks]
    | some status => rcases stageExit_mem left with rfl | rfl | rfl <;> simp [Breaks]

end NexusPipe.Proof.Pipeline
