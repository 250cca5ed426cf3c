import NexusPipe.Proof.Pipeline.Engine

namespace NexusPipe.Proof.Pipeline
open NexusPipe.Pipeline Models Library PipelineExecutor List

variable {W V : Type}

def invocations (trace : List (StageEvent V)) : List (Outcome V) :=
  trace.filterMap fun event => match event with
    | .called outcome => some outcome
    | .waited _ => none

inductive Attempted (left : Nat) (earlier : List (Outcome V)) (run : StageRun V) : Prop
  | gaveUp (failed : List (Outcome V)) (fails : ∀ outcome ∈ failed, outcome.2 ≠ none)
      (bound : failed.length ≤ left)
      (called : invocations run.trace = earlier ++ failed)
      (reported : run.result.Status ≠ .completed)
  | succeeded (failed : List (Outcome V)) (last : Outcome V)
      (fails : ∀ outcome ∈ failed, outcome.2 ≠ none) (bound : failed.length < left)
      (answered : last.2 = none)
      (called : invocations run.trace = earlier ++ (failed ++ [last]))
      (reported : run.result.Status = .completed)

variable {run : StageRun V}

theorem Attempted.idle (called : invocations run.trace = earlier)
    (reported : run.result.Status ≠ .completed) : Attempted left earlier run :=
  .gaveUp [] (by simp) (Nat.zero_le left) (by simp [called]) reported

variable {outcome : Outcome V}

theorem Attempted.retried (failed : outcome.2 ≠ none)
    (rest : Attempted left (earlier ++ [outcome]) run) : Attempted (left + 1) earlier run := by
  have all (more : List (Outcome V)) (fails : ∀ outcome ∈ more, outcome.2 ≠ none) :
      ∀ answer ∈ outcome :: more, answer.2 ≠ none :=
    forall_mem_cons.mpr ⟨failed, fails⟩
  cases rest with
  | gaveUp more fails bound called reported =>
    refine .gaveUp (outcome :: more) (all more fails) (Nat.succ_le_succ bound) ?_ reported
    rw [called, append_assoc, singleton_append]
  | succeeded more last fails bound answered called reported =>
    refine .succeeded (outcome :: more) last (all more fails) (Nat.succ_lt_succ bound) answered
      ?_ reported
    rw [called, append_assoc, singleton_append, cons_append]

theorem attemptLoop_attempted (e : PipelineExecutor W V) (env : StageEnv W) (stage : Stage)
    (handler : StageHandler W V) (input : Option V) (left attempt : Nat) (lastErr : Text)
    (trace : List (StageEvent V)) : Attempted left (invocations trace)
      (e.attemptLoop env stage handler input left attempt lastErr trace) := by
  induction left generalizing attempt lastErr trace with
  | zero => exact .idle rfl (by simp [attemptLoop])
  | succ left ih =>
    rw [attemptLoop]
    cases checked : (env attempt).check with
    | some err => cases err <;> exact .idle rfl (by simp)
    | none =>
      by_cases ends : attempt > 0 ∧ (env attempt).backoffEnds
      · simp only [ends, and_self, ↓reduceIte]
        exact .idle rfl (by simp)
      · simp only [ends, ↓reduceIte]
        -- a wait before the attempt is no invocation
        have called : invocations ((if attempt > 0
            then trace ++ [.waited (calculateBackoff attempt)] else trace) ++
            [.called (handler (env attempt).world stage input)]) =
            invocations trace ++ [handler (env attempt).world stage input] := by
          split_ifs <;> simp [invocations]
        cases answered : (handler (env attempt).world stage input).2 with
        | none =>
          exact .succeeded [] _ (by simp) (Nat.succ_pos left) answered (by simpa using called)
            rfl
        | some err =>
          apply Attempted.retried (by rw [answered]; simp)
          rw [← called]
          exact ih _ _ _

theorem executeStage_attempted (e : PipelineExecutor W V) (env : StageEnv W) (stage : Stage)
    (input : Option V) :
    Attempted (resolveMaxRetries stage + 1) [] (e.executeStage env stage input) := by
  rw [executeStage]
  cases found : e.getHandler stage.TaskType with
  | error err => exact .idle rfl (by simp)
  | ok handler => exact attemptLoop_attempted e env stage handler input _ 0 .nil []

structure Invokes (stage : Stage) (run : StageRun V) : Prop where
  bounded : ((invocations run.trace).length : Int) ≤ stage.MaxRetry + 1
  stops : ∀ (i : Nat) outcome, (invocations run.trace)[i]? = some outcome → outcome.2 = none →
    i + 1 = (invocations run.trace).length
  completed : run.result.Status = .completed ↔
    ∃ outcome, (invocations run.trace).getLast? = some outcome ∧ outcome.2 = none

theorem Attempted.length_le (attempted : Attempted left [] run) :
    (invocations run.trace).length ≤ left := by
  cases attempted with
  | gaveUp failed _ bound called _ => rwa [called]
  | succeeded failed last _ bound _ called _ =>
    rw [called, nil_append, length_append]
    exact bound

theorem Attempted.stops (attempted : Attempted left [] run)
    (found : (invocations run.trace)[i]? = some outcome) (answered : outcome.2 = none) :
    i + 1 = (invocations run.trace).length := by
  cases attempted with
  | gaveUp failed fails _ called _ =>
    rw [called] at found
    exact absurd answered (fails outcome (mem_of_getElem? found))
  | succeeded failed last fails _ _ called _ =>
    rw [called, nil_append] at found ⊢
    rcases Nat.lt_or_ge i failed.length with before | after
    · rw [getElem?_append_left before] at found
      exact absurd answered (fails outcome (mem_of_getElem? found))
    · have bound := (List.getElem?_eq_some_iff.mp found).1
      simp only [length_append, length_singleton] at bound ⊢
      omega

theorem Attempted.completed_iff (attempted : Attempted left [] run) :
    run.result.Status = .completed ↔
      ∃ outcome, (invocations run.trace).getLast? = some outcome ∧ outcome.2 = none := by
  cases attempted with
  | gaveUp failed fails _ called reported =>
    refine iff_of_false reported ?_
    rintro ⟨outcome, last, answered⟩
    rw [called] at last
    exact fails outcome (mem_of_getLast? last) answered
  | succeeded failed last _ _ answered called reported =>
    refine iff_of_true reported ⟨last, ?_, answered⟩
    rw [called, nil_append, getLast?_concat]

def loadOnce : Stage := { Name := "load", TaskType := .custom }

def loadRefused : StageRun Unit :=
  scripted.executeStage (fun _ => ⟨none, false, (none, some (.str "busy"))⟩) loadOnce none

def report (r : StageResult V) : String × TaskStatus := (r.StageName, r.Status)

variable {e : PipelineExecutor W V} {env : RunEnv W} {input : Option V} {stages : List Stage}

theorem executePipelineStages_cons :
    e.executePipelineStages env.stage input base (stage :: stages) =
      stageResult e env input base stage ::
        if (stageResult e env input base stage).Status = .failed ∧ stage.Optional = false then []
        else e.executePipelineStages env.stage input (base + 1) stages := by
  rw [executePipelineStages, stageResult]
  by_cases ends : (e.executeStage (env.stage base) stage input).result.Status = .failed ∧
      stage.Optional = false
  · simp [ends]
  · rw [if_neg ends, if_neg (by simpa using ends)]

theorem executePipelineStages_eq_nil :
    e.executePipelineStages env.stage input base stages = [] ↔ stages = [] := by
  cases stages with
  | nil => simp [executePipelineStages]
  | cons stage stages => simp [executePipelineStages_cons]

def TimesOutLast (e : PipelineExecutor W V) (env : RunEnv W) (input : Option V) (base : Nat)
    (stages : List Stage) : Prop :=
  ∀ (i : Nat) stage, stages[i]? = some stage → Starts e env input base stages i →
    stage.Optional = false → (stageResult e env input (base + i) stage).Status = .timedOut →
      stages.length = i + 1

theorem timesOutLast_cons : TimesOutLast e env input base (stage :: stages) ↔
      (env.done base = none → stage.Optional = false →
        (stageResult e env input base stage).Status = .timedOut → stages = []) ∧
      (GoesOn e env input base stage → TimesOutLast e env input (base + 1) stages) := by
  rw [TimesOutLast, ← Nat.and_forall_add_one]
  apply and_congr
  · simp [Starts, arrives_zero]
  · simp only [TimesOutLast, getElem?_cons_succ, starts_cons, and_imp, length_cons,
      Nat.succ_inj, Nat.add_assoc, Nat.add_comm 1]
    exact ⟨fun last goes i stage found => last i stage found goes,
      fun last i stage found goes => last goes i stage found⟩

variable (e input) in
theorem stageLoop_report_iff (uncancelled : ∀ i, env.done i = none) (base : Nat)
    (stages : List Stage) (s : LoopState V) :
    (exitResults (e.stageLoop env input base stages s)).map report =
        (s.stageResults ++ e.executePipelineStages env.stage input base stages).map report ↔
      TimesOutLast e env input base stages := by
  induction stages generalizing base s with
  | nil =>
    simp [stageLoop, executePipelineStages, exitResults, TimesOutLast]
  | cons stage stages ih =>
    rcases round_cases e env input base stage with ⟨err, done⟩ | ⟨live, fails, mandatory⟩ | goes
    · rw [uncancelled base] at done
      cases done
    · -- both loops end here, unless the stage timed out and the second one goes on
      have breaks : Breaks (stageResult e env input base stage).Status :=
        executeStage_breaks_iff.mpr fails
      simp only [stageLoop_fails live fails mandatory, timesOutLast_cons, live, mandatory,
        not_goesOn fails mandatory, executePipelineStages_cons]
      rcases breaks with failed | timedOut
      · simp [exitResults, afterStage, failed]
      · rw [eq_comm]
        simp [exitResults, afterStage, timedOut, executePipelineStages_eq_nil]
    · have passes (mandatory : stage.Optional = false) :
          ¬ Breaks (stageResult e env input base stage).Status :=
        fun breaks => not_goesOn (executeStage_breaks_iff.mp breaks) mandatory goes
      have rest := ih (base + 1) (afterStage s stage (stageResult e env input base stage))
      rw [afterStage, append_assoc, singleton_append, ← afterStage] at rest
      rw [stageLoop_goesOn goes, executePipelineStages_cons,
        if_neg fun ends => passes ends.2 (.inl ends.1), rest, timesOutLast_cons]
      constructor
      · exact fun last => ⟨fun _ mandatory late => absurd (.inr late) (passes mandatory), fun _ => last⟩
      · exact fun last => last.2 goes

def loadLate : RunEnv (Outcome Unit) :=
  { undisturbed (W := Outcome Unit) (fun _ _ => false) fun _ _ => (none, none) with
    stage := fun i _ => ⟨if i = 0 then some .deadlineExceeded else none, false, (none, none)⟩
    cancelled := by
      intro i _ canceled
      simp only at canceled
      split_ifs at canceled
      cases canceled }

end NexusPipe.Proof.Pipeline
