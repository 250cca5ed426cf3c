import NexusPipe.Pipeline.Engine
import NexusPipe.Proof.Pipeline.Executor

namespace NexusPipe.Proof.Pipeline
open NexusPipe.Pipeline Models Library PipelineExecutor List

variable {W V : Type}

def stageResult (e : PipelineExecutor W V) (env : RunEnv W) (input : Option V) (i : Nat)
    (stage : Stage) : StageResult V :=
  (e.executeStage (env.stage i) stage input).result

def GoesOn (e : PipelineExecutor W V) (env : RunEnv W) (input : Option V) (i : Nat)
    (stage : Stage) : Prop :=
  env.done i = none ∧ (Fails e (env.stage i) stage input → stage.Optional = true)

def Arrives (e : PipelineExecutor W V) (env : RunEnv W) (input : Option V) (base : Nat)
    (stages : List Stage) (i : Nat) : Prop :=
  ∀ j stage, j < i → stages[j]? = some stage → GoesOn e env input (base + j) stage

variable {e : PipelineExecutor W V} {env : RunEnv W} {input : Option V} {stages : List Stage}
variable {base i : Nat} {stage : Stage} {s : LoopState V}

theorem arrives_zero : Arrives e env input base stages 0 :=
  fun _ _ less => absurd less (Nat.not_lt_zero _)

theorem arrives_cons : Arrives e env input base (stage :: stages) (i + 1) ↔
      GoesOn e env input base stage ∧ Arrives e env input (base + 1) stages i := by
  rw [Arrives, ← Nat.and_forall_add_one]
  simp [Arrives, Nat.add_assoc, Nat.add_comm 1]

theorem arrives_succ (found : stages[i]? = some stage) : Arrives e env input base stages (i + 1) ↔
      Arrives e env input base stages i ∧ GoesOn e env input (base + i) stage := by
  constructor
  · intro arrives
    exact ⟨fun j later less => arrives j later (Nat.lt_succ_of_lt less),
      arrives i stage (Nat.lt_succ_self i) found⟩
  · rintro ⟨arrives, goes⟩ j later less found'
    rcases Nat.lt_succ_iff_lt_or_eq.mp less with earlier | rfl
    · exact arrives j later earlier found'
    · rw [found, Option.some.injEq] at found'
      exact found' ▸ goes

def exitResults : LoopExit V → List (StageResult V)
  | .cancelled _ stageResults => stageResults
  | .finished s => s.stageResults

def ExitFailed : LoopExit V → Prop
  | .cancelled _ _ => True
  | .finished s => s.finalErr ≠ none

def Starts (e : PipelineExecutor W V) (env : RunEnv W) (input : Option V) (base : Nat)
    (stages : List Stage) (i : Nat) : Prop :=
  Arrives e env input base stages i ∧ env.done (base + i) = none

theorem starts_cons : Starts e env input base (stage :: stages) (i + 1) ↔
      GoesOn e env input base stage ∧ Starts e env input (base + 1) stages i := by
  rw [Starts, Starts, arrives_cons, and_assoc, Nat.add_right_comm, Nat.add_assoc]

theorem not_starts_of_done (done : env.done base ≠ none) (i : Nat) :
    ¬ Starts e env input base (stage :: stages) i := by
  cases i with
  | zero => exact fun starts => done starts.2
  | succ i => exact fun starts => done (starts_cons.mp starts).1.1

def afterStage (s : LoopState V) (stage : Stage) (r : StageResult V) : LoopState V :=
  { stageResults := s.stageResults ++ [r]
    finalErr := if Breaks r.Status then
        some (sprintf "stage %s failed: %s" [.str stage.Name, r.Error])
      else s.finalErr }

theorem stageLoop_done (done : env.done base = some err) :
    e.stageLoop env input base (stage :: stages) s = .cancelled err s.stageResults := by
  rw [stageLoop, done]

theorem stageLoop_goesOn (goes : GoesOn e env input base stage) :
    e.stageLoop env input base (stage :: stages) s = e.stageLoop env input (base + 1) stages
      (afterStage s stage (stageResult e env input base stage)) := by
  rw [stageLoop, goes.1, afterStage]
  by_cases breaks : Breaks (stageResult e env input base stage).Status
  · have optional := goes.2 (executeStage_breaks_iff.mp breaks)
    rw [if_pos breaks]
    unfold Breaks stageResult at breaks
    simp only [breaks, ↓reduceIte, optional]
    rfl
  · rw [if_neg breaks]
    unfold Breaks stageResult at breaks
    simp only [breaks, ↓reduceIte]
    rfl

theorem stageLoop_fails (live : env.done base = none)
    (fails : Fails e (env.stage base) stage input) (mandatory : stage.Optional = false) :
    e.stageLoop env input base (stage :: stages) s =
      .finished (afterStage s stage (stageResult e env input base stage)) := by
  have breaks : Breaks (stageResult e env input base stage).Status :=
    executeStage_breaks_iff.mpr fails
  rw [stageLoop, live, afterStage, if_pos breaks]
  unfold Breaks stageResult at breaks
  simp only [breaks, ↓reduceIte, mandatory]
  rfl

theorem afterStage_finalErr :
    (afterStage s stage (stageResult e env input base stage)).finalErr ≠ none ↔
      Fails e (env.stage base) stage input ∨ s.finalErr ≠ none := by
  rw [afterStage, ← executeStage_breaks_iff]
  dsimp only [stageResult]
  split_ifs with breaks <;> simp [breaks]

theorem not_goesOn (fails : Fails e (env.stage base) stage input)
    (mandatory : stage.Optional = false) : ¬ GoesOn e env input base stage := by
  intro goes
  rw [goes.2 fails] at mandatory
  cases mandatory

theorem round_cases (e : PipelineExecutor W V) (env : RunEnv W) (input : Option V) (base : Nat)
    (stage : Stage) : (∃ err, env.done base = some err) ∨
      (env.done base = none ∧ Fails e (env.stage base) stage input ∧ stage.Optional = false) ∨
      GoesOn e env input base stage := by
  cases done : env.done base with
  | some err => exact .inl ⟨err, rfl⟩
  | none =>
    by_cases fails : Fails e (env.stage base) stage input
    · cases optional : stage.Optional with
      | false => exact .inr (.inl ⟨rfl, fails, rfl⟩)
      | true => exact .inr (.inr ⟨done, fun _ => optional⟩)
    · exact .inr (.inr ⟨done, fun fails' => absurd fails' fails⟩)

variable (e env input) in
theorem stageLoop_results (base : Nat) (stages : List Stage) (s : LoopState V) :
    ∃ visited, exitResults (e.stageLoop env input base stages s) = s.stageResults ++ visited ∧
      ∀ i r, visited[i]? = some r ↔ Starts e env input base stages i ∧
        ∃ stage, stages[i]? = some stage ∧ stageResult e env input (base + i) stage = r := by
  induction stages generalizing base s with
  | nil => exact ⟨[], by simp [stageLoop, exitResults]⟩
  | cons stage stages ih =>
    rcases round_cases e env input base stage with ⟨err, done⟩ | ⟨live, fails, mandatory⟩ | goes
    · rw [stageLoop_done done]
      refine ⟨[], by simp [exitResults], fun i r => ?_⟩
      have idle : ¬ Starts e env input base (stage :: stages) i :=
        not_starts_of_done (by rw [done]; simp) i
      simp [idle]
    · rw [stageLoop_fails live fails mandatory]
      refine ⟨[stageResult e env input base stage], rfl, fun i r => ?_⟩
      cases i with
      | zero => simp [Starts, arrives_zero, live]
      | succ i => simp [starts_cons, not_goesOn fails mandatory]
    · rw [stageLoop_goesOn goes]
      obtain ⟨visited, results, spec⟩ := ih (base + 1)
        (afterStage s stage (stageResult e env input base stage))
      refine ⟨stageResult e env input base stage :: visited, ?_, fun i r => ?_⟩
      · rw [results, afterStage, append_assoc]
        rfl
      · cases i with
        | zero => simp [Starts, arrives_zero, goes.1]
        | succ i =>
          rw [getElem?_cons_succ, spec, starts_cons, getElem?_cons_succ,
            Nat.add_right_comm, Nat.add_assoc]
          simp [goes]

variable (e env input) in
theorem stageLoop_passes (base : Nat) (stages : List Stage) (s : LoopState V) :
    ¬ ExitFailed (e.stageLoop env input base stages s) ↔ s.finalErr = none ∧
      ∀ i stage, stages[i]? = some stage →
        env.done (base + i) = none ∧ ¬ Fails e (env.stage (base + i)) stage input := by
  induction stages generalizing base s with
  | nil => simp [stageLoop, ExitFailed]
  | cons stage stages ih =>
    rw [← Nat.and_forall_add_one]
    simp only [getElem?_cons_zero, getElem?_cons_succ, Option.some.injEq, forall_eq']
    rcases round_cases e env input base stage with ⟨err, done⟩ | ⟨live, fails, mandatory⟩ | goes
    · simp [stageLoop_done done, ExitFailed, done]
    · rw [stageLoop_fails live fails mandatory]
      simp [ExitFailed, afterStage_finalErr, fails]
    · rw [stageLoop_goesOn goes, ih, ← not_ne_iff, afterStage_finalErr]
      simp only [Nat.add_assoc, Nat.add_comm 1, Nat.add_zero, goes.1, true_and, not_or, ne_eq,
        not_not]
      tauto

section
variable {run : PipelineRun V} (ran : e.executePipelineOn env pipeline stages input = run)
include ran

theorem run_stageResults :
    run.result.StageResults = exitResults (e.stageLoop env input 0 stages ⟨[], none⟩) := by
  rw [← ran, executePipelineOn]
  split <;> simp [*, exitResults]

theorem run_status :
    run.result.Status = .active ∧ ¬ ExitFailed (e.stageLoop env input 0 stages ⟨[], none⟩) ∨
      run.result.Status = .failed ∧ ExitFailed (e.stageLoop env input 0 stages ⟨[], none⟩) := by
  rw [← ran, executePipelineOn]
  split <;> simp [*, ExitFailed]

theorem run_result_iff : run.result.StageResults[i]? = some r ↔ Starts e env input 0 stages i ∧
      ∃ stage, stages[i]? = some stage ∧ stageResult e env input i stage = r := by
  obtain ⟨visited, results, spec⟩ :=
    stageLoop_results e env input 0 stages ⟨[], none⟩
  rw [run_stageResults ran, results, nil_append, spec, Nat.zero_add]

theorem run_result_at (found : stages[i]? = some stage) : run.result.StageResults[i]? = some r ↔
      Starts e env input 0 stages i ∧ stageResult e env input i stage = r := by
  rw [run_result_iff ran, found]
  simp

theorem run_active_iff : run.result.Status = .active ↔ ∀ i stage, stages[i]? = some stage →
      env.done i = none ∧ ¬ Fails e (env.stage i) stage input := by
  have passes := stageLoop_passes e env input 0 stages ⟨[], none⟩
  simp only [true_and, Nat.zero_add] at passes
  rw [← passes]
  rcases run_status ran with ⟨active, passed⟩ | ⟨failed, broken⟩
  · exact iff_of_true active passed
  · exact iff_of_false (by simp [failed]) (not_not.mpr broken)

theorem run_failed_iff : run.result.Status = .failed ↔ run.result.Status ≠ .active := by
  rcases run_status ran with ⟨status, _⟩ | ⟨status, _⟩ <;> simp [status]

theorem run_length_le_iff :
    run.result.StageResults.length ≤ i ↔ ¬ (Starts e env input 0 stages i ∧ i < stages.length) := by
  rw [← List.getElem?_eq_none_iff, ← Option.not_isSome_iff_eq_none, Option.isSome_iff_exists]
  apply not_congr
  simp only [run_result_iff ran, exists_and_left]
  refine and_congr_right fun _ => ⟨?_, fun bound => ?_⟩
  · rintro ⟨_, stage, found, _⟩
    exact (List.getElem?_eq_some_iff.mp found).1
  · exact ⟨_, stages[i], getElem?_eq_getElem bound, rfl⟩

theorem run_active_starts (active : run.result.Status = .active) (bound : i < stages.length) :
    Starts e env input 0 stages i := by
  have passes := (run_active_iff ran).mp active
  refine ⟨fun j earlier _ found => ?_, ?_⟩
  · rw [Nat.zero_add]
    exact ⟨(passes j earlier found).1, fun fails => absurd fails (passes j earlier found).2⟩
  · rw [Nat.zero_add]
    exact (passes i _ (getElem?_eq_getElem bound)).1

theorem run_active_length (active : run.result.Status = .active) :
    run.result.StageResults.length = stages.length := by
  apply Nat.le_antisymm
  · rw [run_length_le_iff ran]
    rintro ⟨_, beyond⟩
    exact Nat.lt_irrefl _ beyond
  · apply Nat.le_of_not_lt
    intro short
    exact (run_length_le_iff ran).mp (Nat.le_refl _) ⟨run_active_starts ran active short, short⟩

end

/-- An active run completed every mandatory stage, and the run stops at a mandatory stage that did
not complete. -/
structure CompletesMandatory (stages : List Stage) (run : PipelineRun V) : Prop where
  active : run.result.Status = .active →
    run.result.StageResults.length = stages.length ∧
      ∀ (i : Nat) stage r, stages[i]? = some stage → run.result.StageResults[i]? = some r →
        stage.Optional = false → r.Status = .completed
  stops : ∀ (i : Nat) stage r, stages[i]? = some stage → run.result.StageResults[i]? = some r →
    stage.Optional = false → r.Status ≠ .completed → run.result.StageResults.length = i + 1

theorem not_completed_cases (incomplete : (stageResult e env input i stage).Status ≠ .completed) :
    Fails e (env.stage i) stage input ∨ Interrupted e (env.stage i) stage input :=
  (executeStage_status_cases e (env.stage i) stage input).resolve_left incomplete

theorem Interrupted.not_fails {env : StageEnv W}
    (interrupted : Interrupted e env stage input) : ¬ Fails e env stage input := by
  rw [← executeStage_breaks_iff, executeStage_cancelled_iff.mpr interrupted]
  simp [Breaks]

/-- When the interruption of a mandatory stage does no harm: the run's context is found done at the
next stage, or there is none and an earlier stage has failed. -/
def Excused (e : PipelineExecutor W V) (env : RunEnv W) (input : Option V) (stages : List Stage)
    (i : Nat) : Prop :=
  if i + 1 < stages.length then env.done (i + 1) ≠ none
  else ∃ (j : Nat) (earlier : Stage), j < i ∧ stages[j]? = some earlier ∧
    Fails e (env.stage j) earlier input

section
variable {run : PipelineRun V} (ran : e.executePipelineOn env pipeline stages input = run)
include ran

theorem run_active_of_interrupted (found : stages[i]? = some stage)
    (last : stages.length ≤ i + 1) (starts : Starts e env input 0 stages i)
    (interrupted : Interrupted e (env.stage i) stage input)
    (passed : ∀ j earlier, j < i → stages[j]? = some earlier →
      ¬ Fails e (env.stage j) earlier input) : run.result.Status = .active := by
  rw [run_active_iff ran]
  intro j other found'
  have bound := (List.getElem?_eq_some_iff.mp found').1
  rcases Nat.lt_or_ge j i with less | more
  · have goes := starts.1 j other less found'
    rw [Nat.zero_add] at goes
    exact ⟨goes.1, passed j other less found'⟩
  · obtain rfl : j = i := by omega
    obtain rfl : stage = other := Option.mem_unique found found'
    have live := starts.2
    rw [Nat.zero_add] at live
    exact ⟨live, interrupted.not_fails⟩

theorem CompletesMandatory.excused (completes : CompletesMandatory stages run)
    (found : stages[i]? = some stage) (mandatory : stage.Optional = false)
    (starts : Starts e env input 0 stages i)
    (interrupted : Interrupted e (env.stage i) stage input) : Excused e env input stages i := by
  have cancelled : (stageResult e env input i stage).Status = .cancelled :=
    executeStage_cancelled_iff.mpr interrupted
  have result := (run_result_at ran found).mpr ⟨starts, rfl⟩
  unfold Excused
  split_ifs with more
  · -- the loop would start the next stage, against the second half of the property
    intro next
    have length := completes.stops i stage _ found result mandatory (by rw [cancelled]; simp)
    have goes : GoesOn e env input (0 + i) stage := by
      refine ⟨starts.2, fun fails => ?_⟩
      rw [Nat.zero_add] at fails
      exact absurd fails interrupted.not_fails
    refine (run_length_le_iff ran).mp (Nat.le_of_eq length) ⟨⟨?_, ?_⟩, more⟩
    · exact (arrives_succ found).mpr ⟨starts.1, goes⟩
    · rwa [Nat.zero_add]
  · by_contra unexcused
    have active := run_active_of_interrupted ran found (Nat.le_of_not_lt more) starts
      interrupted fun j earlier less found' fails => unexcused ⟨j, earlier, less, found', fails⟩
    have completed := (completes.active active).2 i stage _ found result mandatory
    rw [cancelled] at completed
    cases completed

theorem run_active_not_excused (active : run.result.Status = .active) :
    ¬ Excused e env input stages i := by
  have passes := (run_active_iff ran).mp active
  unfold Excused
  split_ifs with more
  · exact not_not.mpr (passes _ _ (getElem?_eq_getElem more)).1
  · rintro ⟨j, earlier, _, found, fails⟩
    exact (passes j earlier found).2 fails

end

theorem completesMandatory_iff (e : PipelineExecutor W V) (env : RunEnv W) (pipeline : Pipeline)
    (stages : List Stage) (input : Option V) :
    CompletesMandatory stages (e.executePipelineOn env pipeline stages input) ↔
      ∀ i stage, stages[i]? = some stage → stage.Optional = false →
        Starts e env input 0 stages i → Interrupted e (env.stage i) stage input →
          Excused e env input stages i := by
  constructor
  · intro completes i stage found mandatory starts interrupted
    exact completes.excused rfl found mandatory starts interrupted
  · intro excused
    refine ⟨fun active => ⟨run_active_length rfl active, ?_⟩, ?_⟩
    · intro i stage r found result mandatory
      obtain ⟨starts, rfl⟩ := (run_result_at rfl found).mp result
      by_contra incomplete
      rcases not_completed_cases incomplete with fails | interrupted
      · exact ((run_active_iff rfl).mp active i stage found).2 fails
      · exact run_active_not_excused rfl active (excused i stage found mandatory starts interrupted)
    · intro i stage r found result mandatory incomplete
      obtain ⟨starts, rfl⟩ := (run_result_at rfl found).mp result
      refine Nat.le_antisymm ((run_length_le_iff rfl).mpr ?_)
        (List.getElem?_eq_some_iff.mp result).1
      rintro ⟨later, more⟩
      have passed := ((arrives_succ found).mp later.1).2
      rw [Nat.zero_add] at passed
      rcases not_completed_cases incomplete with fails | interrupted
      · exact not_goesOn fails mandatory passed
      · have excuse := excused i stage found mandatory starts interrupted
        rw [Excused, if_pos more] at excuse
        exact excuse (by simpa using later.2)

def undisturbed (backoffEnds : Nat → Nat → Bool) (world : Nat → Nat → W) : RunEnv W where
  runID := 1
  done _ := none
  stage i attempt := ⟨none, backoffEnds i attempt, world i attempt⟩
  permanent _ _ _ _ := rfl
  cancelled _ _ canceled := by simp at canceled

def scripted : PipelineExecutor (Outcome Unit) Unit :=
  (newPipelineExecutor _ _).registerHandler .custom fun outcome _ _ => outcome

def loadStore : List Stage :=
  [{ Name := "load", TaskType := .custom, Timeout := 400 * millisecond },
    { Name := "store", TaskType := .custom }]

def loadInterrupted : PipelineRun Unit :=
  let env := undisturbed (fun i _ => i = 0)
    fun i _ => (none, if i = 0 then some (.str "busy") else none)
  scripted.executePipelineOn env (newPipeline 2 0 "sync" 0) loadStore none

theorem loadInterrupted_active : loadInterrupted.result.Status = .active ∧
      loadInterrupted.result.StageResults.map (·.Status) = [.cancelled, .completed] ∧
      ¬ CompletesMandatory loadStore loadInterrupted := by
  have results : loadInterrupted.result.StageResults.map (·.Status) = [.cancelled, .completed] := by
    decide +kernel
  have active : loadInterrupted.result.Status = .active := by decide +kernel
  refine ⟨active, results, fun completes => ?_⟩
  have first : loadInterrupted.result.StageResults[0]? =
      some { StageName := "load", Status := .cancelled,
             Error := .str "cancelled during retry backoff" } := by decide +kernel
  have completed := (completes.active active).2 0 _ _ rfl first rfl
  cases completed

def FailsByMandatory (stages : List Stage) (run : PipelineRun V) : Prop :=
  run.result.Status = .failed ↔ ∃ (i : Nat) (stage : Stage) (r : StageResult V),
    stages[i]? = some stage ∧ run.result.StageResults[i]? = some r ∧
      stage.Optional = false ∧ Breaks r.Status

theorem failsByMandatory_iff (e : PipelineExecutor W V) (env : RunEnv W) (pipeline : Pipeline)
    (stages : List Stage) (input : Option V) (uncancelled : ∀ i, env.done i = none) :
    FailsByMandatory stages (e.executePipelineOn env pipeline stages input) ↔
      ∀ i stage, stages[i]? = some stage → stage.Optional = true →
        Starts e env input 0 stages i → Fails e (env.stage i) stage input →
          ∃ j other, stages[j]? = some other ∧ other.Optional = false ∧
            Starts e env input 0 stages j ∧ Fails e (env.stage j) other input := by
  have failed : (e.executePipelineOn env pipeline stages input).result.Status = .failed ↔
      ∃ i stage, stages[i]? = some stage ∧ Starts e env input 0 stages i ∧
        Fails e (env.stage i) stage input := by
    rw [run_failed_iff rfl, Ne, run_active_iff rfl]
    constructor
    · intro broken
      by_contra unbroken
      refine broken fun i stage found => ⟨uncancelled i, ?_⟩
      induction i using Nat.strongRecOn generalizing stage with
      | _ i ih =>
        intro fails
        refine unbroken ⟨i, stage, found, ⟨fun j earlier less found' => ?_, uncancelled _⟩, fails⟩
        rw [Nat.zero_add]
        exact ⟨uncancelled j, fun fails' => absurd fails' (ih j less earlier found')⟩
    · rintro ⟨i, stage, found, _, fails⟩ passes
      exact (passes i stage found).2 fails
  have mandatory : (∃ (i : Nat) (stage : Stage) (r : StageResult V), stages[i]? = some stage ∧
      (e.executePipelineOn env pipeline stages input).result.StageResults[i]? = some r ∧
      stage.Optional = false ∧ Breaks r.Status) ↔
      ∃ j other, stages[j]? = some other ∧ other.Optional = false ∧
        Starts e env input 0 stages j ∧ Fails e (env.stage j) other input := by
    apply exists_congr
    intro i
    apply exists_congr
    intro stage
    constructor
    · rintro ⟨r, found, result, mandatory, breaks⟩
      obtain ⟨starts, rfl⟩ := (run_result_at rfl found).mp result
      exact ⟨found, mandatory, starts, executeStage_breaks_iff.mp breaks⟩
    · rintro ⟨found, mandatory, starts, fails⟩
      exact ⟨_, found, (run_result_at rfl found).mpr ⟨starts, rfl⟩, mandatory,
        executeStage_breaks_iff.mpr fails⟩
  rw [FailsByMandatory, failed, mandatory]
  constructor
  · intro agree i stage found _ starts fails
    exact agree.mp ⟨i, stage, found, starts, fails⟩
  · intro covered
    constructor
    · rintro ⟨i, stage, found, starts, fails⟩
      cases optional : stage.Optional with
      | false => exact ⟨i, stage, found, optional, starts, fails⟩
      | true => exact covered i stage found optional starts fails
    · rintro ⟨j, other, found, _, starts, fails⟩
      exact ⟨j, other, found, starts, fails⟩

def notify : List Stage := [{ Name := "notify", TaskType := .notification, Optional := true }]

def notifyFailed : PipelineRun Unit :=
  (newPipelineExecutor Unit Unit).executePipelineOn (undisturbed (fun _ _ => false) fun _ _ => ())
    (newPipeline 2 0 "sync" 0) notify none

theorem notifyFailed_failed :
    notifyFailed.result.Status = .failed ∧ ¬ FailsByMandatory notify notifyFailed := by
  have failed : notifyFailed.result.Status = .failed := by decide +kernel
  refine ⟨failed, fun agree => ?_⟩
  obtain ⟨i, stage, _, found, _, mandatory, _⟩ := agree.mp failed
  obtain ⟨_, rfl⟩ := List.getElem?_eq_some_iff.mp found
  have optional : ∀ stage ∈ notify, stage.Optional = true := by decide
  rw [optional _ (getElem_mem _)] at mandatory
  cases mandatory

theorem loadStore_failsByMandatory : FailsByMandatory loadStore (scripted.executePipelineOn
      (undisturbed (fun _ _ => false) fun _ _ => (none, none)) (newPipeline 2 0 "sync" 0)
      loadStore none) := by
  apply (failsByMandatory_iff _ _ _ _ _ fun _ => rfl).mpr
  intro i stage found optional
  obtain ⟨_, rfl⟩ := List.getElem?_eq_some_iff.mp found
  have mandatory : ∀ stage ∈ loadStore, stage.Optional = false := by decide
  rw [mandatory _ (getElem_mem _)] at optional
  cases optional

theorem executePipelineOn_events (e : PipelineExecutor W V) (env : RunEnv W) (pipeline : Pipeline)
    (stages : List Stage) (input : Option V) :
    ∃ terminal : Event, terminal.PipelineID = pipeline.ID ∧ terminal.RunID = env.runID ∧
      (e.executePipelineOn env pipeline stages input).events =
        [{ EventType := .pipelineStarted, PipelineID := pipeline.ID, RunID := env.runID },
          terminal] ∧
      ((e.executePipelineOn env pipeline stages input).err = none ∧
          (e.executePipelineOn env pipeline stages input).result.Status = .active ∧
          terminal.EventType = .pipelineCompleted ∨
        (e.executePipelineOn env pipeline stages input).err ≠ none ∧
          terminal.EventType = .pipelineFailed) := by
  rw [executePipelineOn]
  rcases e.stageLoop env input 0 stages ⟨[], none⟩ with ⟨err, results⟩ | ⟨results, finalErr⟩
  · exact ⟨_, rfl, rfl, rfl, .inr ⟨by simp, rfl⟩⟩
  · cases finalErr with
    | none => exact ⟨_, rfl, rfl, rfl, .inl ⟨rfl, rfl, rfl⟩⟩
    | some err => exact ⟨_, rfl, rfl, rfl, .inr ⟨by simp, rfl⟩⟩

theorem events_started_then_terminal (e : PipelineExecutor W V) (env : RunEnv W)
    (pipeline : Pipeline) (resolved : Except Text (List Stage)) (input : Option V) :
    ∃ terminal : Event, terminal.PipelineID = pipeline.ID ∧ terminal.RunID = env.runID ∧
      (e.executeResolved env pipeline resolved input).events =
        [{ EventType := .pipelineStarted, PipelineID := pipeline.ID, RunID := env.runID },
          terminal] ∧
      (terminal.EventType = .pipelineCompleted ↔
        (e.executeResolved env pipeline resolved input).err = none ∧
          (e.executeResolved env pipeline resolved input).result.map (·.Status) = some .active) ∧
      (terminal.EventType = .pipelineFailed ↔
        ¬ ((e.executeResolved env pipeline resolved input).err = none ∧
          (e.executeResolved env pipeline resolved input).result.map (·.Status) = some .active)) := by
  cases resolved with
  | error err => exact ⟨_, rfl, rfl, rfl, by simp [executeResolved,
      handleFailure]⟩
  | ok stages =>
    obtain ⟨terminal, owner, run, events, ends⟩ :=
      executePipelineOn_events e env pipeline stages input
    refine ⟨terminal, owner, run, events, ?_⟩
    simp only [executeResolved, Option.map_some, Option.some.injEq]
    rcases ends with ⟨nil, active, completed⟩ | ⟨failed, published⟩
    · simp [nil, active, completed]
    · simp [failed, published]

end NexusPipe.Proof.Pipeline
