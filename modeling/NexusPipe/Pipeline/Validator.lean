import Mathlib.Algebra.BigOperators.Fin
import NexusPipe.Library.While
import NexusPipe.Pipeline.Executor

namespace NexusPipe.Pipeline
open Library Models

structure ValidationError where
  Field : Text
  Message : Text
  deriving DecidableEq, Repr

structure ValidationResult where
  Valid : Bool
  Errors : List ValidationError
  deriving DecidableEq, Repr

def reportIf (bad : Bool) (field message : Text) : List ValidationError :=
  if bad then [⟨field, message⟩] else []

structure PipelineValidator where
  maxStages : Int
  maxConcurrency : Int
  maxTimeout : Int
  forbiddenTypes : GoMap TaskType Bool
  deriving DecidableEq

def newPipelineValidator : PipelineValidator where
  maxStages := 50
  maxConcurrency := 10
  maxTimeout := 3600 * second
  forbiddenTypes := ∅

def matchesNamePattern (name : String) : Bool :=
  match name.toList with
  | [] => false
  | first :: rest =>
    first.isAlpha && 1 ≤ rest.length && rest.length ≤ 63 &&
      rest.all fun c => c.isAlphanum || c = '_' || c = '-' || c = '.'

inductive Color
  | white | grey | black
  deriving DecidableEq, Repr

/-- A call of `dfs` that has not returned, with the neighbours its loop has still to visit. -/
structure DfsCall (n : Nat) where
  stage : Fin n
  rest : List (Fin n)
  deriving DecidableEq, Repr

structure Search (n : Nat) where
  color : Fin n → Color
  hasCycle : Bool
  calls : List (DfsCall n)

namespace Search
variable {n : Nat} (graph : Fin n → List (Fin n))

def enter (s : Search n) (u : Fin n) : Search n :=
  { s with color := Function.update s.color u .grey, calls := ⟨u, graph u⟩ :: s.calls }

def step (s : Search n) : Option (Search n) :=
  match s.calls with
  | [] => none
  | ⟨u, []⟩ :: calls => some { s with color := Function.update s.color u .black, calls := calls }
  | ⟨u, v :: rest⟩ :: calls =>
    match s.color v with
    -- The call returns with its stage still grey.
    | .grey => some { s with hasCycle := true, calls := calls }
    | .white => some (enter graph { s with calls := ⟨u, rest⟩ :: calls } v)
    | .black => some { s with calls := ⟨u, rest⟩ :: calls }

def weight (u : Fin n) : Color → Nat
  | .white => (graph u).length + 2
  | _ => 0

def variant (s : Search n) : Nat :=
  (∑ u, weight graph u (s.color u)) + (s.calls.map fun call => call.rest.length + 1).sum

theorem sum_weight_update (color : Fin n → Color) (u : Fin n) (c : Color) :
    (∑ v, weight graph v (Function.update color u c v)) + weight graph u (color u) =
      (∑ v, weight graph v (color v)) + weight graph u c := by
  have others : ∑ v ∈ Finset.univ.erase u, weight graph v (Function.update color u c v) =
      ∑ v ∈ Finset.univ.erase u, weight graph v (color v) :=
    Finset.sum_congr rfl fun v member => by
      rw [Function.update_of_ne (Finset.ne_of_mem_erase member)]
  rw [← Finset.add_sum_erase _ _ (Finset.mem_univ u), others, Function.update_self,
    ← Finset.add_sum_erase _ (fun v => weight graph v (color v)) (Finset.mem_univ u)]
  omega

theorem step_decreases (s s' : Search n) (next : s.step graph = some s') :
    s'.variant graph < s.variant graph := by
  obtain ⟨color, hasCycle, calls⟩ := s
  match calls with
  | [] => simp [step] at next
  | ⟨u, []⟩ :: calls =>
    cases next
    have balance := sum_weight_update graph color u .black
    simp only [weight, variant, List.map_cons, List.sum_cons] at balance ⊢
    omega
  | ⟨u, v :: rest⟩ :: calls =>
    cases seen : color v with
    | grey =>
      simp only [step, seen] at next
      cases next
      simp [variant]
    | white =>
      simp only [step, seen] at next
      cases next
      have balance := sum_weight_update graph color v .grey
      simp only [seen, weight, enter, variant, List.map_cons, List.sum_cons,
        List.length_cons] at balance ⊢
      omega
    | black =>
      simp only [step, seen] at next
      cases next
      simp [variant]

def dfs (s : Search n) (u : Fin n) : Search n :=
  whileDo (step graph) (variant graph) (step_decreases graph) (s.enter graph u)

end Search

def stageIndex (stages : List Stage) : GoMap String (Fin stages.length) :=
  (List.finRange stages.length).foldl (fun index i => index.insert (stages.get i).Name i) ∅

def stageGraph (stages : List Stage) (i : Fin stages.length) : List (Fin stages.length) :=
  (stages.get i).DependsOn.filterMap (stageIndex stages).lookup

def stageField (name : String) (i : Nat) : Text := sprintf name [.int i]

namespace PipelineValidator
variable (v : PipelineValidator)

def validateName (name : String) : List ValidationError :=
  if trimSpace name = "" then [⟨.str "name", .str "pipeline name must not be empty"⟩]
  else if name.utf8ByteSize > 64 then
    [⟨.str "name", .str "pipeline name must be at most 64 characters"⟩]
  else if !matchesNamePattern name then
    [⟨.str "name", .str ("pipeline name must start with a letter and contain only alphanumeric, " ++
      "underscore, hyphen, or dot characters (2-64 chars)")⟩]
  else []

def validateConfig (cfg : PipelineConfig) : List ValidationError :=
  reportIf (cfg.TimeoutSeconds ≤ 0) (.str "config.timeout_seconds")
    (.str "timeout must be positive") ++
  reportIf (cfg.TimeoutSeconds > v.maxTimeout.tdiv second) (.str "config.timeout_seconds")
    (sprintf "timeout must not exceed %v" [.duration v.maxTimeout]) ++
  reportIf (cfg.Concurrency ≤ 0) (.str "config.concurrency") (.str "concurrency must be positive") ++
  reportIf (cfg.Concurrency > v.maxConcurrency) (.str "config.concurrency")
    (sprintf "concurrency must not exceed %d" [.int v.maxConcurrency]) ++
  reportIf (cfg.MaxRetries < 0) (.str "config.max_retries")
    (.str "max retries must not be negative") ++
  reportIf (cfg.MaxRetries > 25) (.str "config.max_retries")
    (.str "max retries must not exceed 25") ++
  reportIf (cfg.Priority < 0 ∨ cfg.Priority > 100) (.str "config.priority")
    (.str "priority must be between 0 and 100") ++
  reportIf (trimSpace cfg.QueueName = "") (.str "config.queue_name")
    (.str "queue name must not be empty") ++
  reportIf (cfg.RetryBackoffMS < 0) (.str "config.retry_backoff_ms")
    (.str "retry backoff must not be negative") ++
  reportIf cfg.BackoffMultiplier.isNonpositive (.str "config.backoff_multiplier")
    (.str "backoff multiplier must be positive")

def validateStage (stage : Stage) (i : Nat) : List ValidationError :=
  reportIf (trimSpace stage.Name = "") (stageField "stages[%d].name" i)
    (.str "stage name must not be empty") ++
  reportIf (!stage.TaskType.isValid) (stageField "stages[%d].type" i)
    (sprintf "invalid stage type: %s" [.str stage.TaskType.string]) ++
  reportIf ((v.forbiddenTypes.lookup stage.TaskType).getD false) (stageField "stages[%d].type" i)
    (sprintf "forbidden stage type: %s" [.str stage.TaskType.string]) ++
  reportIf (stage.Timeout < 0) (stageField "stages[%d].timeout" i)
    (.str "stage timeout must not be negative") ++
  reportIf (stage.MaxRetry < 0) (stageField "stages[%d].max_retry" i)
    (.str "max retry must not be negative") ++
  reportIf (stage.MaxRetry > 10) (stageField "stages[%d].max_retry" i)
    (.str "max retry must not exceed 10")

def validateStages (stages : List Stage) : List ValidationError :=
  if stages.length = 0 then [⟨.str "stages", .str "pipeline must have at least one stage"⟩]
  else if stages.length > v.maxStages then
    [⟨.str "stages", sprintf "pipeline must not exceed %d stages" [.int v.maxStages]⟩]
  else stages.zipIdx.flatMap fun (stage, i) => v.validateStage stage i

def validateDependencies (stages : List Stage) : List ValidationError :=
  stages.zipIdx.flatMap fun (stage, i) => stage.DependsOn.flatMap fun dep =>
    reportIf (dep ∉ stageIndex stages) (stageField "stages[%d].depends_on" i)
      (sprintf "stage %q depends on non-existent stage %q" [.str stage.Name, .str dep])

def detectCycles (stages : List Stage) : List ValidationError :=
  let visit (s : Search stages.length) (i : Fin stages.length) :
      Except (List ValidationError) (Search stages.length) :=
    if s.color i = .white then
      let s := s.dfs (stageGraph stages) i
      if s.hasCycle then
        .error [⟨.str "stages", .str "circular dependency detected in stage graph"⟩]
      else .ok s
    else .ok s
  match (List.finRange stages.length).foldlM visit ⟨fun _ => .white, false, []⟩ with
  | .error errs => errs
  | .ok _ => []

def validateStageNames (stages : List Stage) : List ValidationError :=
  let visit : GoMap String Nat × List ValidationError → Stage × Nat →
      GoMap String Nat × List ValidationError := fun (seen, errs) (stage, i) =>
    let errs := match seen.lookup stage.Name with
      | some existing => errs ++ [⟨stageField "stages[%d].name" i,
          sprintf "duplicate stage name %q (also at index %d)" [.str stage.Name, .int existing]⟩]
      | none => errs
    (seen.insert stage.Name i, errs)
  (stages.zipIdx.foldl visit (∅, [])).2

def validateResourceLimits (stages : List Stage) : List ValidationError :=
  stages.zipIdx.flatMap fun (stage, i) =>
    reportIf (stage.Timeout > v.maxTimeout) (stageField "stages[%d].timeout" i)
      (sprintf "stage timeout %v exceeds maximum %v"
        [.duration stage.Timeout, .duration v.maxTimeout])

def extractStages (pipeline : Pipeline) : Except Text (List Stage) :=
  .ok (getStagesFromPipeline pipeline)

def validatePipeline : Option Pipeline → ValidationResult
  | none => ⟨false, [⟨.str "pipeline", .str "pipeline must not be nil"⟩]⟩
  | some pipeline =>
    let stageErrs := match extractStages pipeline with
      | .ok stages =>
        v.validateStages stages ++ validateDependencies stages ++ detectCycles stages ++
          validateStageNames stages ++ v.validateResourceLimits stages
      | .error _ => []
    let errors := validateName pipeline.Name ++ v.validateConfig pipeline.Config ++ stageErrs
    ⟨errors.length = 0, errors⟩

def forbidType (t : TaskType) : PipelineValidator :=
  { v with forbiddenTypes := v.forbiddenTypes.insert t true }

def allowType (t : TaskType) : PipelineValidator :=
  { v with forbiddenTypes := v.forbiddenTypes.erase t }

end PipelineValidator
end NexusPipe.Pipeline
