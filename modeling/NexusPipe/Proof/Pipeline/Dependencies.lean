import NexusPipe.Pipeline.Validator
import NexusPipe.Proof.Pipeline.Engine

namespace NexusPipe.Proof.Pipeline
open NexusPipe.Pipeline Models Library

variable {W V : Type}

def Passed (e : PipelineExecutor W V) (env : StageEnv W) (input : Option V) (stage : Stage) :
    Prop :=
  (e.executeStage env stage input).result.Status = .failed → stage.Optional = true

def Reaches (e : PipelineExecutor W V) (env : Nat → StageEnv W) (input : Option V) (base : Nat)
    (stages : List Stage) (i : Nat) : Prop :=
  ∀ j stage, j < i → stages[j]? = some stage → Passed e (env (base + j)) input stage

variable {e : PipelineExecutor W V} {stages : List Stage}

theorem reaches_zero : Reaches e env input base stages 0 :=
  fun _ _ less => absurd less (Nat.not_lt_zero _)

theorem reaches_cons : Reaches e env input base (stage :: stages) (i + 1) ↔
      Passed e (env base) input stage ∧ Reaches e env input (base + 1) stages i := by
  rw [Reaches, ← Nat.and_forall_add_one]
  simp [Reaches, Nat.add_assoc, Nat.add_comm 1]

theorem executePipelineStages_length : i < (e.executePipelineStages env input base stages).length ↔
      i < stages.length ∧ Reaches e env input base stages i := by
  induction stages generalizing base i with
  | nil => simp [PipelineExecutor.executePipelineStages]
  | cons stage stages ih =>
    rw [PipelineExecutor.executePipelineStages]
    have passed : Passed e (env base) input stage ↔
        ¬ ((e.executeStage (env base) stage input).result.Status = .failed ∧ !stage.Optional) := by
      simp [Passed]
    split_ifs with stops
    · cases i with
      | zero => simp [reaches_zero]
      | succ i => simp [reaches_cons, passed.not_left.mpr stops]
    · cases i with
      | zero => simp [reaches_zero]
      | succ i => simp [reaches_cons, passed.mpr stops, ih]

/-- Both loops append the result of a stage before they go on to the next, so that the stages
executed when number `i` starts are the ones before it. -/
def ExecutedFirst (stages : List Stage) (results : List (StageResult V)) : Prop :=
  ∀ (i : Nat) stage, stages[i]? = some stage → i < results.length →
    ∀ (j : Nat) dep, stages[j]? = some dep → dep.Name ∈ stage.DependsOn →
      j < i ∧ j < results.length

def ListedFirst (stages : List Stage) (i : Nat) (stage : Stage) : Prop :=
  ∀ (j : Nat) dep, stages[j]? = some dep → dep.Name ∈ stage.DependsOn → j < i

theorem executedFirst_iff_listedFirst {results : List (StageResult V)} {starts : Nat → Prop}
    (started : ∀ i, i < results.length ↔ i < stages.length ∧ starts i) :
    ExecutedFirst stages results ↔
      ∀ (i : Nat) stage, stages[i]? = some stage → starts i → ListedFirst stages i stage := by
  constructor
  · intro executed i stage found start j dep named member
    have bound := (List.getElem?_eq_some_iff.mp found).1
    exact (executed i stage found ((started i).mpr ⟨bound, start⟩) j dep named member).1
  · intro listed i stage found ran j dep named member
    have earlier := listed i stage found ((started i).mp ran).2 j dep named member
    exact ⟨earlier, earlier.trans ran⟩

def renderPublish : List Stage :=
  [{ Name := "publish", TaskType := .custom, DependsOn := ["render"] },
    { Name := "render", TaskType := .custom }]

end NexusPipe.Proof.Pipeline
