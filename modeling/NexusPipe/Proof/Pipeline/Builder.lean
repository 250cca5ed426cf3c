import NexusPipe.Pipeline.Builder
import NexusPipe.Pipeline.Validator

namespace NexusPipe.Proof.Pipeline
open NexusPipe.Pipeline Models Library

variable {stages : List Stage} {b : PipelineBuilder} {p : Pipeline}

theorem buildWithStages_ok_iff : b.buildWithStages = .ok (p, stages) ↔
      b.errors = [] ∧ b.pipeline.Name ≠ "" ∧ b.stages ≠ [] ∧ p = b.pipeline ∧
        stages = b.stages := by
  simp only [PipelineBuilder.buildWithStages, PipelineBuilder.build, gt_iff_lt,
    List.length_pos_iff, List.length_eq_zero_iff]
  by_cases failed : b.errors = []
  · by_cases named : b.pipeline.Name = ""
    · simp [failed, named, bind, Except.bind]
    · by_cases bare : b.stages = []
      · simp [failed, named, bare, bind, Except.bind]
      · simp [failed, named, bare, bind, Except.bind, pure, Except.pure, eq_comm]
  · simp [failed, bind, Except.bind]

structure Passes (v : PipelineValidator) (p : Pipeline) (stages : List Stage) : Prop where
  name : PipelineValidator.validateName p.Name = []
  config : v.validateConfig p.Config = []
  each : v.validateStages stages = []
  dependencies : PipelineValidator.validateDependencies stages = []
  cycles : PipelineValidator.detectCycles stages = []
  names : PipelineValidator.validateStageNames stages = []
  limits : v.validateResourceLimits stages = []

variable {v : PipelineValidator}

theorem Passes.nonempty (passes : Passes v p stages) : stages ≠ [] := by
  rintro rfl
  have failed := passes.each
  simp [PipelineValidator.validateStages] at failed

theorem valid_iff_passes :
    (v.validatePipeline (some p)).Valid = true ↔ Passes v p (getStagesFromPipeline p) := by
  simp only [PipelineValidator.validatePipeline, PipelineValidator.extractStages,
    List.length_eq_zero_iff, decide_eq_true_eq, List.append_eq_nil_iff]
  constructor
  · rintro ⟨⟨name, config⟩, ⟨⟨⟨stages, dependencies⟩, cycles⟩, names⟩, limits⟩
    exact ⟨name, config, stages, dependencies, cycles, names, limits⟩
  · rintro ⟨name, config, stages, dependencies, cycles, names, limits⟩
    exact ⟨⟨name, config⟩, ⟨⟨⟨stages, dependencies⟩, cycles⟩, names⟩, limits⟩

theorem not_valid (v : PipelineValidator) (p : Option Pipeline) :
    (v.validatePipeline p).Valid = false := by
  cases p with
  | none => rfl
  | some p =>
    rw [← Bool.not_eq_true, valid_iff_passes]
    exact fun passes => passes.nonempty rfl

structure RoundTrips (v : PipelineValidator) (p : Pipeline) (stages : List Stage) : Prop where
  carried : getStagesFromPipeline p = stages
  valid : (v.validatePipeline (some p)).Valid = true ↔ Passes v p stages

theorem built_not_roundTrips (origin : BuilderOrigin) (ops : List BuilderOp)
    (v : PipelineValidator) (p : Pipeline) (stages : List Stage)
    (built : (builderAfter origin ops).buildWithStages = .ok (p, stages)) :
    ¬ RoundTrips v p stages ∧
      (((v.validatePipeline (some p)).Valid = true ↔ Passes v p stages) ↔ ¬ Passes v p stages) := by
  obtain ⟨_, _, nonempty, _, rfl⟩ := buildWithStages_ok_iff.mp built
  refine ⟨fun trips => nonempty trips.carried.symm, ?_⟩
  rw [not_valid]
  simp

def testPipeline : Pipeline :=
  { newPipeline 1 0 "my-pipeline" 2 with
    Config := {
      MaxRetries := 3
      TimeoutSeconds := 300
      Concurrency := 1
      Priority := 5
      QueueName := "test.queue"
      RetryBackoffMS := 1000
      BackoffMultiplier := .finite 2
      Environment := "production" } }

def testOps : List BuilderOp := [
  .addStage 3 { Name := "fetch-data", TaskType := .http, Timeout := 30 * second, MaxRetry := 2 },
  .addStage 4 {
    Name := "transform", TaskType := .transform, Timeout := 10 * second, MaxRetry := 0
    DependsOn := ["fetch-data"] },
  .addStage 5 {
    Name := "notify", TaskType := .notification, Timeout := 5 * second, MaxRetry := 1
    DependsOn := ["transform"] }]

def testStages : List Stage := (builderAfter (.fromExisting testPipeline) testOps).stages

theorem testPipeline_built : (builderAfter (.fromExisting testPipeline) testOps).buildWithStages =
      .ok (testPipeline, testStages) := by
  refine buildWithStages_ok_iff.mpr ⟨by decide +kernel, by decide +kernel, by decide +kernel, ?_, rfl⟩
  rfl

theorem testPipeline_passes : Passes newPipelineValidator testPipeline testStages where
  name := by decide +kernel
  config := by decide +kernel
  each := by decide +kernel
  dependencies := by decide +kernel
  cycles := by decide +kernel
  names := by decide +kernel
  limits := by decide +kernel

theorem testPipeline_rejected :
    (builderAfter (.fromExisting testPipeline) testOps).buildWithStages =
        .ok (testPipeline, testStages) ∧ Passes newPipelineValidator testPipeline testStages ∧
      newPipelineValidator.validatePipeline (some testPipeline) =
        ⟨false, [⟨.str "stages", .str "pipeline must have at least one stage"⟩]⟩ ∧
      ¬ RoundTrips newPipelineValidator testPipeline testStages := by
  refine ⟨testPipeline_built, testPipeline_passes, by decide +kernel, fun trips => ?_⟩
  have valid := trips.valid.mpr testPipeline_passes
  rw [not_valid] at valid
  cases valid

theorem testPipeline_not_roundTrips :
    (builderAfter (.fromExisting testPipeline) testOps).buildWithStages =
        .ok (testPipeline, testStages) ∧
      ¬ RoundTrips newPipelineValidator testPipeline testStages :=
  ⟨testPipeline_built, (built_not_roundTrips _ _ _ _ _ testPipeline_built).1⟩

end NexusPipe.Proof.Pipeline
