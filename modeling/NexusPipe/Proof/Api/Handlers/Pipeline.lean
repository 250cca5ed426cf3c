import NexusPipe.Api.Handlers.Pipeline

namespace NexusPipe.Proof.Api.Handlers.Pipeline
open Library NexusPipe.Models NexusPipe.Repository NexusPipe.Api.Handlers

variable {body : UpdatePipelineBody}

def setFields (body : UpdatePipelineBody) (p : Models.Pipeline) : Models.Pipeline :=
  { p with
    Name := body.Name.getD p.Name
    Description := body.Description.getD p.Description
    Status := body.Status.getD p.Status
    Config := body.Config.elim p.Config (·.over p.Config)
    Tags := body.Tags.getD p.Tags }

def AgreeOutside (body : UpdatePipelineBody) (p q : Models.Pipeline) : Prop :=
  setFields body p = setFields body q

theorem getD_getD {α : Type} (given : Option α) (default : α) :
    given.getD (given.getD default) = given.getD default := by
  cases given <;> rfl

theorem over_over (config : ConfigBody) (base : PipelineConfig) :
    config.over (config.over base) = config.over base := by
  simp only [ConfigBody.over, getD_getD]

theorem updatePipeline_eq
    (handed : updatePipeline validID invalid body (.ok stored) = .ok pipeline) :
    pipeline = { setFields body stored with
      Config := (body.Config.map (·.over zeroPipelineConfig)).getD stored.Config } := by
  cases validID with
  | false => cases handed
  | true =>
    cases invalid with
    | some err => cases handed
    | none =>
      by_cases valid : (body.decode.Status.any (!·.isValid)) = true
      · simp [updatePipeline, valid, bind, Except.bind, pure, Except.pure, throw, throwThe,
          MonadExceptOf.throw] at handed
      · simp only [updatePipeline, valid] at handed
        cases handed
        rfl

theorem update_frame_iff
    (handed : updatePipeline validID invalid body (.ok stored) = .ok pipeline) :
    AgreeOutside body stored pipeline ↔
      ∀ config ∈ body.Config, config.over stored.Config = config.over zeroPipelineConfig := by
  rw [updatePipeline_eq handed]
  simp only [AgreeOutside, setFields, getD_getD, Pipeline.mk.injEq, true_and, and_true]
  cases body.Config with
  | none => simp
  | some config => simp [over_over]

def storedPipeline : Models.Pipeline := newPipeline 1 0 "import" 1

def retriesBody : UpdatePipelineBody where
  Config := some { MaxRetries := some 5 }

theorem update_frame_iff_sample :
    AgreeOutside { Name := some "export" } storedPipeline { storedPipeline with Name := "export" } :=
  have handed : updatePipeline true none { Name := some "export" } (.ok storedPipeline) =
      .ok { storedPipeline with Name := "export" } := rfl
  (update_frame_iff handed).mpr fun config member => by cases member

theorem silent_config_field_reset :
    ∃ pipeline, updatePipeline true none retriesBody (.ok storedPipeline) = .ok pipeline ∧
      storedPipeline.Config.TimeoutSeconds = 300 ∧ pipeline.Config.TimeoutSeconds = 0 ∧
      ¬ AgreeOutside retriesBody storedPipeline pipeline :=
  ⟨_, rfl, rfl, rfl, fun agree =>
    absurd (congrArg (·.Config.TimeoutSeconds) agree) (by decide)⟩

end NexusPipe.Proof.Api.Handlers.Pipeline
