import NexusPipe.Proof.Queue.Message
import NexusPipe.Worker.Handler

namespace NexusPipe.Proof.Worker
open Library Models NexusPipe.Queue NexusPipe.Worker NexusPipe.Repository List

section
variable (cfg : HandlerConfig) (host : HandlerHost) (call : DeliveryCall) (repo : TaskRepository)
  (msg : Delivery)

def Removed (run : HandlerRun) : Prop := ∃ e ∈ run.events, e.removes

def ReportedCompleted (run : HandlerRun) : Prop :=
  (∃ env, .processed env ∈ run.events) ∧ call.procErr = none ∧
    ∃ result ∈ call.result, result.Status = some .completed

def IsCopy (body : List UInt8) : Prop :=
  body = msg.Body ∨ ∃ env, envelopeFromDelivery host.toJsonHost msg = .ok env ∧
    (env.marshal host.toJsonHost).2 = .ok body

def CopyAccepted (run : HandlerRun) : Prop :=
  ∃ message, .published cfg.DLQName message true ∈ run.events ∧ IsCopy host msg message.Body

inductive Exit
  | undecodable
  | timedOut (env : Envelope)
  | succeeded (status : Option TaskStatus)
  | retried
  | failed (env : Envelope)

def exitOf : Exit :=
  match envelopeFromDelivery host.toJsonHost msg with
  | .error _ => .undecodable
  | .ok env =>
    match host.decodeTask (env.Payload.getD []) with
    | .error _ => .undecodable
    | .ok _ =>
      if call.timedOut then .timedOut env
      else match call.procErr, call.result with
        | some _, result => if retries cfg env result then .retried else .failed env
        | none, none => .failed env
        | none, some result =>
          if result.Status = some .failed then
            if retries cfg env (some result) then .retried else .failed env
          else .succeeded result.Status

inductive Handles : Exit → HandlerRun → Prop
  | undecodable (err : Text) : Handles .undecodable (handleDeserializeError cfg host call repo msg err)
  | timedOut {env : Envelope} (decoded : envelopeFromDelivery host.toJsonHost msg = .ok env) :
      Handles (.timedOut env) (handleTimeout cfg host call repo env)
  | succeeded {env : Envelope} {id : String} {result : TaskResult}
      (task : host.decodeTask (env.Payload.getD []) = .ok id)
      (decoded : envelopeFromDelivery host.toJsonHost msg = .ok env)
      (noErr : call.procErr = none) (reported : call.result = some result) :
      Handles (.succeeded result.Status) ((handleSuccess cfg call repo id).after [.processed env])
  | retried {env : Envelope} {id : String} (errMsg : String)
      (decoded : envelopeFromDelivery host.toJsonHost msg = .ok env)
      (task : host.decodeTask (env.Payload.getD []) = .ok id)
      (again : env.RetryCount < cfg.MaxRetries) :
      Handles .retried ((handleRetry cfg host call repo env id errMsg).after [.processed env])
  | failed {env : Envelope} {id : String} (errMsg : String)
      (decoded : envelopeFromDelivery host.toJsonHost msg = .ok env)
      (task : host.decodeTask (env.Payload.getD []) = .ok id)
      (incomplete : ¬ (call.procErr = none ∧
        ∃ result ∈ call.result, result.Status = some .completed)) :
      Handles (.failed env) ((routeToDLQ cfg host call (keepOnError repo
        (repo.updateStatus call.repoErr id .failed errMsg call.now)) msg env errMsg).after
          [.processed env])

def DLQTakes (env : Envelope) : Prop :=
  call.acquireErr = none ∧ call.accepted ∧ (env.marshal host.toJsonHost).2.isOk

def Kept : Exit → Prop
  | .undecodable => call.acquireErr = none ∧ call.accepted
  | .timedOut env => DLQTakes host call env
  | .succeeded status => cfg.AckOnSuccess → status = some .completed
  | .failed env => cfg.NackOnFailure → DLQTakes host call env
  | .retried => True

end

section
variable {cfg : HandlerConfig} {host : HandlerHost} {call : DeliveryCall} {repo : TaskRepository}
  {msg : Delivery} {env : Envelope}

section
@[simp]
theorem removes_processed : (HandlerEvent.processed env).removes = false := rfl

@[simp]
theorem removes_retryScheduled : (HandlerEvent.retryScheduled env).removes = false := rfl

@[simp]
theorem removes_settled :
    (HandlerEvent.settled how err).removes = (how ≠ .nack true ∧ err = none : Bool) := by
  rcases how with _ | _ | _ <;> cases err <;> rfl

@[simp]
theorem processedEnvelope_processed : processedEnvelope (.processed env) = some env := rfl

@[simp]
theorem processedEnvelope_retryScheduled : processedEnvelope (.retryScheduled env) = none := rfl

@[simp]
theorem processedEnvelope_settled : processedEnvelope (.settled how err) = none := rfl

@[simp]
theorem deadLettered_processed : deadLettered (.processed env) = none := rfl

@[simp]
theorem deadLettered_retryScheduled : deadLettered (.retryScheduled env) = none := rfl

@[simp]
theorem deadLettered_published :
    deadLettered (.published queue message accepted) = if accepted then some message else none := by
  cases accepted <;> rfl

@[simp]
theorem deadLettered_settled : deadLettered (.settled how err) = none := rfl

end

variable (cfg repo) in
theorem handles_processingError {id : String}
    (decoded : envelopeFromDelivery host.toJsonHost msg = .ok env)
    (task : host.decodeTask (env.Payload.getD []) = .ok id)
    (incomplete : ¬ (call.procErr = none ∧ ∃ result ∈ call.result, result.Status = some .completed))
    (result : Option TaskResult) (procErr : Option String) :
    Handles cfg host call repo msg (if retries cfg env result then .retried else .failed env)
      ((handleProcessingError cfg host call repo msg env id result procErr).after
        [.processed env]) := by
  unfold handleProcessingError
  by_cases again : retries cfg env result
  · simp only [if_pos again]
    exact .retried _ decoded task (of_decide_eq_true again).2
  · simp only [if_neg again]
    exact .failed _ decoded task incomplete

variable (cfg host call repo msg) in
theorem handleDelivery_handles : Handles cfg host call repo msg (exitOf cfg host call msg)
      (handleDelivery cfg host call repo msg) := by
  unfold exitOf handleDelivery
  cases decoded : envelopeFromDelivery host.toJsonHost msg with
  | error err => exact .undecodable err
  | ok env =>
    cases task : host.decodeTask (env.Payload.getD []) with
    | error err => simpa only [task] using .undecodable err
    | ok id =>
      simp only [task]
      cases call.timedOut with
      | true => exact .timedOut decoded
      | false =>
        simp only [Bool.false_eq_true, if_false, dispatchResult]
        cases err : call.procErr with
        | some procErr => exact handles_processingError cfg repo decoded task (by simp [err]) _ _
        | none =>
          cases reported : call.result with
          | none =>
            -- the result that stands in for a nil one is not retryable
            have incomplete : ¬ (call.procErr = none ∧
                ∃ result ∈ call.result, result.Status = some .completed) := by
              simp [reported]
            have handles := handles_processingError cfg repo decoded task incomplete
              (some { Status := some .failed, Error := "nil result from processor" }) none
            simpa [retries] using handles
          | some result =>
            by_cases failed : result.Status = some .failed
            · simp only [Option.getD_some, if_pos failed]
              exact handles_processingError cfg repo decoded task
                (by simp [reported, failed]) _ _
            · simp only [Option.getD_some, if_neg failed]
              exact .succeeded task decoded err reported

/-- The events before the settlement: at most a publish to the DLQ, which holds a copy of the message
exactly under the condition. -/
structure Routed (cfg : HandlerConfig) (host : HandlerHost) (msg : Delivery)
    (published : List HandlerEvent) (kept : Prop) : Prop where
  silent : ∀ e ∈ published, e.removes = false ∧ processedEnvelope e = none
  single : ∀ message, .published cfg.DLQName message true ∈ published ↔
    published.filterMap deadLettered = [message]
  copied : (∃ message, .published cfg.DLQName message true ∈ published ∧
    IsCopy host msg message.Body) ↔ kept

theorem routed_nil : Routed cfg host msg [] False := ⟨by simp, by simp, by simp⟩

theorem routed_publish {message : Publishing} (same : IsCopy host msg message.Body ↔ copy) :
    Routed cfg host msg [.published cfg.DLQName message accepted] (accepted ∧ copy) := by
  refine ⟨?_, ?_, ?_⟩
  · intro e member
    rw [mem_singleton.mp member]
    exact ⟨rfl, rfl⟩
  · cases accepted <;> simp [eq_comm]
  · rw [← same]
    constructor
    · rintro ⟨other, member, copied⟩
      cases mem_singleton.mp member
      exact ⟨rfl, copied⟩
    · rintro ⟨rfl, copied⟩
      exact ⟨message, mem_singleton.mpr rfl, copied⟩

section
variable (decoded : envelopeFromDelivery host.toJsonHost msg = .ok env)
include decoded

theorem isCopy_marshal (marshalled : (env.marshal host.toJsonHost).2 = .ok payload) :
    IsCopy host msg payload := .inr ⟨env, decoded, marshalled⟩

theorem body_ne_nil : msg.Body ≠ [] := by
  intro empty
  simp [envelopeFromDelivery, deserialize, Envelope.unmarshal, empty] at decoded

theorem isCopy_payload : IsCopy host msg ((env.marshal host.toJsonHost).2.toOption.getD []) ↔
      (env.marshal host.toJsonHost).2.isOk := by
  -- `handleTimeout` publishes an empty body when the envelope cannot be marshalled
  cases marshalled : (env.marshal host.toJsonHost).2 with
  | ok payload => exact iff_of_true (isCopy_marshal decoded marshalled) rfl
  | error err =>
    refine iff_of_false ?_ (by simp [Except.isOk, Except.toBool])
    rintro (same | ⟨other, decoded', marshalled'⟩)
    · exact body_ne_nil decoded same.symm
    · cases decoded.symm.trans decoded'
      cases marshalled.symm.trans marshalled'

end

section
variable (cfg host call repo msg)

theorem handleDeserializeError_routed (err : Text) :
    ∃ published, Routed cfg host msg published (call.acquireErr = none ∧ call.accepted) ∧
      (handleDeserializeError cfg host call repo msg err).events =
        published ++ [.settled (.nack false) call.settleErr] := by
  unfold handleDeserializeError
  cases acquired : call.acquireErr with
  | some problem => exact ⟨[], by simpa using routed_nil, rfl⟩
  | none =>
    have copy : IsCopy host msg (undecodableMessage host call msg err).Body ↔ True :=
      iff_of_true (.inl rfl) trivial
    refine ⟨_, ?_, rfl⟩
    simpa using routed_publish copy

theorem handleTimeout_routed (decoded : envelopeFromDelivery host.toJsonHost msg = .ok env) :
    ∃ published, Routed cfg host msg published (DLQTakes host call env) ∧
      (handleTimeout cfg host call repo env).events =
        published ++ [.settled (.nack false) call.settleErr] := by
  unfold handleTimeout DLQTakes
  cases acquired : call.acquireErr with
  | some problem => exact ⟨[], by simpa using routed_nil, rfl⟩
  | none =>
    have copy : IsCopy host msg (timeoutMessage cfg host call
        ((env.marshal host.toJsonHost).2.toOption.getD [])).Body ↔
        (env.marshal host.toJsonHost).2.isOk := isCopy_payload decoded
    refine ⟨_, ?_, rfl⟩
    simpa using routed_publish copy

theorem routeToDLQ_routed (decoded : envelopeFromDelivery host.toJsonHost msg = .ok env)
    (errMsg : String) :
    ∃ published, Routed cfg host msg published (DLQTakes host call env) ∧
      (routeToDLQ cfg host call repo msg env errMsg).events =
        published ++ if cfg.NackOnFailure then [.settled (.nack false) call.settleErr] else [] := by
  unfold routeToDLQ DLQTakes
  cases marshalled : (env.marshal host.toJsonHost).2 with
  | error err =>
    refine ⟨[], by simpa [Except.isOk, Except.toBool] using routed_nil, ?_⟩
    simp only [dlqFailed, settle]
    split <;> rfl
  | ok payload =>
    cases acquired : call.acquireErr with
    | some problem =>
      refine ⟨[], by simpa using routed_nil, ?_⟩
      simp only [dlqFailed, settle]
      split <;> rfl
    | none =>
      refine ⟨[.published cfg.DLQName (dlqMessage host call msg payload errMsg) call.accepted],
        ?_, ?_⟩
      · have copy : IsCopy host msg (dlqMessage host call msg payload errMsg).Body ↔ True :=
          iff_of_true (isCopy_marshal decoded marshalled) trivial
        simpa [Except.isOk, Except.toBool] using routed_publish copy
      · simp only [settle, HandlerRun.after]
        split <;> rfl

end

variable {run : HandlerRun}

theorem rejected_iff (noRemoval : ∀ e ∈ started, e.removes = false)
    (noPublish : ∀ message, .published cfg.DLQName message true ∉ started)
    (incomplete : ¬ ReportedCompleted call run) (routed : Routed cfg host msg published kept)
    (events : run.events = started ++ published ++ [.settled (.nack false) call.settleErr]) :
    (Removed run → ReportedCompleted call run ∨ CopyAccepted cfg host msg run) ↔
      call.settleErr ≠ none ∨ kept := by
  -- a rejected message is removed unless the settlement fails, and then the DLQ decides
  have removed : Removed run ↔ call.settleErr = none := by
    unfold Removed
    rw [events]
    constructor
    · rintro ⟨e, member, removes⟩
      simp only [mem_append, mem_singleton] at member
      rcases member with (before | before) | rfl
      · simp [noRemoval e before] at removes
      · simp [(routed.silent e before).1] at removes
      · simpa using removes
    · intro settled
      exact ⟨_, mem_append_right _ (mem_singleton.mpr rfl), by simp [settled]⟩
  have copied : CopyAccepted cfg host msg run ↔ kept := by
    rw [← routed.copied]
    unfold CopyAccepted
    rw [events]
    simp [noPublish]
  rw [removed, copied, or_iff_right incomplete]
  exact imp_iff_not_or

theorem unprocessed_iff (routed : Routed cfg host msg published kept)
    (events : run.events = published ++ [.settled (.nack false) call.settleErr]) :
    (Removed run → ReportedCompleted call run ∨ CopyAccepted cfg host msg run) ↔
      call.settleErr ≠ none ∨ kept := by
  have incomplete : ¬ ReportedCompleted call run := by
    rintro ⟨⟨env, member⟩, -⟩
    rw [events, mem_append, mem_singleton] at member
    rcases member with before | ⟨⟨⟩⟩
    simpa [processedEnvelope] using (routed.silent _ before).2
  have all : run.events = [] ++ published ++ [.settled (.nack false) call.settleErr] := events
  exact rejected_iff (by simp) (by simp) incomplete routed all

theorem failed_iff (decoded : envelopeFromDelivery host.toJsonHost msg = .ok env)
    (incomplete : ¬ (call.procErr = none ∧ ∃ result ∈ call.result, result.Status = some .completed))
    (errMsg : String) :
    let run := (routeToDLQ cfg host call repo msg env errMsg).after [.processed env]
    (Removed run → ReportedCompleted call run ∨ CopyAccepted cfg host msg run) ↔
      call.settleErr ≠ none ∨ (cfg.NackOnFailure → DLQTakes host call env) := by
  intro run
  obtain ⟨published, routed, events⟩ := routeToDLQ_routed cfg host call repo msg decoded errMsg
  have all : run.events = [.processed env] ++ published ++
      if cfg.NackOnFailure then [.settled (.nack false) call.settleErr] else [] := by
    change [.processed env] ++ (routeToDLQ cfg host call repo msg env errMsg).events = _
    rw [events, append_assoc]
  cases nack : cfg.NackOnFailure with
  | true =>
    rw [nack, if_pos rfl] at all
    have reported : ¬ ReportedCompleted call run := fun reported => incomplete reported.2
    simpa using rejected_iff (by simp) (by simp) reported routed all
  | false =>
    have stays : ¬ Removed run := by
      rintro ⟨e, member, removes⟩
      rw [all, nack] at member
      simp only [Bool.false_eq_true, if_false, append_nil, mem_append, mem_singleton] at member
      rcases member with rfl | before
      · simp at removes
      · simp [(routed.silent e before).1] at removes
    exact iff_of_true (fun removed => absurd removed stays) (.inr (by simp))

theorem succeeded_iff (noErr : call.procErr = none) (reported : call.result = some result)
    (id : String) : let run := (handleSuccess cfg call repo id).after [.processed env]
    (Removed run → ReportedCompleted call run ∨ CopyAccepted cfg host msg run) ↔
      call.settleErr ≠ none ∨ (cfg.AckOnSuccess → result.Status = some .completed) := by
  intro run
  have completed : ReportedCompleted call run ↔ result.Status = some .completed := by
    have processed : .processed env ∈ run.events := mem_cons_self
    simp only [ReportedCompleted, noErr, reported, Option.mem_def, Option.some.injEq,
      exists_eq_left', true_and, and_iff_right_iff_imp]
    exact fun _ => ⟨env, processed⟩
  have uncopied : ¬ CopyAccepted cfg host msg run := by
    rintro ⟨message, member, -⟩
    simp only [run, handleSuccess, settle, HandlerRun.after] at member
    split at member <;> simp at member
  have removed : Removed run ↔ cfg.AckOnSuccess ∧ call.settleErr = none := by
    cases ack : cfg.AckOnSuccess <;>
      simp [Removed, run, handleSuccess, settle, HandlerRun.after, ack]
  rw [completed, removed, or_iff_left uncopied]
  tauto

end

theorem handleDelivery_keeps_iff (cfg : HandlerConfig) (host : HandlerHost) (call : DeliveryCall)
    (repo : TaskRepository) (msg : Delivery) (outside : exitOf cfg host call msg ≠ .retried) :
    let run := handleDelivery cfg host call repo msg
    (Removed run → ReportedCompleted call run ∨ CopyAccepted cfg host msg run) ↔
      call.settleErr ≠ none ∨ Kept cfg host call (exitOf cfg host call msg) := by
  have handles := handleDelivery_handles cfg host call repo msg
  generalize exitOf cfg host call msg = exit, handleDelivery cfg host call repo msg = run
    at outside handles ⊢
  cases handles with
  | undecodable err =>
    obtain ⟨published, routed, events⟩ := handleDeserializeError_routed cfg host call repo msg err
    exact unprocessed_iff routed events
  | timedOut decoded =>
    obtain ⟨published, routed, events⟩ := handleTimeout_routed cfg host call repo msg decoded
    exact unprocessed_iff routed events
  | succeeded task decoded noErr reported => exact succeeded_iff noErr reported _
  | retried => exact absurd rfl outside
  | failed errMsg decoded task incomplete => exact failed_iff decoded incomplete errMsg

def sampleHandlerHost : HandlerHost where
  toJsonHost := Queue.sampleHost
  decodeTask _ := .ok "t-1"
  formatDuration _ := "0s"
  formatRFC3339 _ := "0001-01-01T00:00:00Z"

def emptyDelivery : Delivery where
  DeliveryTag := 1
  Redelivered := false
  RoutingKey := "task.process"
  Body := []

theorem exitOf_emptyDelivery (cfg : HandlerConfig) (host : HandlerHost) (call : DeliveryCall) :
    exitOf cfg host call emptyDelivery = .undecodable := rfl

theorem handleDelivery_keeps_undecodable :
    let run := handleDelivery defaultHandlerConfig sampleHandlerHost { now := .zero } ∅ emptyDelivery
    Removed run → ReportedCompleted { now := .zero } run ∨
      CopyAccepted defaultHandlerConfig sampleHandlerHost emptyDelivery run :=
  (handleDelivery_keeps_iff defaultHandlerConfig sampleHandlerHost { now := .zero } ∅ emptyDelivery
    (by simp [exitOf_emptyDelivery])).mpr
    (.inr (by simp [exitOf_emptyDelivery, Kept]))

theorem handleDelivery_drops_undecodable :
    let call : DeliveryCall :=
      { acquireErr := some (.str "rabbitmq connection is closed"), now := .zero }
    let run := handleDelivery defaultHandlerConfig sampleHandlerHost call ∅ emptyDelivery
    exitOf defaultHandlerConfig sampleHandlerHost call emptyDelivery ≠ .retried ∧ Removed run ∧
      ¬ ReportedCompleted call run ∧
      ¬ CopyAccepted defaultHandlerConfig sampleHandlerHost emptyDelivery run := by
  intro call run
  have events : run.events = [.settled (.nack false) none] := rfl
  refine ⟨by simp [exitOf_emptyDelivery], ⟨.settled (.nack false) none, by simp [events], rfl⟩,
    ?_, ?_⟩
  · rintro ⟨⟨env, member⟩, -⟩
    simp [events] at member
  · rintro ⟨message, member, -⟩
    simp [events] at member

def isSettled : HandlerEvent → Bool
  | .settled .. => true
  | _ => false

theorem handleDelivery_settles_last (cfg : HandlerConfig) (host : HandlerHost) (call : DeliveryCall)
    (repo : TaskRepository) (msg : Delivery) :
    let events := (handleDelivery cfg host call repo msg).events
    (∀ e ∈ events.dropLast, isSettled e = false) ∧
      (cfg.AckOnSuccess → cfg.NackOnFailure → ∃ e ∈ events.getLast?, isSettled e) := by
  have handles := handleDelivery_handles cfg host call repo msg
  generalize exitOf cfg host call msg = exit at handles
  generalize handleDelivery cfg host call repo msg = run at handles ⊢
  cases handles with
  | undecodable err =>
    unfold handleDeserializeError
    cases call.acquireErr <;> simp [isSettled, settle, HandlerRun.after]
  | timedOut decoded =>
    unfold handleTimeout
    cases call.acquireErr <;> simp [isSettled, settle, HandlerRun.after]
  | succeeded =>
    unfold handleSuccess
    split <;> simp_all [isSettled, settle, HandlerRun.after]
  | retried =>
    unfold handleRetry
    split <;> simp_all [isSettled, settle, HandlerRun.after]
  | failed =>
    unfold routeToDLQ dlqFailed
    repeat' split
    all_goals simp_all [isSettled, settle, HandlerRun.after]

end NexusPipe.Proof.Worker
