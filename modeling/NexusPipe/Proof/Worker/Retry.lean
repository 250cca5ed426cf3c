import NexusPipe.Proof.Worker.Handler

namespace NexusPipe.Proof.Worker
open Library Models NexusPipe.Queue NexusPipe.Worker NexusPipe.Repository TaskRepository HandlerRun
open Option
open MessageState

structure FailsRetryably (call : DeliveryCall) : Prop where
  inTime : call.timedOut = false
  retryable : ∃ result, call.result = some result ∧ result.Retryable ∧
    (call.procErr ≠ none ∨ result.Status = some .failed)

def deliveries (cfg : HandlerConfig) (host : HandlerHost) (calls : Nat → DeliveryCall)
    (s : MessageState) : Nat → MessageState
  | 0 => s
  | k + 1 =>
    let t := deliveries cfg host calls s k
    (t.deliver cfg host (calls k)).getD t

/-- In the end the message has been processed `MaxRetries + 1` times, with a `RetryCount` that grows
by one, and is in the DLQ once. -/
def Exhausts (cfg : HandlerConfig) (host : HandlerHost) (msg : Delivery)
    (states : Nat → MessageState) : Prop :=
  ∃ last, ∀ k ≥ last,
    (states k).processed.length = cfg.MaxRetries.toInt + 1 ∧
    (states k).processed.IsChain (fun env next => next.RetryCount = env.RetryCount + 1) ∧
    ∃ message, (states k).dead = [message] ∧ IsCopy host msg message.Body

section
variable {cfg : HandlerConfig} {host : HandlerHost} {call : DeliveryCall} {msg : Delivery}
  {env : Envelope} {id : String} {s t : MessageState}

theorem exitOf_failing (decoded : envelopeFromDelivery host.toJsonHost msg = .ok env)
    (task : host.decodeTask (env.Payload.getD []) = .ok id) (fails : FailsRetryably call) :
    exitOf cfg host call msg = if env.RetryCount < cfg.MaxRetries then .retried else .failed env := by
  obtain ⟨inTime, result, reported, retryable, failed⟩ := fails
  have again : retries cfg env (some result) = decide (env.RetryCount < cfg.MaxRetries) := by
    simp [retries, retryable]
  simp only [exitOf, decoded, task, inTime, Bool.false_eq_true, if_false, reported]
  cases err : call.procErr with
  | some procErr => simp only [again, decide_eq_true_eq]
  | none =>
    have failed : result.Status = some .failed := failed.resolve_left (absurd err)
    simp only [if_pos failed, again, decide_eq_true_eq]

structure FailedDelivery (cfg : HandlerConfig) (host : HandlerHost) (call : DeliveryCall)
    (msg : Delivery) (env : Envelope) (s t : MessageState) : Prop where
  processed : t.processed = s.processed ++ [env]
  back : ∀ m ∈ t.queued, m = { msg with Redelivered := true }
  retried : env.RetryCount < cfg.MaxRetries →
    (t.queued = none ↔ cfg.RequeueOnNack = false ∧ call.settleErr = none) ∧ t.dead = s.dead
  exhausted : ¬ env.RetryCount < cfg.MaxRetries → (t.queued = none ↔ call.settleErr = none) ∧
    ∃ dead, t.dead = s.dead ++ dead ∧
      ((∃ message, dead = [message] ∧ IsCopy host msg message.Body) ↔ DLQTakes host call env)

theorem deliver_failing (nacks : cfg.NackOnFailure) (queued : s.queued = some msg)
    (decoded : envelopeFromDelivery host.toJsonHost msg = .ok env)
    (task : host.decodeTask (env.Payload.getD []) = .ok id) (fails : FailsRetryably call) :
    ∃ t, s.deliver cfg host call = some t ∧ FailedDelivery cfg host call msg env s t := by
  have handles := handleDelivery_handles cfg host call s.repo msg
  simp only [deliver, queued, map_some, some.injEq, exists_eq_left']
  rw [exitOf_failing decoded task fails] at handles
  generalize handleDelivery cfg host call s.repo msg = run at handles ⊢
  by_cases again : env.RetryCount < cfg.MaxRetries
  · rw [if_pos again] at handles
    cases handles with
    | retried errMsg decoded' task' =>
      cases decoded.symm.trans decoded'
      refine ⟨?_, by simp +contextual, fun _ => ⟨?_, ?_⟩, fun last => absurd again last⟩ <;>
        simp [handleRetry, nacks, settle, after, List.filterMap_cons]
  · rw [if_neg again] at handles
    cases handles with
    | failed errMsg decoded' task' =>
      cases task.symm.trans task'
      obtain ⟨published, routed, events⟩ := routeToDLQ_routed cfg host call
        (keepOnError s.repo (s.repo.updateStatus call.repoErr id .failed errMsg call.now)) msg decoded
        errMsg
      rw [nacks, if_pos rfl] at events
      have silent : published.filterMap processedEnvelope = [] :=
        List.filterMap_eq_nil_iff.mpr fun e member => (routed.silent e member).2
      have stays : published.any (·.removes) = false := by
        simpa using fun e member => (routed.silent e member).1
      refine ⟨?_, by simp +contextual, fun h => absurd h again, fun _ => ⟨?_, _, rfl, ?_⟩⟩
      · simp [after, events, silent, List.filterMap_cons]
      · simp [after, events, stays]
      · simpa [after, events, List.filterMap_cons, ← routed.single] using routed.copied

structure Repeats (host : HandlerHost) (env : Envelope) (s : MessageState) : Prop where
  same : ∀ e ∈ s.processed, e = env
  again : ∀ m ∈ s.queued, envelopeFromDelivery host.toJsonHost m = .ok env

theorem Repeats.deliver (repeats : Repeats host env s)
    (failed : FailedDelivery cfg host call msg env s t) (queued : s.queued = some msg) :
    Repeats host env t := by
  refine ⟨?_, ?_⟩
  · intro e member
    rw [failed.processed, List.mem_append, List.mem_singleton] at member
    exact member.elim (repeats.same e) id
  · intro m member
    rw [failed.back m member]
    exact repeats.again msg queued

theorem Repeats.length_le_one (repeats : Repeats host env s)
    (chain : s.processed.IsChain fun env next => next.RetryCount = env.RetryCount + 1) :
    s.processed.length ≤ 1 := by
  -- the count does not grow from one delivery to the next, so a chain of counts has one element
  match processed : s.processed with
  | [] => simp
  | [_] => simp
  | first :: second :: _ =>
    rw [processed] at chain
    have grows := (List.isChain_cons_cons.mp chain).1
    rw [repeats.same first (by simp [processed]), repeats.same second (by simp [processed])] at grows
    simp at grows

section
variable {calls : Nat → DeliveryCall}

theorem deliveries_of_none (gone : (deliveries cfg host calls s k).queued = none) :
    ∀ n ≥ k, deliveries cfg host calls s n = deliveries cfg host calls s k := by
  intro n later
  induction n, later using Nat.le_induction with
  | base => rfl
  | succ n _ ih => simp [deliveries, ih, deliver, gone]

section
variable (nacks : cfg.NackOnFailure) (task : host.decodeTask (env.Payload.getD []) = .ok id)
  (fails : ∀ k, FailsRetryably (calls k))
include nacks task fails

theorem deliveries_failed (repeats : Repeats host env (deliveries cfg host calls s k))
    (queued : (deliveries cfg host calls s k).queued = some msg) :
    FailedDelivery cfg host (calls k) msg env (deliveries cfg host calls s k)
      (deliveries cfg host calls s (k + 1)) := by
  obtain ⟨t, delivered, failed⟩ :=
    deliver_failing nacks queued (repeats.again msg queued) task (fails k)
  simpa only [deliveries, delivered, getD_some] using failed

theorem deliveries_repeats (start : Repeats host env s) (k : Nat) :
    Repeats host env (deliveries cfg host calls s k) := by
  induction k with
  | zero => exact start
  | succ k ih =>
    cases queued : (deliveries cfg host calls s k).queued with
    | none => exact deliveries_of_none queued (k + 1) (by omega) ▸ ih
    | some m => exact ih.deliver (deliveries_failed nacks task fails ih queued) queued

theorem processed_length_succ (start : Repeats host env s)
    (queued : (deliveries cfg host calls s k).queued ≠ none) :
    (deliveries cfg host calls s (k + 1)).processed.length =
      (deliveries cfg host calls s k).processed.length + 1 := by
  obtain ⟨m, queued⟩ := ne_none_iff_exists'.mp queued
  have repeats := deliveries_repeats nacks task fails start k
  simp [(deliveries_failed nacks task fails repeats queued).processed]

theorem first_delivery (start : Repeats host env s) (queued : s.queued = some msg) :
    ∃ first, deliveries cfg host calls s 1 = first ∧
      FailedDelivery cfg host (calls 0) msg env s first :=
  ⟨_, rfl, deliveries_failed nacks task fails (k := 0) start queued⟩

theorem retried_once (drops : cfg.RequeueOnNack = false) (start : Repeats host env s)
    (again : env.RetryCount < cfg.MaxRetries) (queued : s.queued = some msg)
    (settled : (calls 0).settleErr = none) (k : Nat) (later : 1 ≤ k) :
    let t := deliveries cfg host calls s k
    t.queued = none ∧ t.processed = s.processed ++ [env] ∧ t.dead = s.dead := by
  obtain ⟨first, one, failed⟩ := first_delivery nacks task fails start queued
  obtain ⟨gone, dead⟩ := failed.retried again
  rw [deliveries_of_none (k := 1) (by rw [one]; exact gone.mpr ⟨drops, settled⟩) k later, one]
  exact ⟨gone.mpr ⟨drops, settled⟩, failed.processed, dead⟩

theorem retried_forever (requeues : cfg.RequeueOnNack) (start : Repeats host env s)
    (again : env.RetryCount < cfg.MaxRetries) (queued : s.queued ≠ none) (k : Nat) :
    let t := deliveries cfg host calls s k
    t.queued ≠ none ∧ t.processed.length = s.processed.length + k ∧ t.dead = s.dead := by
  induction k with
  | zero => exact ⟨queued, rfl, rfl⟩
  | succ k ih =>
    obtain ⟨queued, length, dead⟩ := ih
    have longer := processed_length_succ nacks task fails start queued
    obtain ⟨m, queued⟩ := ne_none_iff_exists'.mp queued
    have repeats := deliveries_repeats nacks task fails start k
    obtain ⟨stays, same⟩ := (deliveries_failed nacks task fails repeats queued).retried again
    exact ⟨by simp [stays, requeues], by rw [longer, length, Nat.add_assoc], same.trans dead⟩

end

variable (cfg host s calls) in
theorem processed_length_mono :
    Monotone fun k => (deliveries cfg host calls s k).processed.length := by
  refine monotone_nat_of_le_succ fun k => ?_
  cases queued : (deliveries cfg host calls s k).queued <;>
    simp [deliveries, deliver, queued]

theorem exhausts_iff_no_retries {repo : TaskRepository} (nacks : cfg.NackOnFailure)
    (decoded : envelopeFromDelivery host.toJsonHost msg = .ok env)
    (task : host.decodeTask (env.Payload.getD []) = .ok id) (fails : ∀ k, FailsRetryably (calls k)) :
    Exhausts cfg host msg (deliveries cfg host calls { repo, queued := some msg }) ↔
      cfg.MaxRetries = 0 ∧ 0 ≤ env.RetryCount ∧ DLQTakes host (calls 0) env ∧
        (calls 0).settleErr = none := by
  have start : Repeats host env { repo, queued := some msg } := ⟨by simp, by simpa using decoded⟩
  have repeats := deliveries_repeats nacks task fails start
  obtain ⟨first, one, failed⟩ := first_delivery nacks task fails start rfl
  have single : first.processed = [env] := failed.processed
  constructor
  · rintro ⟨last, done⟩
    obtain ⟨length, chain, message, dead, copy⟩ := done (max last 2) (by omega)
    have once := (repeats (max last 2)).length_le_one chain
    have grows := processed_length_mono cfg host { repo, queued := some msg } calls
    have processed := grows (show 1 ≤ max last 2 by omega)
    simp only [one, single, List.length_singleton] at processed
    have zero : cfg.MaxRetries = 0 := Int64.toInt_inj.mp (show cfg.MaxRetries.toInt = 0 by omega)
    have gone : first.queued = none := by
      by_contra queued
      have twice := processed_length_succ nacks task fails start (k := 1) (one ▸ queued)
      have still := grows (show 1 + 1 ≤ max last 2 by omega)
      simp only [one, single, List.length_singleton] at twice still
      omega
    rw [deliveries_of_none (k := 1) (by rw [one, gone]) _ (by omega), one] at dead
    have exhausted : ¬ env.RetryCount < cfg.MaxRetries := by
      intro again
      simp [(failed.retried again).2] at dead
    obtain ⟨settled, taken, appended, takes⟩ := failed.exhausted exhausted
    rw [appended, List.nil_append] at dead
    rw [zero] at exhausted
    exact ⟨zero, Int64.not_lt.mp exhausted, takes.mp ⟨message, dead, copy⟩, settled.mp gone⟩
  · rintro ⟨zero, counted, takes, settled⟩
    have exhausted : ¬ env.RetryCount < cfg.MaxRetries := by
      rw [zero]
      exact Int64.not_lt.mpr counted
    obtain ⟨gone, taken, appended, copied⟩ := failed.exhausted exhausted
    obtain ⟨message, rfl, copy⟩ := copied.mpr takes
    refine ⟨1, fun k later => ?_⟩
    rw [deliveries_of_none (by rw [one]; exact gone.mpr settled) k later, one, single, zero, appended]
    exact ⟨rfl, .singleton env, message, rfl, copy⟩

end
end

def sampleTask : Envelope where
  ID := "m-2"
  MessageType := "task"
  Payload := some [0x7b, 0x7d]

def sampleDelivery : Delivery where
  DeliveryTag := 1
  Redelivered := false
  RoutingKey := "task.process"
  Body := (sampleTask.marshal Queue.sampleHost).2.toOption.getD []

theorem sampleDelivery_decoded :
    envelopeFromDelivery sampleHandlerHost.toJsonHost sampleDelivery = .ok sampleTask.setHeaders := by
  obtain ⟨data, marshalled, opened⟩ := Queue.unmarshal_marshal (e := sampleTask) (by decide)
    (by decide) (by simp [sampleTask]) Queue.sampleHost_times
  have body : sampleDelivery.Body = data := by
    simp only [sampleDelivery, marshalled, Except.toOption, getD_some]
  have host : sampleHandlerHost.toJsonHost = Queue.sampleHost := rfl
  rw [envelopeFromDelivery, deserialize, body, host, opened]

def retryableFailure : DeliveryCall where
  result := some { Status := some .failed, Error := "timeout", Retryable := true }
  now := .zero

theorem retryableFailure_fails : FailsRetryably retryableFailure :=
  ⟨rfl, _, rfl, rfl, .inr rfl⟩

theorem sampleTask_taken : DLQTakes sampleHandlerHost retryableFailure sampleTask.setHeaders := by
  obtain ⟨headers, present, -, strings⟩ :=
    Queue.setHeaders_strings (e := sampleTask) (by simp [sampleTask])
  obtain ⟨data, marshalled, -⟩ := Queue.unmarshal_marshal (e := sampleTask.setHeaders) (by decide)
    (by decide) (fun other same => mem_unique present same ▸ strings)
    Queue.sampleHost_times
  exact ⟨rfl, rfl, isOk_iff.mpr ⟨data, marshalled⟩⟩

theorem exhausts_without_retries :
    let cfg := { defaultHandlerConfig with MaxRetries := 0 }
    Exhausts cfg sampleHandlerHost sampleDelivery
      (deliveries cfg sampleHandlerHost (fun _ => retryableFailure)
        { repo := ∅, queued := some sampleDelivery }) :=
  (exhausts_iff_no_retries rfl sampleDelivery_decoded rfl fun _ => retryableFailure_fails).mpr
    ⟨rfl, by decide, sampleTask_taken, rfl⟩

theorem retries_drop_or_repeat :
    let states := fun cfg => deliveries cfg sampleHandlerHost (fun _ => retryableFailure)
      { repo := ∅, queued := some sampleDelivery }
    FailsRetryably retryableFailure ∧
      (∀ k ≥ 1, let t := states defaultHandlerConfig k
        t.queued = none ∧ t.processed.length = 1 ∧ t.dead = []) ∧
      ∀ k, let t := states { defaultHandlerConfig with RequeueOnNack := true } k
        t.queued ≠ none ∧ t.processed.length = k ∧ t.dead = [] := by
  have fails : ∀ _ : Nat, FailsRetryably retryableFailure := fun _ => retryableFailure_fails
  have start : Repeats sampleHandlerHost sampleTask.setHeaders
      { repo := ∅, queued := some sampleDelivery } :=
    ⟨by simp, by simpa using sampleDelivery_decoded⟩
  refine ⟨retryableFailure_fails, fun k later => ?_, fun k => ?_⟩
  · have nacks : defaultHandlerConfig.NackOnFailure := rfl
    obtain ⟨gone, processed, dead⟩ :=
      retried_once nacks rfl fails rfl start (by decide) rfl rfl k later
    exact ⟨gone, congrArg List.length processed, dead⟩
  · have nacks : { defaultHandlerConfig with RequeueOnNack := true }.NackOnFailure := rfl
    obtain ⟨queued, length, dead⟩ :=
      retried_forever nacks rfl fails rfl start (by decide) (by simp) k
    exact ⟨queued, by simpa using length, dead⟩

def Exit.isRetry : Exit → Bool
  | .retried => true
  | _ => false

/-- After the delivery, a task that is to be retried is not stored as terminal, and one that went to
the DLQ as failed is stored as failed. -/
def StatusFits (cfg : HandlerConfig) (host : HandlerHost) (id : String) (s : MessageState)
    (call : DeliveryCall) : Prop :=
  ∀ msg ∈ s.queued, let run := handleDelivery cfg host call s.repo msg
    ((∃ env, .retryScheduled env ∈ run.events) →
      ∃ row ∈ run.repo.lookup id, ¬ row.Status.isTerminal) ∧
    ∀ env, exitOf cfg host call msg = .failed env → ∃ row ∈ run.repo.lookup id, row.Status = .failed

def retriesIn (cfg : HandlerConfig) (host : HandlerHost) (msg : Delivery) (calls : List DeliveryCall) :
    Nat :=
  calls.countP fun call => (exitOf cfg host call msg).isRetry

section
variable {cfg : HandlerConfig} {host : HandlerHost} {call : DeliveryCall} {repo : TaskRepository}
  {msg : Delivery} {env : Envelope} {id : String} {exit : Exit} {row : TaskExecution}

theorem routeToDLQ_repo (errMsg : String) :
    (routeToDLQ cfg host call repo msg env errMsg).repo = repo := by
  unfold routeToDLQ dlqFailed
  split <;> split <;> try split
  all_goals rfl

theorem not_retryScheduled_routeToDLQ (errMsg : String) (env' : Envelope) :
    .retryScheduled env' ∉ (routeToDLQ cfg host call repo msg env errMsg).events := by
  unfold routeToDLQ dlqFailed
  split <;> split <;> try split
  all_goals simp [settle, after]

theorem retryScheduled_iff (handles : Handles cfg host call repo msg exit run) :
    (∃ env, .retryScheduled env ∈ run.events) ↔ exit = .retried := by
  cases handles with
  | undecodable err =>
    simp only [handleDeserializeError, settle]
    split <;> simp [after]
  | timedOut =>
    simp only [handleTimeout, settle]
    split <;> simp [after]
  | succeeded =>
    simp only [handleSuccess, settle, after]
    split <;> simp
  | retried =>
    simp only [handleRetry, settle, after]
    split <;> simp
  | failed errMsg => simp [after, not_retryScheduled_routeToDLQ]

theorem lookup_updateStatus (stored : repo.lookup id = some row) (status : TaskStatus)
    (errMsg : String) (now : Time) :
    (keepOnError repo (repo.updateStatus none id status errMsg now)).lookup id =
      some (withStatus row status errMsg now) := by
  simp [updateStatus, stored, keepOnError]

theorem lookup_incrementRetry (stored : repo.lookup id = some row)
    (room : row.RetryCount + 1 < 2 ^ 31) (errMsg : String) (now : Time) :
    (keepOnError repo (repo.incrementRetry none id errMsg now)).lookup id =
      some (withRetry row errMsg now) := by
  simp only [incrementRetry, stored, if_neg (Int.not_le.mpr room), keepOnError]
  simp

structure StoredAfter (exit : Exit) (row row' : TaskExecution) : Prop where
  limit : row'.MaxRetries = row.MaxRetries
  count : row'.RetryCount = row.RetryCount + exit.isRetry.toNat
  retried : exit = .retried →
    row'.Status = if row.RetryCount + 1 ≥ row.MaxRetries then .failed else .pending
  failed : ∀ env, exit = .failed env → row'.Status = .failed

theorem storedAfter (handles : Handles cfg host call repo msg exit run)
    (decoded : envelopeFromDelivery host.toJsonHost msg = .ok env)
    (task : host.decodeTask (env.Payload.getD []) = .ok id) (works : call.repoErr = none)
    (stored : repo.lookup id = some row) (room : exit = .retried → row.RetryCount + 1 < 2 ^ 31) :
    ∃ row', run.repo.lookup id = some row' ∧ StoredAfter exit row row' := by
  cases handles with
  | undecodable err =>
    refine ⟨row, ?_, rfl, by simp [Exit.isRetry], by simp, by simp⟩
    rw [← stored, handleDeserializeError]
    split <;> rfl
  | timedOut decoded' =>
    refine ⟨row, ?_, rfl, by simp [Exit.isRetry], by simp, by simp⟩
    rw [← stored, handleTimeout]
    split <;> rfl
  | succeeded task' decoded' =>
    cases decoded.symm.trans decoded'
    cases task.symm.trans task'
    refine ⟨withStatus row .completed "" call.now, ?_, rfl, by
      simp [Exit.isRetry, withStatus], by simp, by simp⟩
    rw [← lookup_updateStatus stored, handleSuccess, works]
    split <;> rfl
  | retried errMsg decoded' task' =>
    cases decoded.symm.trans decoded'
    cases task.symm.trans task'
    refine ⟨withRetry row errMsg call.now, ?_, rfl, rfl, fun _ => rfl, by simp⟩
    rw [← lookup_incrementRetry stored (room rfl), handleRetry, works]
    split <;> rfl
  | failed errMsg decoded' task' =>
    cases decoded.symm.trans decoded'
    cases task.symm.trans task'
    refine ⟨withStatus row .failed errMsg call.now, ?_, rfl, by
      simp [Exit.isRetry, withStatus], by simp, fun _ _ => rfl⟩
    rw [← lookup_updateStatus stored, works]
    exact congrArg (·.lookup id) (routeToDLQ_repo errMsg)

theorem statusFits_iff {s : MessageState} (queued : s.queued = some msg)
    (decoded : envelopeFromDelivery host.toJsonHost msg = .ok env)
    (task : host.decodeTask (env.Payload.getD []) = .ok id) (works : call.repoErr = none)
    (stored : s.repo.lookup id = some row)
    (room : exitOf cfg host call msg = .retried → row.RetryCount + 1 < 2 ^ 31) :
    StatusFits cfg host id s call ↔
      (exitOf cfg host call msg = .retried → row.RetryCount + 1 < row.MaxRetries) := by
  -- on a retry the stored status is terminal from the last but one count on
  have handles := handleDelivery_handles cfg host call s.repo msg
  obtain ⟨row', stored', after⟩ := storedAfter handles decoded task works stored room
  simp only [StatusFits, queued, mem_def, some.injEq, forall_eq', stored',
    exists_eq_left', retryScheduled_iff handles]
  rw [and_iff_left after.failed]
  refine imp_congr_right fun retried => ?_
  rw [after.retried retried]
  split <;> simp_all [TaskStatus.isTerminal]

variable (cfg host msg) in
theorem retriesIn_cons (call : DeliveryCall) (calls : List DeliveryCall) :
    retriesIn cfg host msg (call :: calls) =
      retriesIn cfg host msg calls + (exitOf cfg host call msg).isRetry.toNat := by
  cases retry : (exitOf cfg host call msg).isRetry <;> simp [retriesIn, retry]

theorem deliver_queued {s : MessageState} (queued : s.queued = some msg)
    (delivered : s.deliver cfg host call = some t) :
    t.repo = (handleDelivery cfg host call s.repo msg).repo ∧
      (t.queued = none ∨ t.queued = some { msg with Redelivered := true }) := by
  simp only [deliver, queued, map_some] at delivered
  cases delivered
  refine ⟨rfl, ?_⟩
  dsimp only
  split
  · exact .inl rfl
  · exact .inr rfl

theorem stored_status_fits_iff {s t : MessageState} {calls : List DeliveryCall}
    (queued : s.queued = some msg) (decoded : envelopeFromDelivery host.toJsonHost msg = .ok env)
    (task : host.decodeTask (env.Payload.getD []) = .ok id)
    (stored : s.repo.lookup id = some row) (counts : row.RetryCount = env.RetryCount.toInt)
    (limits : row.MaxRetries = cfg.MaxRetries.toInt)
    (ran : runSchedule (MessageState.deliver cfg host) s calls = some t)
    (works : ∀ call ∈ calls, call.repoErr = none)
    (room : row.RetryCount + retriesIn cfg host msg calls < 2 ^ 31) :
    Along (MessageState.deliver cfg host) (StatusFits cfg host id) s calls ↔
      retriesIn cfg host msg calls = 0 ∨
        env.RetryCount.toInt + retriesIn cfg host msg calls < cfg.MaxRetries.toInt := by
  rw [← counts, ← limits]
  clear counts limits
  induction calls generalizing s msg row with
  | nil => simp [Along, retriesIn]
  | cons call calls ih =>
    obtain ⟨middle, delivered, rest⟩ := runSchedule_cons.mp ran
    have noErr := works call List.mem_cons_self
    have counted := retriesIn_cons cfg host msg call calls
    have here : exitOf cfg host call msg = .retried → row.RetryCount + 1 < 2 ^ 31 := by
      intro retried
      simp only [counted, retried, Exit.isRetry, Bool.toNat_true] at room
      omega
    obtain ⟨row', stored', after⟩ := storedAfter (handleDelivery_handles cfg host call s.repo msg)
      decoded task noErr stored here
    obtain ⟨rows, back⟩ := deliver_queued queued delivered
    rw [← rows] at stored'
    have first := statusFits_iff queued decoded task noErr stored here
    have split : Along (deliver cfg host) (StatusFits cfg host id) s (call :: calls) ↔
        StatusFits cfg host id s call ∧
          Along (deliver cfg host) (StatusFits cfg host id) middle calls := by
      simp [Along, delivered]
    have tail : Along (deliver cfg host) (StatusFits cfg host id) middle calls ↔
        retriesIn cfg host msg calls = 0 ∨
          row'.RetryCount + retriesIn cfg host msg calls < row'.MaxRetries := by
      rcases back with gone | again
      · cases calls with
        | nil => simp [Along, retriesIn]
        | cons => simp [runSchedule, deliver, gone] at rest
      · -- the body is the same, and with it what the calls lead to
        have fits : row'.RetryCount + retriesIn cfg host msg calls < 2 ^ 31 := by
          rw [after.count]
          rw [counted] at room
          omega
        have later := ih again decoded stored' rest (fun c member => works c (by simp [member])) fits
        exact later
    rw [split, first, tail, after.limit, after.count, counted]
    cases exitOf cfg host call msg with
    | retried =>
      simp only [Exit.isRetry, Bool.toNat_true, forall_const]
      omega
    | _ => simp [Exit.isRetry]

end

def storedTask (maxRetries : Int) : TaskExecution where
  Status := .running
  MaxRetries := maxRetries
  UpdatedAt := .zero

def storedRow (maxRetries : Int) : TaskRepository :=
  (∅ : TaskRepository).insert "t-1" (storedTask maxRetries)

theorem exitOf_sampleDelivery {cfg : HandlerConfig} (again : 0 < cfg.MaxRetries) :
    exitOf cfg sampleHandlerHost retryableFailure sampleDelivery = .retried := by
  rw [exitOf_failing sampleDelivery_decoded rfl retryableFailure_fails]
  exact if_pos again

theorem stored_status_fits_first_retry :
    Along (MessageState.deliver defaultHandlerConfig sampleHandlerHost)
      (StatusFits defaultHandlerConfig sampleHandlerHost "t-1")
      { repo := storedRow 3, queued := some sampleDelivery } [retryableFailure] := by
  have exit : exitOf defaultHandlerConfig sampleHandlerHost retryableFailure sampleDelivery = .retried :=
    exitOf_sampleDelivery (by decide)
  have one : retriesIn defaultHandlerConfig sampleHandlerHost sampleDelivery [retryableFailure] = 1 := by
    simp [retriesIn, exit, Exit.isRetry]
  have stored : (storedRow 3).lookup "t-1" = some (storedTask 3) := by simp [storedRow]
  refine (stored_status_fits_iff rfl sampleDelivery_decoded rfl stored rfl rfl rfl
    (by simp [retryableFailure]) ?_).mpr (.inr ?_)
  · rw [one]
    decide
  · rw [one]
    decide

theorem retry_of_failed_task :
    let cfg := { defaultHandlerConfig with MaxRetries := 1 }
    let run := handleDelivery cfg sampleHandlerHost retryableFailure (storedRow 1) sampleDelivery
    (storedTask 1).RetryCount = sampleTask.RetryCount.toInt ∧
      (storedTask 1).MaxRetries = cfg.MaxRetries.toInt ∧
      (∃ env, .retryScheduled env ∈ run.events) ∧
      ∃ row ∈ run.repo.lookup "t-1", row.Status.isTerminal := by
  intro cfg run
  have handles := handleDelivery_handles cfg sampleHandlerHost retryableFailure (storedRow 1)
    sampleDelivery
  have exit : exitOf cfg sampleHandlerHost retryableFailure sampleDelivery = .retried :=
    exitOf_sampleDelivery (by decide)
  have stored : (storedRow 1).lookup "t-1" = some (storedTask 1) := by simp [storedRow]
  obtain ⟨row, stored', after⟩ :=
    storedAfter handles sampleDelivery_decoded rfl rfl stored (fun _ => by decide)
  refine ⟨rfl, rfl, (retryScheduled_iff handles).mpr exit, row, stored', ?_⟩
  rw [after.retried exit]
  decide

end NexusPipe.Proof.Worker
