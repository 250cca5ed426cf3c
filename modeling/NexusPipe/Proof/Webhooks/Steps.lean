import NexusPipe.Webhooks.Notifier

namespace NexusPipe.Proof.Webhooks
open Library NexusPipe.Webhooks

inductive Received (n : EventNotifier) (i : Nat) (task : NotificationTask) : EventNotifier → Prop
  | begun (found : n.processors[i]? = some .idle) : Received n i task (n.beginTask i task .busy)
  | flushed {batch} (found : n.processors[i]? = some (.gathering batch))
      (full : n.config.BatchSize ≤ (batch ++ [task]).length) :
      Received n i task (n.flushBatch i false (batch ++ [task]))
  | gathered (found : n.processors[i]? = some (.gathering batch))
      (room : ¬ n.config.BatchSize ≤ (batch ++ [task]).length) :
      Received n i task { n with processors := n.processors.set i (.gathering (batch ++ [task])) }

inductive Sent (n : EventNotifier) (task : NotificationTask) :
    Option Nat → Option EventNotifier → Prop
  | handed (empty : n.taskCh = []) (received : Received n i task n') :
      Sent n task (some i) (some n')
  | buffered (room : n.taskCh.length < n.config.QueueSize) :
      Sent n task none (some { n with taskCh := n.taskCh ++ [task] })
  | refused (full : n.config.QueueSize ≤ n.taskCh.length) : Sent n task none none

def newTask (id : UUID) (now : Time) (event : NotificationEvent) (webhooks : List UUID) :
    NotificationTask :=
  { ID := id, Event := event, Webhooks := webhooks, CreatedAt := now, MaxRetries := 3 }

inductive Stepped (n : EventNotifier) : NotifierAction → EventNotifier → Prop
  | start : Stepped n .start n.start
  | stop : Stepped n .stop n.stop
  | unmatched {id} : Stepped n (.notify id now event [] receiver) n
  | dropped {id} (matched : webhooks ≠ [])
      (sent : Sent n (newTask id now event webhooks) receiver none) :
      Stepped n (.notify id now event webhooks receiver) n
  | accepted {id} (matched : webhooks ≠ []) (new : id ∉ n.accepted.map (·.ID))
      (sent : Sent n (newTask id now event webhooks) receiver (some n')) :
      Stepped n (.notify id now event webhooks receiver)
        { n' with accepted := n'.accepted ++ [newTask id now event webhooks] }
  | taken (queued : n.taskCh = task :: rest)
      (received : Received { n with taskCh := rest } i task n') : Stepped n (.take i) n'
  | exited (closed : n.stopClosed = true) (found : n.processors[i]? = some .idle) :
      Stepped n (.quit i) { n with processors := n.processors.set i .exited }
  | lastFlush (closed : n.stopClosed = true) (found : n.processors[i]? = some (.gathering batch)) :
      Stepped n (.quit i) (n.flushBatch i true batch)
  | ticked (found : n.processors[i]? = some (.gathering batch)) :
      Stepped n (.tick i) (n.flushBatch i false batch)
  | sending {i q number task w ahead} (found : n.processors[i]? = some q)
      (current : q.processing = some ⟨number, task, w :: ahead, false⟩) :
      Stepped n (.send i) { n with
        processors := n.processors.set i (q.resume ⟨number, task, w :: ahead, true⟩)
        log := n.log ++ [.sent number task.ID w] }
  | succeeded {i q number task w ahead id now} (found : n.processors[i]? = some q)
      (current : q.processing = some ⟨number, task, w :: ahead, true⟩) :
      Stepped n (.finish i .delivered id now) { n with
        processors := n.processors.set i (q.resume ⟨number, task, ahead, false⟩)
        log := n.log ++ [.succeeded number task.ID w] }
  | retried {i q number task w ahead id now err} (found : n.processors[i]? = some q)
      (current : q.processing = some ⟨number, task, w :: ahead, true⟩)
      (again : task.Retries < task.MaxRetries) :
      Stepped n (.finish i (.failed err) id now) { n with
        processors := n.processors.set i
          (q.resume ⟨number, { task with Retries := task.Retries + 1 }, ahead, false⟩)
        timers := n.timers ++ [{ task with Retries := task.Retries + 1 }] }
  | exhausted {id} (found : n.processors[i]? = some q)
      (current : q.processing = some ⟨number, task, w :: ahead, true⟩)
      (last : ¬ task.Retries < task.MaxRetries) : Stepped n (.finish i (.failed err) id now)
        ({ n with processors := n.processors.set i (q.resume ⟨number, task, ahead, false⟩)
          }.moveToDeadLetter id now task (sprintf "max retries exceeded: %v" [err]))
  | panicked {id} (found : n.processors[i]? = some q)
      (current : q.processing = some ⟨number, task, w :: ahead, true⟩) :
      Stepped n (.finish i .panicked id now) { n with crashed := true }
  | left (found : n.processors[i]? = some (.busy p)) (done : p.ahead = []) :
      Stepped n (.leave i) { n with processors := n.processors.set i .idle }
  | nextTask (found : n.processors[i]? = some (.flushing p rest last))
      (done : p.ahead = []) : Stepped n (.leave i) (n.flushBatch i last rest)
  | fired {id} (found : n.timers[k]? = some task)
      (sent : Sent { n with timers := n.timers.eraseIdx k } task receiver (some n')) :
      Stepped n (.fire k receiver id now) n'
  | expired {id} (found : n.timers[k]? = some task)
      (sent : Sent { n with timers := n.timers.eraseIdx k } task receiver none) :
      Stepped n (.fire k receiver id now)
        ({ n with timers := n.timers.eraseIdx k }.moveToDeadLetter id now task
          (.str "retry queue full"))

section
variable {n : EventNotifier} {id : UUID}

theorem receive_cases (received : n.receive i task = some n') : Received n i task n' := by
  unfold EventNotifier.receive at received
  split at received
  · next found =>
      cases received
      exact .begun found
  · next batch found =>
      dsimp only at received
      split_ifs at received with full
      · cases received
        exact .flushed found full
      · cases received
        exact .gathered found full
  · cases received

theorem trySend_cases (sent : n.trySend task receiver = some result) :
    Sent n task receiver result := by
  cases receiver with
  | some i =>
    simp only [EventNotifier.trySend] at sent
    split_ifs at sent with empty
    obtain ⟨n', received, rfl⟩ := Option.map_eq_some_iff.mp sent
    exact .handed empty (receive_cases received)
  | none =>
    simp only [EventNotifier.trySend, Option.some.injEq] at sent
    split_ifs at sent with room
    · cases sent
      exact .buffered room
    · cases sent
      exact .refused (Int.not_lt.mp room)

theorem notify_cases (new : id ∉ n.accepted.map (·.ID))
    (ended : n.notify id now event webhooks receiver = some (n', err)) :
    Stepped n (.notify id now event webhooks receiver) n' := by
  unfold EventNotifier.notify at ended
  split_ifs at ended with unmatched
  · cases ended
    subst unmatched
    exact .unmatched
  · obtain ⟨result, sent, same⟩ := Option.map_eq_some_iff.mp ended
    cases result with
    | none =>
      cases same
      exact .dropped unmatched (trySend_cases sent)
    | some after =>
      cases same
      exact .accepted unmatched new (trySend_cases sent)

theorem delivered_cases (found : n.processors[i]? = some q)
    (current : q.processing = some ⟨number, task, w :: ahead, true⟩) (outcome : DeliverOutcome) :
    Stepped n (.finish i outcome id now)
      (n.delivered i q ⟨number, task, w :: ahead, true⟩ w ahead id now outcome) := by
  cases outcome with
  | delivered => exact .succeeded found current
  | failed err =>
    unfold EventNotifier.delivered
    dsimp only
    split
    · next again => exact .retried found current again
    · next last => exact .exhausted found current last
  | panicked => exact .panicked found current

theorem fire_cases (ended : n.fire k receiver id now = some n') :
    Stepped n (.fire k receiver id now) n' := by
  unfold EventNotifier.fire at ended
  split at ended
  · cases ended
  · next task found =>
      obtain ⟨result, sent, same⟩ := Option.map_eq_some_iff.mp ended
      cases result with
      | some after =>
        cases same
        exact .fired found (trySend_cases sent)
      | none =>
        cases same
        exact .expired found (trySend_cases sent)

theorem step_alive (stepped : n.step a = some n') : ¬ n.crashed = true := by
  intro crashed
  unfold EventNotifier.step at stepped
  rw [if_pos crashed] at stepped
  cases stepped

theorem step_cases (stepped : n.step a = some n') : Stepped n a n' := by
  have alive := step_alive stepped
  unfold EventNotifier.step at stepped
  rw [if_neg alive] at stepped
  cases a with
  | start =>
    cases stepped
    exact .start
  | stop =>
    cases stepped
    exact .stop
  | notify id now event webhooks receiver =>
    dsimp only at stepped
    split_ifs at stepped with used
    obtain ⟨⟨after, err⟩, ended, rfl⟩ := Option.map_eq_some_iff.mp stepped
    exact notify_cases used ended
  | take i =>
    dsimp only at stepped
    split at stepped
    · cases stepped
    · next task rest queued => exact .taken queued (receive_cases stepped)
  | quit i =>
    dsimp only at stepped
    split_ifs at stepped with closed
    split at stepped <;> cases stepped
    · next found => exact .exited closed found
    · next batch found => exact .lastFlush closed found
  | tick i =>
    dsimp only at stepped
    split at stepped <;> cases stepped
    next batch found => exact .ticked found
  | send i =>
    dsimp only at stepped
    split at stepped
    · cases stepped
    · next q found =>
        split at stepped <;> cases stepped
        next current => exact .sending found current
  | finish i outcome id now =>
    dsimp only at stepped
    split at stepped
    · cases stepped
    · next q found =>
        split at stepped <;> cases stepped
        next current => exact delivered_cases found current outcome
  | leave i =>
    dsimp only at stepped
    split at stepped <;> cases stepped
    · next found => exact .left found rfl
    · next found => exact .nextTask found rfl
  | fire k receiver id now => exact fire_cases stepped

theorem moveToDeadLetter_cases :
    n.moveToDeadLetter id now task reason = { n with crashed := true } ∨
      ∃ deadLetter, n.moveToDeadLetter id now task reason =
        { n with deadLetter, log := n.log ++ [.deadLettered task.ID] } := by
  unfold EventNotifier.moveToDeadLetter
  dsimp only
  split
  · split
    · exact .inl rfl
    · exact .inr ⟨_, rfl⟩
  · exact .inr ⟨_, rfl⟩

theorem new_eq (made : newEventNotifier config = .ok n) : n = { config } := by
  unfold newEventNotifier at made
  split_ifs at made
  cases made
  rfl

end
end NexusPipe.Proof.Webhooks
