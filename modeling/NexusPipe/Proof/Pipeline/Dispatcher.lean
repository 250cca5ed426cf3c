import Mathlib.Data.List.Perm.Basic
import Mathlib.Data.List.Range
import NexusPipe.Library.Schedule
import NexusPipe.Pipeline.Events

namespace NexusPipe.Proof.Pipeline
open NexusPipe.Pipeline Library List

variable {b : AsyncEventBus}

def selecting (draining : Bool) : Dispatcher := if draining then .draining else .waiting

inductive BusStep (b : AsyncEventBus) : AsyncEventBus → Prop
  | publish (event : Event) : BusStep b (b.publish event)
  | receive (item : Published) (rest : List Published) (draining : Bool)
      (ready : b.dispatcher = selecting draining) (queued : b.eventCh = item :: rest) :
      BusStep b { b with eventCh := rest, dispatcher := .dispatching item draining }
  | observeStop (ready : b.dispatcher = .waiting) (called : b.stop ≠ .notCalled) :
      BusStep b { b with dispatcher := .draining }
  | dispatchReturns (item : Published) (draining : Bool)
      (busy : b.dispatcher = .dispatching item draining) :
      BusStep b { b with
        dispatcher := selecting draining, dispatched := b.dispatched ++ [item] }
  | drained (ready : b.dispatcher = .draining) (empty : b.eventCh = []) :
      BusStep b { b with dispatcher := .exited }
  | stop (fresh : b.stop = .notCalled) : BusStep b { b with stop := .waiting }
  | stopReturns (called : b.stop = .waiting) (exited : b.dispatcher = .exited) :
      BusStep b { b with stop := .returned }

theorem BusStep.of_step (next : b.step a = some b') : BusStep b b' := by
  cases a with
  | publish event => exact Option.some.inj next ▸ .publish event
  | receive =>
    simp only [AsyncEventBus.step, AsyncEventBus.receive] at next
    split at next
    · rename_i item rest ready queued
      exact Option.some.inj next ▸ .receive item rest false ready queued
    · rename_i item rest ready queued
      exact Option.some.inj next ▸ .receive item rest true ready queued
    · cases next
  | observeStop =>
    simp only [AsyncEventBus.step, AsyncEventBus.observeStop] at next
    split_ifs at next with ready
    exact Option.some.inj next ▸ .observeStop ready.1 ready.2
  | dispatchReturns =>
    simp only [AsyncEventBus.step, AsyncEventBus.dispatchReturns] at next
    split at next
    · rename_i item draining busy
      exact Option.some.inj next ▸ .dispatchReturns item draining busy
    · cases next
  | drained =>
    simp only [AsyncEventBus.step, AsyncEventBus.drained] at next
    split_ifs at next with ready
    exact Option.some.inj next ▸ .drained ready.1 ready.2
  | stop =>
    simp only [AsyncEventBus.step] at next
    split_ifs at next with fresh
    exact Option.some.inj next ▸ .stop fresh
  | stopReturns =>
    simp only [AsyncEventBus.step, AsyncEventBus.stopReturns] at next
    split_ifs at next with ready
    exact Option.some.inj next ▸ .stopReturns ready.1 ready.2

def pending (b : AsyncEventBus) : List Published :=
  match b.dispatcher with
  | .dispatching item _ => item :: b.eventCh
  | _ => b.eventCh

structure Orderly (b : AsyncEventBus) : Prop where
  fifo : b.accepted = b.dispatched ++ pending b
  numbers : ((b.accepted ++ b.dropped).map (·.number)).Perm
    (List.range (b.accepted.length + b.dropped.length))

theorem orderly_new (bufferSize : Int) : Orderly (newAsyncEventBus bufferSize) :=
  ⟨rfl, .refl _⟩

theorem numbers_concat {others : List Published} (event : Event)
    (same : others.Perm (items ++ [⟨n, event⟩])) (numbers : (items.map (·.number)).Perm (range n)) :
    (others.map (·.number)).Perm (range (n + 1)) := by
  refine (same.map _).trans ?_
  rw [map_append, range_succ]
  exact numbers.append_right [n]

theorem publish_cases (b : AsyncEventBus) (event : Event) :
    ∃ item : Published, item = ⟨b.accepted.length + b.dropped.length, event⟩ ∧
      (b.publish event = { b with eventCh := b.eventCh ++ [item], accepted := b.accepted ++ [item] } ∨
        b.publish event = { b with dropped := b.dropped ++ [item] }) := by
  refine ⟨_, rfl, ?_⟩
  rw [AsyncEventBus.publish]
  split_ifs
  · exact .inl rfl
  · exact .inr rfl

theorem pending_publish :
    pending { b with eventCh := b.eventCh ++ [item], accepted := accepted } =
      pending b ++ [item] := by
  simp only [pending]
  split <;> rfl

theorem Orderly.publish (orderly : Orderly b) (event : Event) : Orderly (b.publish event) := by
  obtain ⟨item, rfl, taken | dropped⟩ := publish_cases b event
  · rw [taken]
    refine ⟨?_, ?_⟩
    · rw [pending_publish, ← append_assoc, ← orderly.fifo]
    · rw [length_append, length_singleton, Nat.add_right_comm]
      refine numbers_concat event ?_ orderly.numbers
      rw [append_assoc, append_assoc]
      exact perm_append_comm.append_left _
  · rw [dropped]
    refine ⟨orderly.fifo, ?_⟩
    rw [length_append, length_singleton, ← Nat.add_assoc]
    refine numbers_concat event ?_ orderly.numbers
    rw [append_assoc]

theorem Orderly.step (orderly : Orderly b) (next : BusStep b b') : Orderly b' := by
  cases next with
  | publish event => exact orderly.publish event
  | receive item rest draining ready queued =>
    refine ⟨orderly.fifo.trans ?_, orderly.numbers⟩
    cases draining <;> simp [pending, ready, queued, selecting]
  | observeStop ready called =>
    refine ⟨orderly.fifo.trans ?_, orderly.numbers⟩
    simp [pending, ready]
  | dispatchReturns item draining busy =>
    refine ⟨orderly.fifo.trans ?_, orderly.numbers⟩
    cases draining <;> simp [pending, busy, selecting]
  | drained ready empty =>
    refine ⟨orderly.fifo.trans ?_, orderly.numbers⟩
    simp [pending, ready]
  | stop | stopReturns => exact ⟨orderly.fifo, orderly.numbers⟩

theorem Orderly.dispatched_prefix (orderly : Orderly b) : b.dispatched <+: b.accepted :=
  orderly.fifo ▸ prefix_append _ _

theorem Orderly.nodup (orderly : Orderly b) :
    (b.dispatched.map (·.number) ++ b.dropped.map (·.number)).Nodup := by
  have all := orderly.numbers.nodup_iff.mpr nodup_range
  rw [map_append] at all
  exact all.sublist ((orderly.dispatched_prefix.sublist.map _).append_right _)

def stopping : Dispatcher → Bool
  | .waiting | .dispatching _ false => false
  | .dispatching _ true | .draining | .exited => true

structure StopOrder (b : AsyncEventBus) : Prop where
  signalled : stopping b.dispatcher = true → b.stop ≠ .notCalled
  returned : b.stop = .returned → b.dispatcher = .exited

theorem StopOrder.step (ordered : StopOrder b) (next : BusStep b b') : StopOrder b' := by
  cases next with
  | publish event =>
    obtain ⟨item, -, taken | dropped⟩ := publish_cases b event
    · exact taken ▸ ⟨ordered.signalled, ordered.returned⟩
    · exact dropped ▸ ⟨ordered.signalled, ordered.returned⟩
  | receive item rest draining ready queued =>
    refine ⟨fun seen => ordered.signalled ?_, fun ended => ?_⟩
    · cases draining
      · cases seen
      · rw [ready]; rfl
    · rw [ordered.returned ended] at ready
      cases draining <;> cases ready
  | observeStop ready called =>
    refine ⟨fun _ => called, fun ended => ?_⟩
    rw [ordered.returned ended] at ready
    cases ready
  | dispatchReturns item draining busy =>
    refine ⟨fun seen => ordered.signalled ?_, fun ended => ?_⟩
    · cases draining
      · cases seen
      · rw [busy]; rfl
    · rw [ordered.returned ended] at busy
      cases busy
  | drained ready empty =>
    refine ⟨fun _ => ordered.signalled ?_, fun _ => rfl⟩
    rw [ready]; rfl
  | stop fresh => exact ⟨by simp, by simp⟩
  | stopReturns called exited => exact ⟨by simp, fun _ => exited⟩

structure Draining (first : List Published) (b : AsyncEventBus) : Prop where
  orderly : Orderly b
  ordered : StopOrder b
  called : b.stop ≠ .notCalled
  kept : first <+: b.accepted
  finished : b.dispatcher = .exited → first <+: b.dispatched

theorem Draining.step (draining : Draining first b) (next : BusStep b b') : Draining first b' := by
  have orderly := draining.orderly.step next
  have ordered := draining.ordered.step next
  cases next with
  | publish event =>
    obtain ⟨item, -, taken | dropped⟩ := publish_cases b event
    · rw [taken] at orderly ordered ⊢
      exact ⟨orderly, ordered, draining.called, draining.kept.trans (prefix_append _ _),
        draining.finished⟩
    · rw [dropped] at orderly ordered ⊢
      exact ⟨orderly, ordered, draining.called, draining.kept, draining.finished⟩
  | receive | observeStop => exact ⟨orderly, ordered, draining.called, draining.kept, by simp⟩
  | dispatchReturns item late =>
    refine ⟨orderly, ordered, draining.called, draining.kept, ?_⟩
    cases late <;> simp [selecting]
  | drained ready empty =>
    -- nothing is pending, so everything accepted has been dispatched
    refine ⟨orderly, ordered, draining.called, draining.kept, fun _ => ?_⟩
    have all := draining.orderly.fifo
    simp only [pending, ready, empty, append_nil] at all
    exact all ▸ draining.kept
  | stop fresh => exact absurd fresh draining.called
  | stopReturns called exited =>
    exact ⟨orderly, ordered, by simp, draining.kept, draining.finished⟩

theorem draining_of_stop (orderly : Orderly b) (ordered : StopOrder b)
    (called : b.step .stop = some b') : Draining b.accepted b' := by
  have next := BusStep.of_step called
  simp only [AsyncEventBus.step] at called
  split_ifs at called with fresh
  cases called
  refine ⟨orderly.step next, ordered.step next, by simp, prefix_rfl, fun exited => ?_⟩
  exact absurd fresh (ordered.signalled (exited ▸ rfl))

def stepsLeft (b : AsyncEventBus) : Nat :=
  if b.stop = .returned then 0
  else 2 * b.eventCh.length + match b.dispatcher with
    | .dispatching _ false => 4
    | .waiting => 3
    | .dispatching _ true => 3
    | .draining => 2
    | .exited => 1

def IsPublish : AsyncAction → Prop
  | .publish _ => True
  | _ => False

theorem exists_step_of_called (called : b.stop = .waiting) :
    ∃ a b', ¬ IsPublish a ∧ b.step a = some b' ∧ stepsLeft b' < stepsLeft b := by
  cases at_dispatcher : b.dispatcher with
  | waiting =>
    refine ⟨.observeStop, { b with dispatcher := .draining }, id, ?_, ?_⟩
    · simp [AsyncEventBus.step, AsyncEventBus.observeStop, at_dispatcher, called]
    · simp [stepsLeft, at_dispatcher, called]
  | dispatching item draining =>
    refine ⟨.dispatchReturns, { b with
      dispatcher := selecting draining, dispatched := b.dispatched ++ [item] }, id, ?_, ?_⟩
    · simp [AsyncEventBus.step, AsyncEventBus.dispatchReturns, at_dispatcher, selecting]
    · cases draining <;> simp [stepsLeft, at_dispatcher, called, selecting]
  | draining =>
    cases queued : b.eventCh with
    | nil =>
      refine ⟨.drained, { b with dispatcher := .exited }, id, ?_, ?_⟩
      · simp [AsyncEventBus.step, AsyncEventBus.drained, at_dispatcher, queued]
      · simp [stepsLeft, at_dispatcher, called]
    | cons item rest =>
      refine ⟨.receive, { b with eventCh := rest, dispatcher := .dispatching item true }, id,
        ?_, ?_⟩
      · simp [AsyncEventBus.step, AsyncEventBus.receive, at_dispatcher, queued]
      · simp only [stepsLeft, at_dispatcher, called, queued, length_cons, reduceCtorEq, if_false]
        omega
  | exited =>
    refine ⟨.stopReturns, { b with stop := .returned }, id, ?_, ?_⟩
    · simp [AsyncEventBus.step, AsyncEventBus.stopReturns, at_dispatcher, called]
    · simp [stepsLeft, at_dispatcher, called]

theorem exists_stopReturned (draining : Draining first b) :
    ∃ actions b', (∀ a ∈ actions, ¬ IsPublish a) ∧
      runSchedule AsyncEventBus.step b actions = some b' ∧ b'.stop = .returned := by
  refine exists_run_to_goal (¬ IsPublish ·) (Draining first) (·.stop = .returned) stepsLeft ?_ draining
  intro b draining waits
  have called : b.stop = .waiting := by
    cases at_stop : b.stop with
    | notCalled => exact absurd at_stop draining.called
    | waiting => rfl
    | returned => exact absurd at_stop waits
  obtain ⟨a, b', silent, next, less⟩ := exists_step_of_called called
  exact ⟨a, b', silent, next, draining.step (.of_step next), less⟩

theorem dispatched_before_stop_returns (bufferSize : Int) (before after : List AsyncAction)
    {b₀ b : AsyncEventBus}
    (reached : runSchedule AsyncEventBus.step (newAsyncEventBus bufferSize) before = some b₀)
    (run : runSchedule AsyncEventBus.step b₀ (.stop :: after) = some b) :
    b.dispatched <+: b.accepted ∧ (b.dispatched.map (·.number)).Nodup ∧
      (∀ lost ∈ b.dropped, ∀ item ∈ b.dispatched, lost.number ≠ item.number) ∧
      (b.stop = .returned → b₀.accepted <+: b.dispatched) ∧ ∃ rest b', (∀ a ∈ rest, ¬ IsPublish a) ∧
        runSchedule AsyncEventBus.step b rest = some b' ∧ b'.stop = .returned := by
  obtain ⟨orderly₀, ordered₀⟩ := runSchedule_invariant (fun b => Orderly b ∧ StopOrder b)
    (fun _ _ _ holds next => ⟨holds.1.step (.of_step next), holds.2.step (.of_step next)⟩) reached
    ⟨orderly_new bufferSize, by simp [newAsyncEventBus, stopping], by simp [newAsyncEventBus]⟩
  obtain ⟨b₁, called, later⟩ := runSchedule_cons.mp run
  have draining := runSchedule_invariant (Draining b₀.accepted)
    (fun _ _ _ holds next => holds.step (.of_step next)) later
    (draining_of_stop orderly₀ ordered₀ called)
  have apart := nodup_append.mp draining.orderly.nodup
  refine ⟨draining.orderly.dispatched_prefix, apart.1, ?_, ?_, exists_stopReturned draining⟩
  · intro lost member item dispatched same
    exact apart.2.2 _ (mem_map_of_mem dispatched) _ (mem_map_of_mem member) same.symm
  · exact fun returned => draining.finished (draining.ordered.returned returned)

def retryEvent : Event := { EventType := .stageRetrying, PipelineID := 1, RunID := 1 }

def fullBus : AsyncEventBus where
  bufferSize := 1
  eventCh := [⟨0, retryEvent⟩]
  accepted := [⟨0, retryEvent⟩]
  dropped := [⟨1, retryEvent⟩]

theorem dispatched_before_stop_returns_full :
    ∃ b, runSchedule AsyncEventBus.step (newAsyncEventBus 1)
        [.publish retryEvent, .publish retryEvent] = some fullBus ∧
      runSchedule AsyncEventBus.step fullBus
        [.stop, .observeStop, .receive, .dispatchReturns, .drained, .stopReturns] = some b ∧
      b.stop = .returned ∧ fullBus.accepted <+: b.dispatched :=
  ⟨_, rfl, rfl, rfl, (dispatched_before_stop_returns 1
    [.publish retryEvent, .publish retryEvent]
    [.observeStop, .receive, .dispatchReturns, .drained, .stopReturns] rfl rfl).2.2.2.1 rfl⟩

end NexusPipe.Proof.Pipeline
