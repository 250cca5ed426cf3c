import NexusPipe.Proof.Webhooks.Retries

namespace NexusPipe.Proof.Webhooks.Tasks
open Library NexusPipe.Webhooks Relation List

def Reached (l : Ledger) : Prop :=
  ∀ t ∈ l.accepted, (∃ t', .queued t' ∈ l.parts ∧ t'.ID = t.ID) ∨ ∃ k, .began k t.ID ∈ l.log

section
variable {l' : Ledger}

theorem Reached.mono (reached : Reached l) (same : l'.accepted = l.accepted)
    (stays : ∀ t, .queued t ∈ l.parts → .queued t ∈ l'.parts) (grown : l.log ⊆ l'.log) :
    Reached l' := by
  intro t member
  rcases reached t (same ▸ member) with ⟨t', held, same⟩ | ⟨k, began⟩
  · exact .inl ⟨t', stays t' held, same⟩
  · exact .inr ⟨k, grown began⟩

theorem reached_calm (reached : Reached l) (step : Calm ending l l') : Reached l' := by
  cases step with
  | accept task =>
    intro t member
    rcases mem_append.mp member with old | fresh
    · exact (reached t old).imp_left fun ⟨t', held, same⟩ =>
        ⟨t', Multiset.mem_cons_of_mem held, same⟩
    · exact .inl ⟨task, Multiset.mem_cons_self _ _, by rw [mem_singleton.mp fresh]⟩
  | begin begins =>
    intro t member
    obtain @⟨parts, begun, log, accepted, task⟩ := begins
    rcases reached t member with ⟨t', held, same⟩ | ⟨k, began⟩
    · rcases Multiset.mem_cons.mp held with first | later
      · cases first
        exact .inr ⟨begun, by simp [same]⟩
      · exact .inl ⟨t', Multiset.mem_cons_of_mem later, same⟩
    · exact .inr ⟨k, mem_append_left _ began⟩
  | send | succeed | drop => exact reached.mono rfl (by simp) (subset_append_left _ _)
  | leave | fire | lose => exact reached.mono rfl (by simp +contextual) (List.Subset.refl _)

theorem reached_fails (reached : Reached l) (fails : Fails p l l') : Reached l' := by
  cases fails with
  | bury => exact reached.mono rfl (by simp) (subset_append_left _ _)
  | retry | lose => exact reached.mono rfl (by simp) (List.Subset.refl _)

theorem reached_step (reached : Reached (ledger n)) (stepped : n.step a = some n') :
    Reached (ledger n') :=
  invariant_step (fun _ _ => reached_calm) (fun _ _ _ _ => reached_fails reached) reached stepped

end

/-- The task has been processed for all its webhooks, or waits for a retry, or is a dead letter. -/
def Settled (n : EventNotifier) (t : NotificationTask) : Prop :=
  (∃ k, .began k t.ID ∈ n.log ∧ ∀ q ∈ n.processors, ∀ p ∈ q.processing, p.number ≠ k) ∨
    (∃ t' ∈ n.timers, t'.ID = t.ID) ∨ ∃ e ∈ n.deadLetter, e.Task.ID = t.ID

def unflushed : Processor → List NotificationTask
  | .gathering batch => batch
  | .flushing _ rest _ => rest
  | _ => []

def isWorker : Processor → Bool
  | .idle | .busy _ => true
  | _ => false

def Returned (n : EventNotifier) : Prop := ∀ q ∈ n.processors, isWorker q = false

def StopReturns (n : EventNotifier) : Prop := n.stopClosed = true ∧ Returned n

def Quiet (n : EventNotifier) : Prop := n.taskCh = [] ∧ ∀ q ∈ n.processors, processorParts q = 0

def Refuses (n : EventNotifier) (receiver : Option Nat) : Prop :=
  receiver = none ∧ n.config.QueueSize ≤ n.taskCh.length

/-- The last worker sees the stop when nothing else is left, and no task comes once `Stop` can
return: neither from `Notify` nor from a timer. -/
def Drained (n : EventNotifier) : NotifierAction → Prop
  | .stop => n.started = true → Returned n → Quiet n
  | .quit i => n.processors[i]? = some .idle →
      Returned { n with processors := n.processors.eraseIdx i } → Quiet n
  | .notify _ _ _ webhooks receiver => StopReturns n → webhooks = [] ∨ Refuses n receiver
  | .fire _ receiver _ _ => StopReturns n → Refuses n receiver
  | _ => True

section
variable {n n' : EventNotifier} {i : Nat}

theorem settled_of_quiet (reached : Reached (ledger n)) (quiet : Quiet n) :
    ∀ t ∈ n.accepted, Settled n t := by
  intro t member
  have empty : (n.processors.map processorParts).sum = 0 :=
    sum_eq_zero fun held inside => by
      obtain ⟨q, at_, rfl⟩ := mem_map.mp inside
      exact quiet.2 q at_
  rcases reached t member with ⟨t', held, same⟩ | ⟨k, began⟩
  · simp [ledger, parts, waiting, quiet.1, empty] at held
  · refine .inl ⟨k, began, fun q at_ p current => ?_⟩
    obtain ⟨rest, before, -⟩ := processorParts_resume current
    have none := quiet.2 q at_
    rw [before] at none
    exact absurd none (Multiset.cons_ne_zero)

structure SameWorkers (n n' : EventNotifier) : Prop where
  stopClosed : n'.stopClosed = n.stopClosed
  returned : Returned n' ↔ Returned n

theorem returned_set (found : n.processors[i]? = some q) (same : isWorker q' = isWorker q) :
    (∀ q ∈ n.processors.set i q', isWorker q = false) ↔ Returned n :=
  forall_mem_set_iff found (by rw [same])

theorem sameWorkers_flushBatch (found : n.processors[i]? = some q) (other : isWorker q = false) :
    SameWorkers n (n.flushBatch i last batch) := by
  cases batch with
  | nil => cases last <;> exact ⟨rfl, returned_set found other.symm⟩
  | cons task rest => exact ⟨rfl, returned_set found other.symm⟩

theorem sameWorkers_receive (received : Received n i task n') : SameWorkers n n' := by
  cases received with
  | begun found => exact ⟨rfl, returned_set found rfl⟩
  | flushed found => exact sameWorkers_flushBatch found rfl
  | gathered found => exact ⟨rfl, returned_set found rfl⟩

theorem sameWorkers_sent (sent : Sent n task receiver (some n')) : SameWorkers n n' := by
  cases sent with
  | handed empty received => exact sameWorkers_receive received
  | buffered room => exact ⟨rfl, Iff.rfl⟩

theorem sameWorkers_resume (found : n.processors[i]? = some q)
    (processors : n'.processors = n.processors.set i (q.resume p))
    (stopClosed : n'.stopClosed = n.stopClosed) : SameWorkers n n' := by
  refine ⟨stopClosed, ?_⟩
  rw [Returned, processors]
  exact returned_set found (by cases q <;> rfl)

section
variable {id : UUID}

theorem moveToDeadLetter_frame : (n.moveToDeadLetter id now task reason).processors = n.processors ∧
      (n.moveToDeadLetter id now task reason).taskCh = n.taskCh ∧
      (n.moveToDeadLetter id now task reason).stopClosed = n.stopClosed := by
  rcases moveToDeadLetter_cases with crashed | ⟨deadLetter, moved⟩
  · rw [crashed]
    exact ⟨rfl, rfl, rfl⟩
  · rw [moved]
    exact ⟨rfl, rfl, rfl⟩

theorem quiet_moveToDeadLetter : Quiet (n.moveToDeadLetter id now task reason) ↔ Quiet n := by
  rw [Quiet, moveToDeadLetter_frame.1, moveToDeadLetter_frame.2.1, Quiet]

theorem stopReturns_moveToDeadLetter :
    StopReturns (n.moveToDeadLetter id now task reason) ↔ StopReturns n := by
  rw [StopReturns, Returned, moveToDeadLetter_frame.1, moveToDeadLetter_frame.2.2]
  rfl

end

theorem not_quiet_of_processing (found : n.processors[i]? = some q)
    (current : q.processing = some p) : ¬ Quiet n := by
  intro quiet
  obtain ⟨rest, before, -⟩ := processorParts_resume current
  have none := quiet.2 q (mem_of_getElem? found)
  rw [before] at none
  exact absurd none Multiset.cons_ne_zero

theorem start_kept (kept : StopReturns n → Quiet n) : StopReturns n.start → Quiet n.start := by
  unfold EventNotifier.start
  split
  · exact kept
  · intro returns
    have before := kept ⟨returns.1, fun q member => returns.2 q (by simp [member])⟩
    refine ⟨before.1, fun q member => ?_⟩
    simp only [mem_append, mem_replicate, mem_singleton] at member
    rcases member with (old | ⟨-, rfl⟩) | rfl
    · exact before.2 q old
    · rfl
    · rfl

theorem stop_kept_iff (kept : StopReturns n → Quiet n) :
    (StopReturns n.stop → Quiet n.stop) ↔ Drained n .stop := by
  unfold EventNotifier.stop Drained
  split
  · next started =>
      exact ⟨fun after _ returned => after ⟨rfl, returned⟩, fun drained returns =>
        drained started returns.2⟩
  · next stopped => exact ⟨fun _ started => absurd started stopped, fun _ => kept⟩

theorem not_quiet_set (bound : i < n.processors.length)
    (processors : n'.processors = n.processors.set i q) (held : processorParts q ≠ 0) : ¬ Quiet n' :=
  fun quiet => held (quiet.2 q (processors ▸ mem_set bound q))

theorem not_quiet_receive (received : Received n i task n') : ¬ Quiet n' := by
  cases received with
  | begun found =>
    exact not_quiet_set (List.getElem?_eq_some_iff.mp found).1 rfl (by simp [processorParts])
  | @flushed batch found =>
    have bound := (List.getElem?_eq_some_iff.mp found).1
    cases batch <;> exact not_quiet_set bound rfl (by simp [processorParts])
  | gathered found =>
    refine not_quiet_set (List.getElem?_eq_some_iff.mp found).1 rfl ?_
    rw [processorParts, queue_concat]
    exact Multiset.cons_ne_zero

section
theorem sent_kept_iff (sent : Sent n task receiver (some n')) :
    (StopReturns n' → Quiet n') ↔ (StopReturns n → Refuses n receiver) := by
  have workers := sameWorkers_sent sent
  have same : StopReturns n' ↔ StopReturns n := by
    rw [StopReturns, workers.stopClosed, workers.returned, StopReturns]
  rw [same]
  refine forall_congr' fun returns => ?_
  -- a send that goes through leaves something to do
  cases sent with
  | handed empty received =>
    exact iff_of_false (not_quiet_receive received) fun refuses => by cases refuses.1
  | buffered room =>
    refine iff_of_false (fun quiet => ?_) fun refuses => absurd room (Int.not_lt.mpr refuses.2)
    exact append_ne_nil_of_right_ne_nil _ (cons_ne_nil _ _) quiet.1

theorem refuses_of_sent (sent : Sent n task receiver none) : Refuses n receiver := by
  cases sent with
  | refused full => exact ⟨rfl, full⟩

end

theorem flush_kept (kept : StopReturns n → Quiet n)
    (found : n.processors[i]? = some (.gathering batch)) :
    StopReturns (n.flushBatch i last batch) → Quiet (n.flushBatch i last batch) := by
  intro returns
  have workers : SameWorkers n (n.flushBatch i last batch) := sameWorkers_flushBatch found rfl
  have quiet := kept ⟨workers.stopClosed ▸ returns.1, workers.returned.mp returns.2⟩
  have empty : batch = [] := by
    have none := quiet.2 _ (mem_of_getElem? found)
    cases batch with
    | nil => rfl
    | cons => simp [processorParts] at none
  subst empty
  refine ⟨quiet.1, (forall_mem_set_iff found ?_).mpr quiet.2⟩
  cases last <;> exact Iff.rfl

theorem quit_kept_iff (closed : n.stopClosed = true) (found : n.processors[i]? = some .idle) :
    (StopReturns { n with processors := n.processors.set i .exited } →
        Quiet { n with processors := n.processors.set i .exited }) ↔ Drained n (.quit i) := by
  have moved := set_perm_cons_eraseIdx (List.getElem?_eq_some_iff.mp found).1 Processor.exited
  have returned : StopReturns { n with processors := n.processors.set i .exited } ↔
      Returned { n with processors := n.processors.eraseIdx i } := by
    simp only [StopReturns, Returned, closed, true_and, moved.mem_iff, forall_mem_cons]
    exact and_iff_right rfl
  have quiet : Quiet { n with processors := n.processors.set i .exited } ↔ Quiet n :=
    and_congr_right fun _ => forall_mem_set_iff found Iff.rfl
  rw [returned, quiet, Drained]
  exact ⟨fun after _ => after, fun drained => drained found⟩

theorem busy_kept (workers : SameWorkers n n') (kept : StopReturns n → Quiet n) (busy : ¬ Quiet n) :
    StopReturns n' → Quiet n' := by
  intro returns
  exact absurd (kept ⟨workers.stopClosed ▸ returns.1, workers.returned.mp returns.2⟩) busy

theorem resume_kept (found : n.processors[i]? = some q) (current : q.processing = some p)
    (kept : StopReturns n → Quiet n) (processors : n'.processors = n.processors.set i (q.resume p'))
    (stopClosed : n'.stopClosed = n.stopClosed) : StopReturns n' → Quiet n' :=
  busy_kept (sameWorkers_resume found processors stopClosed) kept
    (not_quiet_of_processing found current)

theorem quiet_kept_iff (kept : StopReturns n → Quiet n) (stepped : n.step a = some n') :
    (StopReturns n' → Quiet n') ↔ Drained n a := by
  cases step_cases stepped with
  | start => exact iff_of_true (start_kept kept) trivial
  | stop => exact stop_kept_iff kept
  | unmatched => exact iff_of_true kept fun _ => .inl rfl
  | dropped matched sent => exact iff_of_true kept fun _ => .inr (refuses_of_sent sent)
  | accepted matched new sent =>
    refine (sent_kept_iff sent).trans (forall_congr' fun _ => ?_)
    exact (or_iff_right matched).symm
  | taken queued received =>
    have workers := sameWorkers_receive received
    have busy : ¬ Quiet n := fun quiet => by cases queued.symm.trans quiet.1
    exact iff_of_true (busy_kept (n := n) ⟨workers.stopClosed, workers.returned⟩ kept busy) trivial
  | exited closed found => exact quit_kept_iff closed found
  | lastFlush closed found =>
    -- the batch processor is not waited for
    refine iff_of_true (flush_kept kept found) fun idle => ?_
    rw [found] at idle
    cases idle
  | ticked found => exact iff_of_true (flush_kept kept found) trivial
  | sending found current | succeeded found current | retried found current =>
    exact iff_of_true (resume_kept found current kept rfl rfl) trivial
  | exhausted found current =>
    rw [stopReturns_moveToDeadLetter, quiet_moveToDeadLetter]
    exact iff_of_true (resume_kept found current kept rfl rfl) trivial
  | panicked => exact iff_of_true kept trivial
  | left found =>
    have busy := not_quiet_of_processing found rfl
    have workers : SameWorkers n { n with processors := n.processors.set _ .idle } :=
      ⟨rfl, forall_mem_set_iff found Iff.rfl⟩
    exact iff_of_true (busy_kept workers kept busy) trivial
  | nextTask found =>
    have busy := not_quiet_of_processing found rfl
    exact iff_of_true (busy_kept (sameWorkers_flushBatch found rfl) kept busy) trivial
  | fired found sent =>
    have exactly := sent_kept_iff sent
    exact exactly
  | expired found sent =>
    have refuses := refuses_of_sent sent
    refine iff_of_true ?_ fun _ => refuses
    rw [stopReturns_moveToDeadLetter, quiet_moveToDeadLetter]
    exact kept

end

section
variable (made : newEventNotifier config = .ok start)
  (run : runSchedule EventNotifier.step start actions = some n)
include made run

theorem quiet_throughout_iff_drained : (∀ before after middle, actions = before ++ after →
        runSchedule EventNotifier.step start before = some middle →
        StopReturns middle → Quiet middle) ↔ Along EventNotifier.step Drained start actions := by
  refine throughout_iff_along (fun _ => True) _ (fun _ _ _ _ _ => trivial)
    (fun _ _ _ _ => quiet_kept_iff) run trivial ?_
  rw [new_eq made]
  exact fun returns => by cases returns.1

theorem settled_at_stop (drained : Along EventNotifier.step Drained start actions)
    (returns : StopReturns n) :
    (∀ t ∈ n.accepted, Settled n t) ∧ n.taskCh = [] ∧ ∀ q ∈ n.processors, unflushed q = [] := by
  have quiet : Quiet n := (quiet_throughout_iff_drained made run).mpr drained actions [] n
    (append_nil _).symm run returns
  have reached : Reached (ledger n) := by
    refine runSchedule_invariant (fun n => Reached (ledger n)) (fun _ _ _ => reached_step) run ?_
    rw [new_eq made]
    exact fun t member => by cases member
  refine ⟨settled_of_quiet reached quiet, quiet.1, fun q member => ?_⟩
  have none := quiet.2 q member
  cases q with
  | gathering batch => simpa [unflushed, processorParts, queue] using none
  | flushing p rest last => simp [processorParts] at none
  | _ => rfl

end

instance (n : EventNotifier) : Decidable (Quiet n) :=
  inferInstanceAs (Decidable (n.taskCh = [] ∧ ∀ q ∈ n.processors, processorParts q = 0))

instance (n : EventNotifier) : Decidable (Returned n) :=
  inferInstanceAs (Decidable (∀ q ∈ n.processors, isWorker q = false))

instance (n : EventNotifier) : Decidable (StopReturns n) :=
  inferInstanceAs (Decidable (n.stopClosed = true ∧ Returned n))

instance (n : EventNotifier) (receiver : Option Nat) : Decidable (Refuses n receiver) :=
  inferInstanceAs (Decidable (receiver = none ∧ n.config.QueueSize ≤ n.taskCh.length))

instance (n : EventNotifier) (a : NotifierAction) : Decidable (Drained n a) :=
  match a with
  | .stop => inferInstanceAs (Decidable (n.started = true → Returned n → Quiet n))
  | .quit i => inferInstanceAs (Decidable (n.processors[i]? = some .idle →
      Returned { n with processors := n.processors.eraseIdx i } → Quiet n))
  | .notify _ _ _ webhooks receiver =>
    inferInstanceAs (Decidable (StopReturns n → webhooks = [] ∨ Refuses n receiver))
  | .fire _ receiver _ _ => inferInstanceAs (Decidable (StopReturns n → Refuses n receiver))
  | .start | .take _ | .tick _ | .send _ | .finish _ _ _ _ | .leave _ => .isTrue trivial

def sampleTask : NotificationTask where
  ID := 1
  Event := Notifier.sampleEvent
  Webhooks := [2]
  CreatedAt := .zero
  MaxRetries := 3

def stopping : List NotifierAction := [.stop, .quit 0, .quit 1, .quit 2, .quit 3, .quit 4]

theorem settled_at_stop_idle : ∃ start n, newEventNotifier defaultNotifierConfig = .ok start ∧
      runSchedule EventNotifier.step start ([.start, .notify 1 .zero Notifier.sampleEvent [2] (some 0)] ++
        Notifier.delivering .delivered ++ [.leave 0] ++ stopping) = some n ∧
      StopReturns n ∧ n.accepted = [sampleTask] ∧
      (∀ t ∈ n.accepted, Settled n t) ∧ n.taskCh = [] ∧ ∀ q ∈ n.processors, unflushed q = [] := by
  have made : newEventNotifier defaultNotifierConfig = .ok { config := defaultNotifierConfig } := rfl
  refine ⟨_, exists_and_left.mpr ⟨made, exists_reached (fun n => StopReturns n ∧
    n.accepted = [sampleTask]) (by decide +kernel) fun n run seen => ?_⟩⟩
  exact ⟨seen.1, seen.2, settled_at_stop made run (by decide +kernel) seen.1⟩

theorem accepted_task_left_in_channel :
    ∃ start n, newEventNotifier defaultNotifierConfig = .ok start ∧
      runSchedule EventNotifier.step start
        ([.start, .notify 1 .zero Notifier.sampleEvent [2] none] ++ stopping) = some n ∧
      StopReturns n ∧ n.accepted = [sampleTask] ∧ n.taskCh = [sampleTask] ∧
      (∀ q ∈ n.processors, q = .exited) ∧ ¬ Settled n sampleTask := by
  have ran : runSchedule EventNotifier.step { config := defaultNotifierConfig }
      ([.start, .notify 1 .zero Notifier.sampleEvent [2] none] ++ stopping) =
        some {
          config := defaultNotifierConfig
          taskCh := [sampleTask]
          stopClosed := true
          processors := replicate 5 .exited
          accepted := [sampleTask] } := by decide +kernel
  refine ⟨_, _, rfl, ran, by decide +kernel, rfl, rfl, by decide +kernel, ?_⟩
  simp [Settled]

end NexusPipe.Proof.Webhooks.Tasks
