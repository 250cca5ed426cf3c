import Mathlib.Algebra.Order.Group.Multiset
import Mathlib.Data.List.DropRight
import Mathlib.Tactic.Abel
import NexusPipe.Library.List
import NexusPipe.Proof.Webhooks.Steps
import NexusPipe.Webhooks.DeadLetter

namespace NexusPipe.Proof.Webhooks.DeadLetter
open Library NexusPipe.Webhooks List

def Names (deadLettered : List NotificationTask) : List Nat → List NotificationTask → Prop :=
  List.Forall₂ fun k t => ∃ t₀, deadLettered[k]? = some t₀ ∧ t = { t₀ with Retries := t.Retries }

def numbers (c : Replay) : Multiset Nat := ↑c.numbers

def tracked (s : DeadLetterSystem) : Multiset Nat :=
  ↑s.listed + ↑s.handed + ↑s.evicted + ↑s.cleared + (s.calls.map numbers).sum

structure Accounted (config : NotifierConfig) (s : DeadLetterSystem) (moving : List Nat) : Prop where
  once : tracked s + ↑moving = Multiset.range s.deadLettered.length
  listed : Names s.deadLettered s.listed (s.notifier.deadLetter.map (·.Task))
  handed : Names s.deadLettered s.handed s.replayed
  calls : ∀ c ∈ s.calls, Names s.deadLettered c.numbers c.tasks
  same : s.notifier.config = config
  room : 1 ≤ config.DeadLetterLimit
  within : s.notifier.deadLetter.length ≤ config.DeadLetterLimit

section
theorem Names.append (names : Names deadLettered ks tasks) (task : NotificationTask) :
    Names (deadLettered ++ [task]) ks tasks := by
  refine List.Forall₂.imp ?_ names
  rintro k t ⟨t₀, found, same⟩
  exact ⟨t₀, by rw [getElem?_append_left (List.getElem?_eq_some_iff.mp found).1, found], same⟩

theorem names_new (task : NotificationTask) :
    Names (deadLettered ++ [task]) [deadLettered.length] [task] :=
  .cons ⟨task, by simp, rfl⟩ .nil

theorem Names.reset (names : Names deadLettered ks (task :: tasks)) :
    Names deadLettered (ks.take 1) [{ task with Retries := 0 }] := by
  cases names with
  | cons found rest =>
    obtain ⟨t₀, found, same⟩ := found
    exact .cons ⟨t₀, found, by rw [same]⟩ .nil

theorem Names.tail (names : Names deadLettered ks (task :: tasks)) :
    Names deadLettered (ks.drop 1) tasks := by
  cases names with
  | cons found rest => exact rest

end

variable {n : EventNotifier}

section
variable {config : NotifierConfig} {s : DeadLetterSystem} {i : Nat} {c : Replay}
  {task : NotificationTask} {id : UUID}

def pushed {α : Type} (n : EventNotifier) (list : List α) (new : List α) : List α :=
  (if n.config.DeadLetterLimit ≤ n.deadLetter.length then list.drop 1 else list) ++ new

theorem moveToDeadLetter_spec (room : 1 ≤ n.config.DeadLetterLimit) (id : UUID) (now : Time)
    (task : NotificationTask) (reason : Text) :
    (n.moveToDeadLetter id now task reason).config = n.config ∧ ∃ entry, entry.Task = task ∧
        (n.moveToDeadLetter id now task reason).deadLetter = pushed n n.deadLetter [entry] := by
  unfold EventNotifier.moveToDeadLetter pushed
  dsimp only
  split
  · next full =>
      split
      · next empty =>
          rw [empty] at full
          exact absurd (room.trans full) (by decide)
      · next first kept found => exact ⟨rfl, _, rfl, by rw [found]; rfl⟩
  · exact ⟨rfl, _, rfl, rfl⟩

theorem Names.pushed (names : Names deadLettered ks tasks) (names' : Names deadLettered ks' new) :
    Names deadLettered (pushed n ks ks') (pushed n tasks new) := by
  unfold DeadLetter.pushed
  split
  · exact rel_append (forall₂_drop 1 names) names'
  · exact rel_append names names'

theorem length_pushed_le (room : 1 ≤ n.config.DeadLetterLimit)
    (within : n.deadLetter.length ≤ n.config.DeadLetterLimit) (entry : DeadLetterEntry) :
    (pushed n n.deadLetter [entry]).length ≤ n.config.DeadLetterLimit := by
  unfold pushed
  split
  · simp only [length_append, length_drop, length_singleton]
    omega
  · simp only [length_append, length_singleton]
    omega

theorem take_add_drop (ks : List Nat) : (↑(ks.take 1) + ↑(ks.drop 1) : Multiset Nat) = ↑ks := by
  rw [Multiset.coe_add, take_append_drop]

theorem tracked_moveToDeadLetter :
    tracked (s.moveToDeadLetter id now task reason moving) = tracked s + ↑moving := by
  simp only [tracked, DeadLetterSystem.moveToDeadLetter]
  split_ifs
  · rw [← take_add_drop s.listed, ← Multiset.coe_add, ← Multiset.coe_add]
    abel
  · rw [append_nil, ← Multiset.coe_add]
    abel

theorem Accounted.moveToDeadLetter (accounted : Accounted config s moving)
    (names : Names s.deadLettered moving [task]) :
    Accounted config (s.moveToDeadLetter id now task reason moving) [] := by
  have room : 1 ≤ s.notifier.config.DeadLetterLimit := accounted.same ▸ accounted.room
  obtain ⟨kept, entry, same, deadLetter⟩ := moveToDeadLetter_spec room id now task reason
  refine ⟨?_, ?_, accounted.handed, accounted.calls, kept.trans accounted.same, accounted.room, ?_⟩
  · rw [tracked_moveToDeadLetter, Multiset.coe_nil, add_zero]
    exact accounted.once
  · have after : (s.notifier.moveToDeadLetter id now task reason).deadLetter.map (·.Task) =
        pushed s.notifier (s.notifier.deadLetter.map (·.Task)) [task] := by
      rw [deadLetter, pushed, pushed, map_append, map_singleton, same]
      split_ifs
      · rw [map_drop]
      · rfl
    exact (congrArg (Names _ _) after).mpr (accounted.listed.pushed names)
  · have length := length_pushed_le room (accounted.same ▸ accounted.within) entry
    rwa [← deadLetter, accounted.same] at length

theorem removeDeadLetter_spec (removed : n.removeDeadLetter entryID = .ok (index, entry, n')) :
    n.deadLetter[index]? = some entry ∧ n' = { n with deadLetter := n.deadLetter.eraseIdx index } := by
  unfold EventNotifier.removeDeadLetter at removed
  split at removed
  · cases removed
  · next found =>
      cases removed
      exact ⟨by simp, rfl⟩

theorem flushBatch_frame : (n.flushBatch i last batch).deadLetter = n.deadLetter ∧
      (n.flushBatch i last batch).config = n.config := by
  cases batch <;> exact ⟨rfl, rfl⟩

theorem receive_frame (received : Received n i task n') :
    n'.deadLetter = n.deadLetter ∧ n'.config = n.config := by
  cases received with
  | begun | gathered => exact ⟨rfl, rfl⟩
  | flushed => exact flushBatch_frame

theorem sent_frame (sent : Sent n task receiver (some n')) :
    n'.deadLetter = n.deadLetter ∧ n'.config = n.config := by
  cases sent with
  | handed empty received => exact receive_frame received
  | buffered => exact ⟨rfl, rfl⟩

theorem Names.remove {entries : List DeadLetterEntry}
    (names : Names deadLettered ks (entries.map (·.Task))) (found : entries[index]? = some entry) :
    Names deadLettered ((ks.drop index).take 1) [entry.Task] ∧
      Names deadLettered (ks.eraseIdx index) ((entries.eraseIdx index).map (·.Task)) := by
  obtain ⟨bound, rfl⟩ := List.getElem?_eq_some_iff.mp found
  constructor
  · have one := forall₂_take 1 (forall₂_drop index names)
    rwa [← map_drop, ← map_take, drop_eq_getElem_cons bound] at one
  · rw [eraseIdx_eq_take_drop_succ, eraseIdx_eq_take_drop_succ, map_append, map_take, map_drop]
    exact rel_append (forall₂_take index names) (forall₂_drop (index + 1) names)

theorem eraseIdx_add (ks : List Nat) (index : Nat) :
    (↑(ks.eraseIdx index) + ↑((ks.drop index).take 1) : Multiset Nat) = ↑ks := by
  have parts : (↑(ks.take index) + ↑(ks.drop index) : Multiset Nat) = ↑ks := by
    rw [Multiset.coe_add, take_append_drop]
  have later := take_add_drop (ks.drop index)
  rw [drop_drop] at later
  rw [eraseIdx_eq_take_drop_succ, ← Multiset.coe_add, ← parts, ← later]
  abel

section
variable (accounted : Accounted config s [])
include accounted

theorem Accounted.tracked_eq : tracked s = Multiset.range s.deadLettered.length := by
  rw [← accounted.once, Multiset.coe_nil, add_zero]

theorem Accounted.record (task : NotificationTask) :
    Accounted config { s with deadLettered := s.deadLettered ++ [task] } [s.deadLettered.length] where
  once := by
    rw [length_append, length_singleton, Multiset.range_succ, ← accounted.tracked_eq,
      ← Multiset.singleton_add, add_comm]
    rfl
  listed := accounted.listed.append task
  handed := accounted.handed.append task
  calls c member := (accounted.calls c member).append task
  same := accounted.same
  room := accounted.room
  within := accounted.within

variable {notifier : EventNotifier}

theorem Accounted.take {listed : List Nat} (same : notifier.config = s.notifier.config)
    (fewer : notifier.deadLetter.length ≤ s.notifier.deadLetter.length)
    (kept : Names s.deadLettered listed (notifier.deadLetter.map (·.Task)))
    (call : c.numbers = taken) (names : Names s.deadLettered taken c.tasks)
    (whole : (↑listed + ↑taken : Multiset Nat) = ↑s.listed) :
    Accounted config { s with notifier, listed, calls := s.calls ++ [c] } [] where
  once := by
    rw [← accounted.once]
    simp only [tracked, map_append, map_singleton, sum_append, sum_singleton,
      ← whole, numbers, call]
    abel
  listed := kept
  handed := accounted.handed
  calls c' member := by
    rcases mem_append.mp member with old | new
    · exact accounted.calls c' old
    · rw [mem_singleton.mp new, call]
      exact names
  same := same.trans accounted.same
  room := accounted.room
  within := by
    have within := accounted.within
    dsimp only
    omega

theorem Accounted.clear :
    Accounted config { s with
      notifier := { s.notifier with deadLetter := [] }
      listed := []
      cleared := s.cleared ++ s.listed
      returned } [] where
  once := by
    rw [← accounted.once]
    simp only [tracked, ← Multiset.coe_add, Multiset.coe_nil]
    abel
  listed := .nil
  handed := accounted.handed
  calls := accounted.calls
  same := accounted.same
  room := accounted.room
  within := by
    have room := accounted.room
    simp only [length_nil]
    omega

theorem Accounted.set_calls {c' : Replay} (names : Names s.deadLettered c'.numbers c'.tasks) :
    ∀ c ∈ s.calls.set i c', Names s.deadLettered c.numbers c.tasks := by
  intro c₀ member
  rcases mem_or_eq_of_mem_set member with old | rfl
  · exact accounted.calls c₀ old
  · exact names

section
variable (found : s.calls[i]? = some c) {c' : Replay}
include found

theorem Accounted.refuse (same : c'.numbers = c.numbers ∧ c'.tasks = c.tasks) :
    Accounted config { s with calls := s.calls.set i c' } [] where
  once := by
    rw [← accounted.once]
    simp only [tracked, sum_map_eraseIdx numbers found,
      sum_map_set_eraseIdx numbers (List.getElem?_eq_some_iff.mp found).1 c', numbers, same.1]
  listed := accounted.listed
  handed := accounted.handed
  calls := accounted.set_calls (by
    rw [same.1, same.2]
    exact accounted.calls c (mem_of_getElem? found))
  same := accounted.same
  room := accounted.room
  within := accounted.within

theorem Accounted.leave (ended : c.tasks = []) :
    Accounted config { s with calls := s.calls.eraseIdx i, returned } [] where
  once := by
    have names := accounted.calls c (mem_of_getElem? found)
    rw [ended] at names
    have none : c.numbers = [] := forall₂_nil_right_iff.mp names
    rw [← accounted.once]
    simp only [tracked, sum_map_eraseIdx numbers found, numbers, none, Multiset.coe_nil, zero_add]
  listed := accounted.listed
  handed := accounted.handed
  calls c₀ member := accounted.calls c₀ (mem_of_mem_eraseIdx member)
  same := accounted.same
  room := accounted.room
  within := accounted.within

section
variable (first : c.tasks = task :: tasks) (rest : c'.tasks = tasks ∧ c'.numbers = c.numbers.drop 1)
include first rest

theorem Accounted.names_rest : Names s.deadLettered c'.numbers c'.tasks := by
  have names := accounted.calls c (mem_of_getElem? found)
  rw [first] at names
  rw [rest.1, rest.2]
  exact names.tail

theorem Accounted.release :
    Accounted config { s with calls := s.calls.set i c' } (c.numbers.take 1) where
  once := by
    rw [← accounted.once]
    simp only [tracked, sum_map_eraseIdx numbers found,
      sum_map_set_eraseIdx numbers (List.getElem?_eq_some_iff.mp found).1 c', numbers, rest.2,
      ← take_add_drop c.numbers, Multiset.coe_nil]
    abel
  listed := accounted.listed
  handed := accounted.handed
  calls := accounted.set_calls (accounted.names_rest found first rest)
  same := accounted.same
  room := accounted.room
  within := accounted.within

theorem Accounted.hand
    (frame : notifier.deadLetter = s.notifier.deadLetter ∧ notifier.config = s.notifier.config) :
    Accounted config { s with
      notifier
      replayed := s.replayed ++ [{ task with Retries := 0 }]
      handed := s.handed ++ c.numbers.take 1
      calls := s.calls.set i c' } [] where
  once := by
    rw [← (accounted.release found first rest).once]
    simp only [tracked, ← Multiset.coe_add, Multiset.coe_nil]
    abel
  listed := frame.1.symm ▸ accounted.listed
  handed := by
    have names := accounted.calls c (mem_of_getElem? found)
    rw [first] at names
    exact rel_append accounted.handed names.reset
  calls := accounted.set_calls (accounted.names_rest found first rest)
  same := frame.2.trans accounted.same
  room := accounted.room
  within := by
    dsimp only
    rw [frame.1]
    exact accounted.within

end
end
end

theorem accounted_step (accounted : Accounted config s []) (stepped : s.step a = some s') :
    Accounted config s' [] := by
  unfold DeadLetterSystem.step at stepped
  by_cases crashed : s.notifier.crashed = true
  · rw [if_pos crashed] at stepped
    cases stepped
  rw [if_neg crashed] at stepped
  cases a with
  | other n =>
    dsimp only at stepped
    split_ifs at stepped with same
    cases stepped
    obtain ⟨deadLetter, config⟩ := same
    refine ⟨accounted.once, deadLetter.symm ▸ accounted.listed, accounted.handed, accounted.calls,
      config.trans accounted.same, accounted.room, ?_⟩
    dsimp only
    rw [deadLetter]
    exact accounted.within
  | moveToDeadLetter id now task reason =>
    cases stepped
    exact (accounted.record task).moveToDeadLetter (names_new task)
  | replayDeadLetter entryID =>
    dsimp only at stepped
    split at stepped
    · cases stepped
      exact ⟨accounted.once, accounted.listed, accounted.handed, accounted.calls, accounted.same,
        accounted.room, accounted.within⟩
    · next index entry notifier removed =>
        cases stepped
        obtain ⟨found, rfl⟩ := removeDeadLetter_spec removed
        obtain ⟨names, kept⟩ := accounted.listed.remove found
        exact accounted.take rfl (length_eraseIdx_le _ _) kept rfl names (eraseIdx_add _ _)
  | replayAllDeadLetter =>
    cases stepped
    exact accounted.take rfl (Nat.zero_le _) .nil rfl accounted.listed (zero_add _)
  | clearDeadLetter =>
    cases stepped
    exact accounted.clear
  | send i receiver =>
    dsimp only at stepped
    split at stepped
    · next found =>
        split at stepped
        · cases stepped
        · next sent =>
            cases stepped
            exact accounted.hand found rfl ⟨rfl, rfl⟩ (sent_frame (trySend_cases sent))
        · cases stepped
          exact accounted.refuse found ⟨rfl, rfl⟩
    · cases stepped
  | fallBack i id now =>
    -- between the release of the number and its return to the list it is on the move
    dsimp only at stepped
    split at stepped <;> cases stepped
    next found =>
      have names := (accounted.calls _ (mem_of_getElem? found)).reset
      exact (accounted.release found rfl ⟨rfl, rfl⟩).moveToDeadLetter names
  | leave i =>
    dsimp only at stepped
    split at stepped <;> cases stepped
    next found => exact accounted.leave found rfl

end

def buried (log : List NotifierEvent) : List UUID :=
  log.filterMap fun
    | .deadLettered id => some id
    | _ => none

def SameLetters (n n' : EventNotifier) : Prop :=
  (n'.deadLetter = n.deadLetter ∧ n'.config = n.config) ∧ buried n'.log = buried n.log

theorem sameLetters_flushBatch : SameLetters n (n.flushBatch i last batch) := by
  refine ⟨flushBatch_frame, ?_⟩
  cases batch <;> simp [buried, EventNotifier.flushBatch, EventNotifier.beginTask]

theorem sameLetters_receive (received : Received n i task n') : SameLetters n n' := by
  cases received with
  | begun => exact ⟨⟨rfl, rfl⟩, by simp [buried, EventNotifier.beginTask]⟩
  | flushed => exact sameLetters_flushBatch
  | gathered => exact ⟨⟨rfl, rfl⟩, rfl⟩

theorem sameLetters_sent (sent : Sent n task receiver (some n')) : SameLetters n n' := by
  cases sent with
  | handed empty received => exact sameLetters_receive received
  | buffered => exact ⟨⟨rfl, rfl⟩, rfl⟩

theorem step_deadLetter (stepped : n.step a = some n') : SameLetters n n' ∨
    ∃ (m : EventNotifier) (id : UUID) (now : Time) (task : NotificationTask) (reason : Text),
      n' = m.moveToDeadLetter id now task reason ∧ SameLetters n m ∧ m.crashed = n.crashed := by
  cases step_cases stepped with
  | start =>
    unfold EventNotifier.start
    split <;> exact .inl ⟨⟨rfl, rfl⟩, rfl⟩
  | stop =>
    unfold EventNotifier.stop
    split <;> exact .inl ⟨⟨rfl, rfl⟩, rfl⟩
  | unmatched | dropped | exited | retried | panicked | left => exact .inl ⟨⟨rfl, rfl⟩, rfl⟩
  | sending | succeeded => exact .inl ⟨⟨rfl, rfl⟩, by simp [buried]⟩
  | lastFlush | ticked | nextTask => exact .inl sameLetters_flushBatch
  | accepted matched new sent =>
    have same := sameLetters_sent sent
    exact .inl same
  | taken queued received =>
    have same := sameLetters_receive received
    exact .inl same
  | fired found sent =>
    have same := sameLetters_sent sent
    exact .inl same
  | exhausted | expired => exact .inr ⟨_, _, _, _, _, rfl, ⟨⟨rfl, rfl⟩, rfl⟩, rfl⟩

theorem notifier_step_covered {s : DeadLetterSystem} (stepped : s.notifier.step a = some n') :
    ∃ actions s', runSchedule DeadLetterSystem.step s actions = some s' ∧ s'.notifier = n' := by
  have alive := step_alive stepped
  rcases step_deadLetter stepped with
    same | ⟨m, id, now, task, reason, rfl, same, crashed⟩
  · refine ⟨[.other n'], { s with notifier := n' }, ?_, rfl⟩
    exact runSchedule_cons.mpr ⟨_, by rw [DeadLetterSystem.step, if_neg alive, if_pos same.1], rfl⟩
  · -- the rest of the step comes first, since nothing of it reads the list
    have lives : ¬ m.crashed = true := crashed ▸ alive
    refine ⟨[.other m, .moveToDeadLetter id now task reason],
      { s with notifier := m, deadLettered := s.deadLettered ++ [task] }.moveToDeadLetter id now task
        reason [s.deadLettered.length], ?_, rfl⟩
    refine runSchedule_cons.mpr ⟨{ s with notifier := m }, ?_, runSchedule_cons.mpr ⟨_, ?_, rfl⟩⟩
    · rw [DeadLetterSystem.step, if_neg alive, if_pos same.1]
    · rw [DeadLetterSystem.step, if_neg lives]

theorem dead_letters_accounted {config : NotifierConfig} {start : EventNotifier}
    (made : newEventNotifier config = .ok start) (room : 1 ≤ config.DeadLetterLimit)
    {actions : List DeadLetterAction} {s : DeadLetterSystem}
    (run : runSchedule DeadLetterSystem.step { notifier := start } actions = some s) :
    s.notifier.deadLetter.length ≤ config.DeadLetterLimit ∧
      (s.calls = [] →
        (s.listed ++ s.handed ++ s.evicted ++ s.cleared).Perm (List.range s.deadLettered.length) ∧
          Names s.deadLettered s.listed (s.notifier.deadLetter.map (·.Task)) ∧
          Names s.deadLettered s.handed s.replayed) := by
  have accounted : Accounted config s [] := by
    refine runSchedule_invariant (Accounted config · []) (fun _ _ _ => accounted_step) run ?_
    rw [new_eq made]
    exact ⟨rfl, .nil, .nil, by simp, rfl, room, Int.le_of_lt room⟩
  refine ⟨accounted.within, fun idle => ⟨?_, accounted.listed, accounted.handed⟩⟩
  have once := accounted.tracked_eq
  simp only [tracked, idle, map_nil, sum_nil, add_zero, Multiset.coe_add] at once
  exact Multiset.coe_eq_coe.mp once

def sampleTask (id : UUID) : NotificationTask where
  ID := id
  Event := { ID := 7, EventType := "task.done", Payload := [] }
  Webhooks := [2]
  CreatedAt := .zero
  Retries := 3
  MaxRetries := 3

def sampleConfig : NotifierConfig := { defaultNotifierConfig with QueueSize := 1, DeadLetterLimit := 2 }

def replaying : List DeadLetterAction :=
  [.moveToDeadLetter 11 .zero (sampleTask 1) (.str "retry queue full"),
    .moveToDeadLetter 12 .zero (sampleTask 2) (.str "retry queue full"),
    .moveToDeadLetter 13 .zero (sampleTask 3) (.str "retry queue full"),
    .replayAllDeadLetter, .send 0 none, .send 0 none, .fallBack 0 14 .zero, .leave 0]

theorem dead_letters_accounted_replaying :
    ∃ start s, newEventNotifier sampleConfig = .ok start ∧
      runSchedule DeadLetterSystem.step { notifier := start } replaying = some s ∧
      s.returned = [.replayedAll 1] ∧ s.listed = [2] ∧ s.handed = [1] ∧ s.evicted = [0] ∧
      s.notifier.deadLetter.length ≤ sampleConfig.DeadLetterLimit ∧
      (s.calls = [] →
        (s.listed ++ s.handed ++ s.evicted ++ s.cleared).Perm (List.range s.deadLettered.length) ∧
          Names s.deadLettered s.listed (s.notifier.deadLetter.map (·.Task)) ∧
          Names s.deadLettered s.handed s.replayed) := by
  have made : newEventNotifier sampleConfig = .ok { config := sampleConfig } := rfl
  refine ⟨_, exists_and_left.mpr ⟨made, exists_reached (fun s => s.returned = [.replayedAll 1] ∧
    s.listed = [2] ∧ s.handed = [1] ∧ s.evicted = [0]) (by decide +kernel) ?_⟩⟩
  rintro s run ⟨returned, listed, handed, evicted⟩
  exact ⟨returned, listed, handed, evicted, dead_letters_accounted made (by decide) run⟩

def Newest (n : EventNotifier) : Prop :=
  n.deadLetter.map (·.Task.ID) = (buried n.log).rtake n.config.DeadLetterLimit.toNat

theorem newest_moveToDeadLetter (room : 1 ≤ n.config.DeadLetterLimit) (newest : Newest n) (id : UUID)
    (now : Time) (task : NotificationTask) (reason : Text) :
    Newest (n.moveToDeadLetter id now task reason) := by
  obtain ⟨config, entry, rfl, deadLetter⟩ := moveToDeadLetter_spec room id now task reason
  have log : buried (n.moveToDeadLetter id now entry.Task reason).log =
      buried n.log ++ [entry.Task.ID] := by
    unfold EventNotifier.moveToDeadLetter
    cases list : n.deadLetter with
    | nil => simp [buried, show ¬ n.config.DeadLetterLimit ≤ 0 by omega]
    | cons => simp [buried, apply_ite EventNotifier.log]
  obtain ⟨k, limit⟩ := Nat.exists_eq_add_of_le (show 1 ≤ n.config.DeadLetterLimit.toNat by omega)
  have length := congrArg length newest
  unfold Newest at newest ⊢
  rw [limit, Nat.add_comm] at newest length
  rw [config, deadLetter, log, limit, Nat.add_comm, rtake_concat_succ, pushed, map_append]
  congr 1
  simp only [rtake, length_map, length_drop] at length newest ⊢
  -- a full list gives up its first entry, and one with room has held every letter
  split
  · rw [map_drop, newest, drop_drop]
    congr 1
    omega
  · rw [newest]
    congr 1
    omega

theorem newest_step (room : 1 ≤ n.config.DeadLetterLimit) (newest : Newest n)
    (stepped : n.step a = some n') : n'.config = n.config ∧ Newest n' := by
  have kept {m : EventNotifier} (same : SameLetters n m) : Newest m := by
    rwa [Newest, same.1.1, same.1.2, same.2]
  rcases step_deadLetter stepped with same | ⟨m, id, now, task, reason, rfl, same, -⟩
  · exact ⟨same.1.2, kept same⟩
  · have room' : 1 ≤ m.config.DeadLetterLimit := same.1.2 ▸ room
    exact ⟨(moveToDeadLetter_spec room' id now task reason).1.trans same.1.2,
      newest_moveToDeadLetter room' (kept same) id now task reason⟩

theorem newest_letters_kept {config : NotifierConfig} {start : EventNotifier}
    (made : newEventNotifier config = .ok start) (room : 1 ≤ config.DeadLetterLimit)
    {actions : List NotifierAction} (run : runSchedule EventNotifier.step start actions = some n) :
    n.config = config ∧ Newest n := by
  refine runSchedule_invariant (fun n => n.config = config ∧ Newest n) ?_ run ?_
  · rintro n a n' ⟨rfl, newest⟩ stepped
    exact newest_step room newest stepped
  · rw [new_eq made]
    exact ⟨rfl, by simp [Newest, buried, rtake]⟩

theorem newest_letters_kept_unhanded :
    let config := { defaultNotifierConfig with QueueSize := 0, DeadLetterLimit := 1 }
    ∃ start n, newEventNotifier config = .ok start ∧ runSchedule EventNotifier.step start [.start,
        .notify 1 .zero (sampleTask 1).Event [2] (some 0), .send 0,
        .finish 0 (.failed (.str "refused")) 0 .zero, .leave 0, .fire 0 none 0 .zero] = some n ∧
      n.deadLetter ≠ [] ∧ n.config = config ∧ Newest n := by
  intro config
  have made : newEventNotifier config = .ok { config } := rfl
  exact ⟨_, exists_and_left.mpr ⟨made, exists_reached (·.deadLetter ≠ []) (by decide +kernel)
    fun n run seen => ⟨seen, newest_letters_kept made (by decide) run⟩⟩⟩

end NexusPipe.Proof.Webhooks.DeadLetter
