import NexusPipe.Library.List
import NexusPipe.Proof.Go
import NexusPipe.Queue.Consumer

namespace NexusPipe.Proof.Queue
open Library NexusPipe.Queue Consumer List

def invocations (events : List ConsumerEvent) : List (Option Text) :=
  events.filterMap fun
    | .handled err => some err
    | _ => none

def settlements (events : List ConsumerEvent) : List Settlement :=
  events.filterMap fun
    | .settled how => some how
    | _ => none

@[simp]
theorem invocations_append (events later : List ConsumerEvent) :
    invocations (events ++ later) = invocations events ++ invocations later :=
  filterMap_append

@[simp]
theorem settlements_append (events later : List ConsumerEvent) :
    settlements (events ++ later) = settlements events ++ settlements later :=
  filterMap_append

@[simp]
theorem settlements_settled (how : Settlement) : settlements [.settled how] = [how] := rfl

def Shut (env : DeliveryEnv) (attempt : Int) (round : Nat) : Prop :=
  env.done round = true ∨ 0 < attempt ∧ env.interrupted round = true

instance (env : DeliveryEnv) (attempt : Int) (round : Nat) : Decidable (Shut env attempt round) :=
  inferInstanceAs (Decidable (_ ∨ _))

def called (c : Consumer) (env : DeliveryEnv) (attempt : Int) (round : Nat) : List ConsumerEvent :=
  (if 0 < attempt then [.waited (c.retryDelay attempt)] else []) ++ [.handled (env.handler round)]

variable {c : Consumer} {env : DeliveryEnv} {round : Nat}

theorem processRound_cases (c : Consumer) (env : DeliveryEnv) (s : ProcessState) :
    (c.cfg.MaxRetry < s.attempt ∧
        c.processRound env s = .inr (s.events ++ c.nack c.cfg.RequeueOnFail)) ∨
      (s.attempt ≤ c.cfg.MaxRetry ∧ Shut env s.attempt s.round ∧
        c.processRound env s = .inr (s.events ++ c.nack false)) ∨
      (s.attempt ≤ c.cfg.MaxRetry ∧ ¬ Shut env s.attempt s.round ∧ env.handler s.round = none ∧
        c.processRound env s = .inr (s.events ++ called c env s.attempt s.round ++ c.ack)) ∨
      (s.attempt ≤ c.cfg.MaxRetry ∧ ¬ Shut env s.attempt s.round ∧ env.handler s.round ≠ none ∧
        c.processRound env s = .inl ⟨toInt64 (s.attempt + 1), s.round + 1,
          s.events ++ called c env s.attempt s.round⟩) := by
  by_cases within : s.attempt ≤ c.cfg.MaxRetry
  · by_cases done : env.done s.round = true
    · simp [processRound, Shut, within, done]
    · by_cases retry : 0 < s.attempt
      · by_cases ends : env.interrupted s.round = true
        · simp [processRound, Shut, within, done, retry, ends]
        · cases answered : env.handler s.round <;>
            simp [processRound, Shut, called, within, done, retry, ends, answered]
      · cases answered : env.handler s.round <;>
          simp [processRound, Shut, called, within, done, retry, answered]
  · simp [processRound, within, not_le.mp within]

@[simp]
theorem invocations_called (c : Consumer) (env : DeliveryEnv) (attempt : Int) (round : Nat) :
    invocations (called c env attempt round) = [env.handler round] := by
  by_cases retry : 0 < attempt <;> simp [called, retry, invocations]

@[simp]
theorem settlements_called (c : Consumer) (env : DeliveryEnv) (attempt : Int) (round : Nat) :
    settlements (called c env attempt round) = [] := by
  by_cases retry : 0 < attempt <;> simp [called, retry, settlements]

theorem settlements_nack (manual : c.cfg.AutoAck = false) (requeue : Bool) :
    settlements (c.nack requeue) = [.nack requeue] := by
  simp [nack, manual]

def Retries (c : Consumer) (env : DeliveryEnv) (round : Nat) : Prop :=
  round ≤ c.cfg.MaxRetry ∧ ¬ Shut env round round ∧ env.handler round ≠ none

instance (c : Consumer) (env : DeliveryEnv) (round : Nat) : Decidable (Retries c env round) :=
  inferInstanceAs (Decidable (_ ∧ _))

def earlier (c : Consumer) (env : DeliveryEnv) (round : Nat) : List ConsumerEvent :=
  (List.range round).flatMap fun k : Nat => called c env k k

def atRound (c : Consumer) (env : DeliveryEnv) (round : Nat) : ProcessState :=
  ⟨round, round, earlier c env round⟩

theorem earlier_succ :
    earlier c env (round + 1) = earlier c env round ++ called c env round round := by
  simp [earlier, range_succ]

theorem invocations_earlier :
    invocations (earlier c env round) = (range round).map env.handler := by
  induction round with
  | zero => rfl
  | succ round ih =>
    rw [earlier_succ, invocations_append, ih, invocations_called, range_succ,
      map_append, map_singleton]

theorem settlements_earlier : settlements (earlier c env round) = [] := by
  induction round with
  | zero => rfl
  | succ round ih => rw [earlier_succ, settlements_append, ih, settlements_called, append_nil]

theorem toInt64_succ (bounded : c.cfg.MaxRetry < 2 ^ 63 - 1) (within : round ≤ c.cfg.MaxRetry) :
    toInt64 (round + 1) = (round + 1 : Nat) := by
  rw [toInt64_eq_self (by omega) (by omega), Int.natCast_succ]

theorem processRound_retries (bounded : c.cfg.MaxRetry < 2 ^ 63 - 1) (retries : Retries c env round) :
    c.processRound env (atRound c env round) = .inl (atRound c env (round + 1)) := by
  obtain ⟨within, live, failed⟩ := retries
  rcases processRound_cases c env (atRound c env round) with
    ⟨beyond, -⟩ | ⟨-, shut, -⟩ | ⟨-, -, answered, -⟩ | ⟨-, -, -, next⟩
  · exact absurd within (not_le.mpr beyond)
  · exact absurd shut live
  · exact absurd answered failed
  · rw [next, atRound, atRound, earlier_succ, toInt64_succ bounded within]

theorem rounds_atRound (bounded : c.cfg.MaxRetry < 2 ^ 63 - 1) (retries : ∀ j < round, Retries c env j) :
    Rounds (c.processRound env) round (atRound c env 0) (atRound c env round) := by
  induction round with
  | zero => exact .refl _
  | succ round ih =>
    have before := ih fun j less => retries j (Nat.lt_succ_of_lt less)
    have last := processRound_retries bounded (retries round (Nat.lt_succ_self round))
    exact before.trans (.head last (.refl _))

variable {events : List ConsumerEvent} {fuel : Nat}

variable (env) in
theorem processMessage_cases (bounded : c.cfg.MaxRetry < 2 ^ 63 - 1) :
    ∃ round events, (∀ j < round, Retries c env j) ∧ round ≤ (c.cfg.MaxRetry + 1).toNat ∧
      (∀ fuel, round < fuel → c.processMessage env fuel = some events) ∧
      ((∃ requeue, events = earlier c env round ++ c.nack requeue ∧
          (c.cfg.MaxRetry < round ∧ requeue = c.cfg.RequeueOnFail ∨
            round ≤ c.cfg.MaxRetry ∧ Shut env round round ∧ requeue = false)) ∨
        round ≤ c.cfg.MaxRetry ∧ env.handler round = none ∧
          events = earlier c env (round + 1) ++ c.ack) := by
  have last : ¬ Retries c env (c.cfg.MaxRetry + 1).toNat := by
    rintro ⟨within, -⟩
    omega
  have found : ∃ round, ¬ Retries c env round := ⟨_, last⟩
  have retries (j : Nat) (less : j < Nat.find found) : Retries c env j :=
    not_not.mp (Nat.find_min found less)
  have returned (events : List ConsumerEvent)
      (exit : c.processRound env (atRound c env (Nat.find found)) = .inr events) (fuel : Nat)
      (more : Nat.find found < fuel) : c.processMessage env fuel = some events := by
    have left : loopFor (c.processRound env) (Nat.find found + 1) (atRound c env 0) = some events := by
      rw [(rounds_atRound bounded retries).loopFor_add, loopFor_inr exit]
    exact loopFor_mono left more
  refine ⟨Nat.find found, ?_⟩
  rcases processRound_cases c env (atRound c env (Nat.find found)) with
    ⟨beyond, exit⟩ | ⟨within, shut, exit⟩ | ⟨within, -, answered, exit⟩ | ⟨within, live, failed, -⟩
  · exact ⟨_, retries, Nat.find_le last, returned _ exit, .inl ⟨_, rfl, .inl ⟨beyond, rfl⟩⟩⟩
  · exact ⟨_, retries, Nat.find_le last, returned _ exit, .inl ⟨_, rfl, .inr ⟨within, shut, rfl⟩⟩⟩
  · rw [atRound, ← earlier_succ] at exit
    exact ⟨_, retries, Nat.find_le last, returned _ exit, .inr ⟨within, answered, rfl⟩⟩
  · exact absurd ⟨within, live, failed⟩ (Nat.find_spec found)

theorem none_notMem_invocations_earlier (retries : ∀ j < round, Retries c env j) :
    none ∉ invocations (earlier c env round) := by
  rw [invocations_earlier, mem_map]
  rintro ⟨j, member, answered⟩
  exact (retries j (mem_range.mp member)).2.2 answered

theorem processMessage_settles_once (c : Consumer) (env : DeliveryEnv)
    (manual : c.cfg.AutoAck = false) (bounded : c.cfg.MaxRetry < 2 ^ 63 - 1) :
    ∃ (events : List ConsumerEvent) (how : Settlement), (∀ fuel, (c.cfg.MaxRetry + 1).toNat < fuel →
        c.processMessage env fuel = some (events ++ [.settled how])) ∧ settlements events = [] ∧
      (how = .ack ↔ none ∈ invocations events) ∧
      ((∃ requeue, how = .nack requeue) ↔ none ∉ invocations events) ∧
      (∀ i, (invocations events)[i]? = some none → i + 1 = (invocations events).length) ∧
      ((invocations events).length : Int) ≤ max (c.cfg.MaxRetry + 1) 0 := by
  obtain ⟨round, events, retries, bound, returned, left⟩ := processMessage_cases env bounded
  have unanswered := none_notMem_invocations_earlier retries
  have count : (invocations (earlier c env round)).length = round := by
    simp [invocations_earlier]
  rcases left with ⟨requeue, rfl, -⟩ | ⟨within, answered, rfl⟩
  · rw [nack, manual, if_neg Bool.false_ne_true] at returned
    refine ⟨earlier c env round, .nack requeue, fun fuel more => returned fuel (by omega),
      settlements_earlier, by simp [unanswered], by simp [unanswered], ?_, by omega⟩
    exact fun i found => absurd (mem_of_getElem? found) unanswered
  · rw [Consumer.ack, manual, if_pos (by rfl)] at returned
    have calls : invocations (earlier c env (round + 1)) =
        invocations (earlier c env round) ++ [none] := by
      rw [invocations_earlier, invocations_earlier, range_succ, map_append, map_singleton, answered]
    refine ⟨earlier c env (round + 1), .ack, fun fuel more => returned fuel (by omega),
      settlements_earlier, by simp [calls], by simp [calls], ?_, ?_⟩
    · intro i found
      rw [calls] at found ⊢
      rcases getElem?_concat_cases found with earlier | ⟨rfl, -⟩
      · exact absurd (mem_of_getElem? earlier) unanswered
      · rw [length_append, length_singleton]
    · rw [calls, length_append, length_singleton]
      omega

def failingDelivery : DeliveryEnv where
  handler := fun _ => some (.str "unavailable")
  done := fun _ => false
  interrupted := fun _ => false
  done_succ := by simp
  done_of_interrupted := by simp

def defaultConsumer : Consumer := ⟨defaultConsumerConfig "nexuspipe.events"⟩

theorem processMessage_settles_once_default : ∃ (events : List ConsumerEvent) (how : Settlement),
      defaultConsumer.processMessage failingDelivery 5 = some (events ++ [.settled how]) ∧
      settlements events = [] ∧ (invocations events).length ≤ 4 := by
  obtain ⟨events, how, returned, single, -, -, -, count⟩ :=
    processMessage_settles_once defaultConsumer failingDelivery rfl (by decide)
  refine ⟨events, how, returned 5 (by decide), single, ?_⟩
  exact Int.ofNat_le.mp count

def Undisturbed (c : Consumer) (env : DeliveryEnv) : Prop :=
  c.cfg.MaxRetry < 2 ^ 63 - 1 ∧ ∀ round : Nat, round ≤ c.cfg.MaxRetry → ¬ Shut env round round

theorem processMessage_unique (returned : c.processMessage env fuel = some events)
    (returned' : c.processMessage env fuel' = some events') : events = events' :=
  eq_of_mono (fun _ _ _ more ended => loopFor_mono ended more) returned returned'

theorem settlements_of_unbounded (manual : c.cfg.AutoAck = false)
    (unbounded : ¬ c.cfg.MaxRetry < 2 ^ 63 - 1) (returned : c.processMessage env fuel = some events)
    (unprocessed : none ∉ invocations events) : settlements events = [.nack false] := by
  -- The counter never passes `MaxRetry`, so the loop leaves through the handler or the shutdown.
  have preserved (s s' : ProcessState) (holds : s.attempt ≤ c.cfg.MaxRetry ∧ settlements s.events = [])
      (next : c.processRound env s = .inl s') :
      s'.attempt ≤ c.cfg.MaxRetry ∧ settlements s'.events = [] := by
    rcases processRound_cases c env s with
      ⟨-, left⟩ | ⟨-, -, left⟩ | ⟨-, -, -, left⟩ | ⟨-, -, -, next'⟩
    · cases next.symm.trans left
    · cases next.symm.trans left
    · cases next.symm.trans left
    · cases next.symm.trans next'
      refine ⟨(toInt64_le _).trans (not_lt.mp unbounded), ?_⟩
      rw [settlements_append, holds.2, settlements_called, nil_append]
  obtain ⟨s, ⟨bound, fresh⟩, exit⟩ := loopFor_exit _ preserved ⟨by simp only; omega, rfl⟩ returned
  rcases processRound_cases c env s with
    ⟨beyond, -⟩ | ⟨-, -, left⟩ | ⟨-, -, answered, left⟩ | ⟨-, -, -, next⟩
  · exact absurd bound (not_le.mpr beyond)
  · cases exit.symm.trans left
    rw [settlements_append, fresh, settlements_nack manual, nil_append]
  · cases exit.symm.trans left
    simp [answered] at unprocessed
  · cases exit.symm.trans next

theorem requeue_cases (manual : c.cfg.AutoAck = false) (requeue : c.cfg.RequeueOnFail = true)
    (returned : c.processMessage env fuel = some events) (unprocessed : none ∉ invocations events) :
    Undisturbed c env ∧ settlements events = [.nack true] ∨
      ¬ Undisturbed c env ∧ settlements events = [.nack false] := by
  by_cases bounded : c.cfg.MaxRetry < 2 ^ 63 - 1
  · obtain ⟨round, events', retries, -, returned', left⟩ := processMessage_cases env bounded
    obtain rfl := processMessage_unique returned (returned' _ (Nat.lt_succ_self round))
    rcases left with ⟨how, rfl, exit⟩ | ⟨within, answered, rfl⟩
    · rw [settlements_append, settlements_earlier, settlements_nack manual, nil_append]
      rcases exit with ⟨beyond, rfl⟩ | ⟨within, shut, rfl⟩
      · exact .inl ⟨⟨bounded, fun j within => (retries j (by omega)).2.1⟩, by rw [requeue]⟩
      · exact .inr ⟨fun undisturbed => undisturbed.2 round within shut, rfl⟩
    · rw [invocations_append, invocations_earlier, range_succ] at unprocessed
      simp [answered] at unprocessed
  · exact .inr ⟨fun undisturbed => bounded undisturbed.1,
      settlements_of_unbounded manual bounded returned unprocessed⟩

def taken : List WorkerTurn → List DeliveryEnv
  | .delivery env :: turns => env :: taken turns
  | _ => []

theorem workerLoop_delivery : c.workerLoop fuel (.delivery env :: turns) = some logs ↔
      ∃ events later, c.processMessage env fuel = some events ∧
        c.workerLoop fuel turns = some later ∧ logs = (env, events) :: later := by
  rw [workerLoop]
  simp only [Option.bind_eq_bind, Option.bind_eq_some_iff, Option.pure_def, Option.some.injEq]
  constructor
  · rintro ⟨events, processed, later, rest, rfl⟩
    exact ⟨events, later, processed, rest, rfl⟩
  · rintro ⟨events, later, processed, rest, rfl⟩
    exact ⟨events, processed, later, rest, rfl⟩

theorem processMessage_of_mem_workerLoop (returned : c.workerLoop fuel turns = some logs)
    (member : (env, events) ∈ logs) : c.processMessage env fuel = some events := by
  induction turns generalizing logs with
  | nil => cases returned; cases member
  | cons turn turns ih =>
    cases turn with
    | shutdown | closed => cases returned; cases member
    | delivery first =>
      obtain ⟨events', later, processed, rest, rfl⟩ := workerLoop_delivery.mp returned
      rcases mem_cons.mp member with same | further
      · cases same
        exact processed
      · exact ih rest further

theorem exists_workerLoop (returns : ∀ env, ∃ events, c.processMessage env fuel = some events)
    (turns : List WorkerTurn) :
    ∃ logs, c.workerLoop fuel turns = some logs ∧ logs.map Prod.fst = taken turns := by
  induction turns with
  | nil => exact ⟨[], rfl, rfl⟩
  | cons turn turns ih =>
    cases turn with
    | shutdown | closed => exact ⟨[], rfl, rfl⟩
    | delivery env =>
      obtain ⟨events, processed⟩ := returns env
      obtain ⟨later, rest, names⟩ := ih
      exact ⟨_, workerLoop_delivery.mpr ⟨events, later, processed, rest, rfl⟩,
        by rw [map_cons, names, taken]⟩

theorem workerLoop_requeues_iff (c : Consumer) (manual : c.cfg.AutoAck = false)
    (requeue : c.cfg.RequeueOnFail = true) (turns : List WorkerTurn) :
    (∀ fuel logs, c.workerLoop fuel turns = some logs →
      ∀ env events, (env, events) ∈ logs → none ∉ invocations events →
        (settlements events = [.nack true] ↔ Undisturbed c env) ∧
          (settlements events = [.nack false] ↔ ¬ Undisturbed c env)) ∧
    (c.cfg.MaxRetry < 2 ^ 63 - 1 → ∀ fuel, (c.cfg.MaxRetry + 1).toNat < fuel →
      ∃ logs, c.workerLoop fuel turns = some logs ∧ logs.map Prod.fst = taken turns) := by
  constructor
  · intro fuel logs returned env events member unprocessed
    have processed := processMessage_of_mem_workerLoop returned member
    rcases requeue_cases manual requeue processed unprocessed with
      ⟨undisturbed, settled⟩ | ⟨disturbed, settled⟩
    · simp [settled, undisturbed]
    · simp [settled, disturbed]
  · intro bounded fuel more
    refine exists_workerLoop (fun env => ?_) turns
    obtain ⟨round, events, -, bound, returned, -⟩ := processMessage_cases env bounded
    exact ⟨events, returned fuel (by omega)⟩

theorem workerLoop_requeues_iff_failing :
    ∃ events, defaultConsumer.workerLoop 5 [.delivery failingDelivery, .shutdown] =
        some [(failingDelivery, events)] ∧
      none ∉ invocations events ∧ settlements events = [.nack true] := by
  obtain ⟨settled, -⟩ :=
    workerLoop_requeues_iff defaultConsumer rfl rfl [.delivery failingDelivery, .shutdown]
  have undisturbed : Undisturbed defaultConsumer failingDelivery :=
    ⟨by decide, fun round _ => by simp [Shut, failingDelivery]⟩
  obtain ⟨events, returned, unprocessed⟩ : ∃ events,
      defaultConsumer.workerLoop 5 [.delivery failingDelivery, .shutdown] =
        some [(failingDelivery, events)] ∧ none ∉ invocations events :=
    ⟨_, rfl, by decide⟩
  refine ⟨events, returned, unprocessed, ?_⟩
  exact (settled 5 _ returned _ events mem_cons_self unprocessed).1.mpr undisturbed

def interruptedDelivery : DeliveryEnv where
  handler := fun _ => some (.str "unavailable")
  done := fun round => 2 ≤ round
  interrupted := fun round => round = 1
  done_succ := by
    intro round done
    exact decide_eq_true (Nat.le_succ_of_le (of_decide_eq_true done))
  done_of_interrupted := by
    intro round ends
    rw [of_decide_eq_true ends]
    rfl

theorem workerLoop_discards_interrupted :
    defaultConsumer.workerLoop 5 [.delivery interruptedDelivery, .shutdown] =
      some [(interruptedDelivery, [.handled (some (.str "unavailable")), .settled (.nack false)])] := by
  rfl

end NexusPipe.Proof.Queue
