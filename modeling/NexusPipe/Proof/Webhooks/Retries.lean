import Mathlib.Algebra.BigOperators.Group.Multiset.Basic
import NexusPipe.Proof.Webhooks.Ledger
import NexusPipe.Proof.Webhooks.Resend

namespace NexusPipe.Proof.Webhooks.Tasks
open Library NexusPipe.Webhooks Relation List

variable {task : NotificationTask}

section
variable (run bury most : Nat)

/-- The cost of what can come of a call, where a run costs `run` and a dead letter costs `bury`, `k`
retries are left and `left` of its deliveries may still fail: each of them leads to another run, with
one retry less, or to a dead letter if none is left. -/
def callCost : Nat → Nat → Nat
  | 0, left => bury * left
  | _ + 1, 0 => 0
  | k + 1, left + 1 => run + callCost k most + callCost k left

def taskCost (k : Nat) : Nat := run + callCost run bury most k most

def remaining (t : NotificationTask) : Nat := (t.MaxRetries - t.Retries).toNat

def beganFor (id : UUID) : NotifierEvent → Bool
  | .began _ id' => id' = id
  | _ => false

def buriedFor (id : UUID) : NotifierEvent → Bool
  | .deadLettered id' => id' = id
  | _ => false

def runs (id : UUID) (log : List NotifierEvent) : Nat := log.countP (beganFor id)

def deadLetters (id : UUID) (log : List NotifierEvent) : Nat := log.countP (buriedFor id)

def partCost (id : UUID) (log : List NotifierEvent) : Part → Nat
  | .queued t | .pending t => if t.ID = id then taskCost run bury most (remaining t) else 0
  | .running p =>
    if p.task.ID = id then callCost run bury most (remaining p.task) (most - failures log p) else 0

def outlay (id : UUID) (l : Ledger) : Nat :=
  run * runs id l.log + bury * deadLetters id l.log +
    (l.parts.map (partCost run bury most id l.log)).sum

variable {run bury most} {id : UUID} {l : Ledger} {p : Processing} {parts : Multiset Part}
  {accepted : List NotificationTask}

theorem bury_le_taskCost (some : 0 < most) (k : Nat) : bury ≤ taskCost run bury most k := by
  induction k with
  | zero => exact (Nat.le_mul_of_pos_right bury some).trans (Nat.le_add_left _ _)
  | succ k ih =>
    obtain ⟨rest, rfl⟩ := Nat.exists_eq_succ_of_ne_zero some.ne'
    have least : taskCost run bury (rest + 1) k ≤ callCost run bury (rest + 1) (k + 1) (rest + 1) :=
      Nat.le_add_right _ _
    exact ih.trans (least.trans (Nat.le_add_left _ _))

theorem failures_append (other : ∀ e ∈ events, eventNumber e ≠ some p.number) :
    failures (log ++ events) p = failures log p := by
  simp [failures, countP_sentBy_eq_zero other, countP_succeededBy_eq_zero other]

theorem sum_partCost_append
    (other : ∀ part ∈ parts, ∀ p, part = .running p → ∀ e ∈ events, eventNumber e ≠ some p.number) :
    (parts.map (partCost run bury most id (log ++ events))).sum =
      (parts.map (partCost run bury most id log)).sum := by
  refine congrArg Multiset.sum (Multiset.map_congr rfl fun part member => ?_)
  cases part with
  | running p => rw [partCost, failures_append (other _ member p rfl), partCost]
  | _ => rfl

theorem runs_concat (e : NotifierEvent) :
    runs id (log ++ [e]) = runs id log + if beganFor id e then 1 else 0 := by
  rw [runs, countP_append, countP_singleton, runs]

theorem deadLetters_concat (e : NotifierEvent) :
    deadLetters id (log ++ [e]) = deadLetters id log + if buriedFor id e then 1 else 0 := by
  rw [deadLetters, countP_append, countP_singleton, deadLetters]

theorem outlay_cons : outlay run bury most id ⟨part ::ₘ parts, begun, log, accepted⟩ =
      partCost run bury most id log part + outlay run bury most id ⟨parts, begun, log, accepted⟩ := by
  simp only [outlay, Multiset.map_cons, Multiset.sum_cons]
  exact Nat.add_left_comm _ _ _

theorem outlay_begin (known : Known ⟨.queued task ::ₘ parts, begun, log, accepted⟩) :
    outlay run bury most id ⟨.running { number := begun, task, ahead := task.Webhooks } ::ₘ parts,
        begun + 1, log ++ [.began begun task.ID], accepted⟩ =
      outlay run bury most id ⟨.queued task ::ₘ parts, begun, log, accepted⟩ := by
  have known := ((known_cons_iff rfl).mp known).2
  have none : failures (log ++ [.began begun task.ID])
      { number := begun, task, ahead := task.Webhooks } = 0 := by
    simp [failures, countP_sentBy_eq_zero known.unused, sentBy]
  have others : (parts.map (partCost run bury most id (log ++ [.began begun task.ID]))).sum =
      (parts.map (partCost run bury most id log)).sum := by
    refine sum_partCost_append fun part member p same e new => ?_
    rw [mem_singleton.mp new]
    exact fun numbered => ((known.held part member).below p same).ne' (Option.some.inj numbered)
  simp only [outlay, Multiset.map_cons, Multiset.sum_cons, others, runs_concat, deadLetters_concat,
    partCost, none, beganFor, buriedFor, taskCost]
  split_ifs <;> simp_all [Nat.mul_add]
  omega

theorem outlay_resume (known : Known ⟨.running p ::ₘ parts, begun, log, accepted⟩) {p' : Processing}
    (own : ∀ k ∈ eventNumber e, k = p.number) (began : beganFor id e = false)
    (buried : buriedFor id e = false) (task : p'.task = p.task)
    (failed : failures (log ++ [e]) p' = failures log p) :
    outlay run bury most id ⟨.running p' ::ₘ parts, begun, log ++ [e], accepted⟩ =
      outlay run bury most id ⟨.running p ::ₘ parts, begun, log, accepted⟩ := by
  have others : (parts.map (partCost run bury most id (log ++ [e]))).sum =
      (parts.map (partCost run bury most id log)).sum := by
    refine sum_partCost_append fun part member => known.others_silent (fun e' new => ?_) member
    rw [mem_singleton.mp new]
    exact own
  simp only [outlay, Multiset.map_cons, Multiset.sum_cons, others, runs_concat, deadLetters_concat,
    partCost, failed, task, began, buried]
  rfl

theorem outlay_bury :
    outlay run bury most id ⟨parts, begun, log ++ [.deadLettered dead], accepted⟩ =
      (if dead = id then bury else 0) + outlay run bury most id ⟨parts, begun, log, accepted⟩ := by
  have others : (parts.map (partCost run bury most id (log ++ [.deadLettered dead]))).sum =
      (parts.map (partCost run bury most id log)).sum := by
    refine sum_partCost_append fun part member p same e new => ?_
    rw [mem_singleton.mp new]
    exact fun numbered => by cases numbered
  unfold outlay
  dsimp only
  rw [others, runs_concat, deadLetters_concat]
  simp only [beganFor, buriedFor, decide_eq_true_eq, Bool.false_eq_true, if_false, Nat.add_zero]
  split_ifs
  · rw [Nat.mul_add]
    omega
  · rw [Nat.add_zero, Nat.zero_add]

theorem outlay_calm (some : 0 < most) (known : Known l) (old : id ∈ l.accepted.map (·.ID))
    (step : Calm ending l l') : outlay run bury most id l' ≤ outlay run bury most id l := by
  cases step with
  | accept task new =>
    have other : task.ID ≠ id := fun same => new (same ▸ old)
    rw [outlay_cons, partCost, if_neg other, Nat.zero_add]
    exact Nat.le_refl _
  | begin begins =>
    cases begins
    exact (outlay_begin known).le
  | send w ahead | succeed w ahead =>
    refine le_of_eq (outlay_resume known ?_ rfl rfl rfl ?_)
    · exact fun k numbered => (Option.some.inj numbered).symm
    · simp [failures, sentBy, succeededBy, sendingOne]
      omega
  | leave p done =>
    rw [outlay_cons]
    exact Nat.le_add_left _ _
  | fire task =>
    rw [outlay_cons, outlay_cons]
    exact Nat.le_refl _
  | drop task =>
    rw [outlay_bury, outlay_cons, partCost]
    refine Nat.add_le_add_right ?_ _
    split_ifs
    · exact bury_le_taskCost some (remaining task)
    · exact Nat.le_refl 0
  | lose task =>
    rw [outlay_cons]
    exact Nat.le_add_left _ _

theorem failures_failed
    (known : Known ⟨.running ⟨number, task, w :: ahead, true⟩ ::ₘ parts, begun, log, accepted⟩) :
    failures log ⟨number, task', ahead, false⟩ =
      failures log ⟨number, task, w :: ahead, true⟩ + 1 := by
  have sends := (known.held _ (Multiset.mem_cons_self _ _)).sends _ rfl
  simp only [sendingOne, if_true] at sends
  simp only [failures, sendingOne, if_true, Bool.false_eq_true, if_false]
  omega

variable {t : NotificationTask}

theorem callCost_retry (again : t.Retries < t.MaxRetries) (few : failed < most) :
    callCost run bury most (remaining t) (most - failed) =
      taskCost run bury most (remaining { t with Retries := t.Retries + 1 }) +
        callCost run bury most (remaining { t with Retries := t.Retries + 1 })
          (most - (failed + 1)) := by
  have retries : remaining t = remaining { t with Retries := t.Retries + 1 } + 1 := by
    simp only [remaining]
    omega
  have left : most - failed = (most - (failed + 1)) + 1 := by omega
  rw [retries, left]
  rfl

theorem callCost_bury (last : ¬ t.Retries < t.MaxRetries) (few : failed < most) :
    callCost run bury most (remaining t) (most - failed) =
      bury + callCost run bury most (remaining t) (most - (failed + 1)) := by
  have none : remaining t = 0 := by
    simp only [remaining]
    omega
  have left : most - failed = (most - (failed + 1)) + 1 := by omega
  rw [none, left]
  exact (Nat.mul_succ _ _).trans (Nat.add_comm _ _)

theorem outlay_fails (known : Known l) (few : failures l.log p < most) (fails : Fails p l l') :
    outlay run bury most id l' ≤ outlay run bury most id l := by
  -- what the failed delivery leads to was put aside for it in the cost of the call
  cases fails with
  | retry again =>
    rw [outlay_cons, outlay_cons, outlay_cons, ← Nat.add_assoc]
    refine Nat.add_le_add_right ?_ _
    simp only [partCost, failures_failed known]
    split_ifs
    · exact (callCost_retry again few).ge
    · exact Nat.le_refl 0
  | bury last =>
    rw [outlay_bury, outlay_cons, outlay_cons, ← Nat.add_assoc]
    refine Nat.add_le_add_right ?_ _
    simp only [partCost, failures_failed known]
    split_ifs
    · exact (callCost_bury last few).ge
    · exact Nat.le_refl 0
  | lose last =>
    rw [outlay_cons, outlay_cons]
    refine Nat.add_le_add_right ?_ _
    simp only [partCost, failures_failed known]
    split_ifs
    · exact (Nat.le_add_left _ _).trans (callCost_bury last few).ge
    · exact Nat.le_refl 0

/-- No accepted task costs more than a tree of retries in which every call has as many failing
deliveries as allowed. -/
structure Bounded (run bury most : Nat) (l : Ledger) : Prop extends Known l where
  within : ∀ t ∈ l.accepted, outlay run bury most t.ID l ≤ taskCost run bury most 3

theorem outlay_unknown (known : Known l) (new : id ∉ l.accepted.map (·.ID)) :
    outlay run bury most id l = 0 := by
  have none : l.log.countP (beganFor id) = 0 := by
    refine countP_eq_zero.mpr fun e member began => new ?_
    have accepted := (known.events e member).1
    cases e <;> simp_all [beganFor, eventTask]
  have none' : l.log.countP (buriedFor id) = 0 := by
    refine countP_eq_zero.mpr fun e member buried => new ?_
    have accepted := (known.events e member).1
    cases e <;> simp_all [buriedFor, eventTask]
  have free : (l.parts.map (partCost run bury most id l.log)).sum = 0 := by
    refine Multiset.sum_eq_zero fun cost member => ?_
    obtain ⟨part, held, rfl⟩ := Multiset.mem_map.mp member
    have other : part.task.ID ≠ id := fun same => new (same ▸ (known.held part held).known)
    cases part <;> exact if_neg other
  rw [outlay, runs, deadLetters, none, none', free]
  rfl

theorem bounded_calm (some : 0 < most) (bounded : Bounded run bury most l) (step : Calm ending l l') :
    Bounded run bury most l' := by
  have known := bounded.toKnown
  refine ⟨known_calm known step, fun t member => ?_⟩
  -- the bound is set when the task is accepted, and from then on the outlay does not grow
  by_cases old : t ∈ l.accepted
  · exact (outlay_calm some known (mem_map_of_mem old) step).trans (bounded.within t old)
  · cases step with
    | accept task new first limit =>
      obtain rfl : t = task :=
        mem_singleton.mp ((mem_append.mp member).resolve_left old)
      have whole : remaining t = 3 := by simp [remaining, first, limit]
      rw [outlay_cons, partCost, if_pos rfl, whole]
      exact Nat.add_le_add_left (outlay_unknown known new).le _
    | begin begins =>
      cases begins
      exact absurd member old
    | _ => exact absurd member old

theorem bounded_fails (bounded : Bounded run bury most l) (few : failures l.log p < most)
    (fails : Fails p l l') : Bounded run bury most l' := by
  have known := bounded.toKnown
  have same : l'.accepted = l.accepted := by cases fails <;> rfl
  refine ⟨known_fails known fails, fun t member => ?_⟩
  exact (outlay_fails known few fails).trans (bounded.within t (same ▸ member))

theorem bounded_step (some : 0 < most) (bounded : Bounded run bury most (ledger n))
    (few : FailsAtMost most n a) (stepped : n.step a = .some n') :
    Bounded run bury most (ledger n') :=
  invariant_step (fun _ _ => bounded_calm some)
    (fun _ _ _ ends => bounded_fails bounded (ends.failures_lt few)) bounded stepped

end

theorem bounded_new (made : newEventNotifier config = .ok n) (run bury most : Nat) :
    Bounded run bury most (ledger n) := by
  refine ⟨known_new made, ?_⟩
  rw [new_eq made]
  simp [ledger]

section
variable {n : EventNotifier} (made : newEventNotifier config = .ok start)
  (run : runSchedule EventNotifier.step start actions = some n)
include made run

theorem runs_within_tree (some : 0 < most)
    (few : Along EventNotifier.step (FailsAtMost most) start actions) :
    ∀ task ∈ n.accepted, task.MaxRetries = 3 ∧ runs task.ID n.log ≤ taskCost 1 0 most 3 ∧
      deadLetters task.ID n.log ≤ taskCost 0 1 most 3 := by
  intro task member
  -- runs and dead letters are counted by the same outlay, at different prices
  have bounded (r b : Nat) : Bounded r b most (ledger n) :=
    runSchedule_invariant_along (FailsAtMost most) (fun n => Bounded r b most (ledger n))
      (fun _ _ _ => bounded_step some) run few (bounded_new made r b most)
  have calls := (bounded 1 0).within task member
  have letters := (bounded 0 1).within task member
  simp only [outlay, Nat.one_mul, Nat.zero_mul, Nat.add_zero, Nat.zero_add] at calls letters
  exact ⟨(bounded 1 0).limits task member, (Nat.le_add_right _ _).trans calls,
    (Nat.le_add_right _ _).trans letters⟩

-- with two failing deliveries in every call the tree has seven calls and eight dead letters
example : taskCost 1 0 2 3 = 7 ∧ taskCost 0 1 2 3 = 8 := ⟨rfl, rfl⟩

theorem runs_le_of_single_failures
    (single : Along EventNotifier.step (FailsAtMost 1) start actions) :
    ∀ task ∈ n.accepted, (runs task.ID n.log : Int) ≤ task.MaxRetries + 1 ∧
      deadLetters task.ID n.log ≤ 1 := by
  intro task member
  obtain ⟨limit, calls, letters⟩ := runs_within_tree made run Nat.one_pos single task member
  have chain : taskCost 1 0 1 3 = 4 := rfl
  rw [limit]
  exact ⟨by omega, letters⟩

end

instance (most : Nat) (n : EventNotifier) (a : NotifierAction) : Decidable (FailsAtMost most n a) :=
  match a with
  | .finish i (.failed _) _ _ =>
    inferInstanceAs (Decidable (∀ q ∈ n.processors[i]?, ∀ p ∈ q.processing, failures n.log p < most))
  | .finish _ .delivered _ _ | .finish _ .panicked _ _ | .start | .stop | .notify _ _ _ _ _ | .take _
  | .quit _ | .tick _ | .send _ | .leave _ | .fire _ _ _ _ => .isTrue trivial

def refusedThroughout (webhooks : List UUID) (retries : Nat) : List NotifierAction :=
  let failing := webhooks.flatMap fun _ => Notifier.delivering Notifier.refused
  [.start, .notify 1 .zero Notifier.sampleEvent webhooks (some 0)] ++ failing ++
    (List.replicate retries ([.leave 0, .fire 0 none 0 .zero, .take 0] ++ failing)).flatten

def tally (n : EventNotifier) : List (Int × Nat × Nat) :=
  n.accepted.map fun t => (t.MaxRetries, runs t.ID n.log, deadLetters t.ID n.log)

theorem runs_le_one_webhook : ∃ start n, newEventNotifier defaultNotifierConfig = .ok start ∧
      runSchedule EventNotifier.step start (refusedThroughout [2] 3) = some n ∧
      tally n = [(3, 4, 1)] ∧
      ∀ task ∈ n.accepted, (runs task.ID n.log : Int) ≤ task.MaxRetries + 1 ∧
        deadLetters task.ID n.log ≤ 1 := by
  have made : newEventNotifier defaultNotifierConfig = .ok { config := defaultNotifierConfig } := rfl
  refine ⟨_, exists_and_left.mpr ⟨made, exists_reached (fun n => tally n = [(3, 4, 1)])
    (by decide +kernel) fun n run counted => ?_⟩⟩
  exact ⟨counted, runs_le_of_single_failures made run (by decide +kernel)⟩

theorem runs_two_webhooks : ∃ start n, newEventNotifier defaultNotifierConfig = .ok start ∧
      runSchedule EventNotifier.step start (refusedThroughout [2, 3] 6) = some n ∧
      tally n = [(3, 7, 8)] := by
  exact ⟨_, exists_and_left.mpr ⟨rfl, exists_reached _ (by decide +kernel) fun _ _ seen => seen⟩⟩

theorem callCost_lt_two_pow (most k left : Nat) : callCost 1 0 most k left < 2 ^ k := by
  induction k generalizing left with
  | zero => simp [callCost]
  | succ k ih =>
    cases left with
    | zero => exact Nat.two_pow_pos (k + 1)
    | succ left =>
      have retried := ih most
      have others := ih left
      rw [callCost, Nat.pow_succ]
      omega

/-- A run is finite, so its calls have a largest number of failing deliveries. -/
theorem exists_failsAtMost (run : runSchedule EventNotifier.step n actions = some n') :
    ∃ least, ∀ most ≥ least, Along EventNotifier.step (FailsAtMost most) n actions := by
  induction actions generalizing n with
  | nil => exact ⟨0, fun _ _ => trivial⟩
  | cons a actions ih =>
    obtain ⟨next, stepped, rest⟩ := runSchedule_cons.mp run
    obtain ⟨least, later⟩ := ih rest
    refine ⟨least + n.log.length + 1, fun most more => ⟨?_, fun s found => ?_⟩⟩
    · unfold FailsAtMost
      split
      · intro q _ p _
        have sent : n.log.countP (sentBy p.number) ≤ n.log.length := countP_le_length
        unfold failures
        omega
      · trivial
    · exact Option.mem_unique stepped found ▸ later most (by omega)

theorem runs_le_two_pow {n : EventNotifier} (made : newEventNotifier config = .ok start)
    (run : runSchedule EventNotifier.step start actions = some n) :
    ∀ task ∈ n.accepted, runs task.ID n.log ≤ 2 ^ task.MaxRetries.toNat := by
  intro task member
  obtain ⟨least, few⟩ := exists_failsAtMost run
  obtain ⟨limit, calls, -⟩ :=
    runs_within_tree made run (Nat.succ_pos least) (few _ (Nat.le_succ least)) task member
  rw [limit]
  exact calls.trans ((Nat.add_comm 1 _).trans_le (callCost_lt_two_pow _ 3 _))

theorem runs_le_two_pow_three_webhooks : ∃ start n,
    newEventNotifier defaultNotifierConfig = .ok start ∧
      runSchedule EventNotifier.step start (refusedThroughout [2, 3, 4] 7) = some n ∧
      tally n = [(3, 8, 17)] ∧
      ∀ task ∈ n.accepted, runs task.ID n.log ≤ 2 ^ task.MaxRetries.toNat := by
  have made : newEventNotifier defaultNotifierConfig = .ok { config := defaultNotifierConfig } := rfl
  exact ⟨_, exists_and_left.mpr ⟨made, exists_reached (fun n => tally n = [(3, 8, 17)])
    (by decide +kernel) fun n run counted => ⟨counted, runs_le_two_pow made run⟩⟩⟩

end NexusPipe.Proof.Webhooks.Tasks
