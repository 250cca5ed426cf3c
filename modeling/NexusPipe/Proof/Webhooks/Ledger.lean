import Mathlib.Algebra.Order.Group.Multiset
import Mathlib.Logic.Relation
import NexusPipe.Library.List
import NexusPipe.Proof.Webhooks.Steps

namespace NexusPipe.Proof.Webhooks.Tasks
open Library NexusPipe.Webhooks Relation List

inductive Part
  | queued (task : NotificationTask)
  | pending (task : NotificationTask)
  | running (p : Processing)
  deriving DecidableEq

def Part.task : Part → NotificationTask
  | .queued task | .pending task => task
  | .running p => p.task

structure Ledger where
  parts : Multiset Part
  begun : Nat
  log : List NotifierEvent
  accepted : List NotificationTask

inductive Begins : Ledger → Ledger → Prop
  | begin (task : NotificationTask) : Begins ⟨.queued task ::ₘ parts, begun, log, accepted⟩
        ⟨.running { number := begun, task, ahead := task.Webhooks } ::ₘ parts, begun + 1,
          log ++ [.began begun task.ID], accepted⟩

inductive Calm (ending : Ledger → Processing → Prop) : Ledger → Ledger → Prop
  | accept {parts begun log accepted} (task : NotificationTask)
      (new : task.ID ∉ accepted.map (·.ID)) (first : task.Retries = 0)
      (limit : task.MaxRetries = 3) :
      Calm ending ⟨parts, begun, log, accepted⟩ ⟨.queued task ::ₘ parts, begun, log, accepted ++ [task]⟩
  | begin (begins : Begins l l') : Calm ending l l'
  | send (w : UUID) (ahead : List UUID) :
      Calm ending ⟨.running ⟨number, task, w :: ahead, false⟩ ::ₘ parts, begun, log, accepted⟩
        ⟨.running ⟨number, task, w :: ahead, true⟩ ::ₘ parts, begun,
          log ++ [.sent number task.ID w], accepted⟩
  | succeed (w : UUID) (ahead : List UUID)
      (ends : ending ⟨.running ⟨number, task, w :: ahead, true⟩ ::ₘ parts, begun, log, accepted⟩
        ⟨number, task, w :: ahead, true⟩) :
      Calm ending ⟨.running ⟨number, task, w :: ahead, true⟩ ::ₘ parts, begun, log, accepted⟩
        ⟨.running ⟨number, task, ahead, false⟩ ::ₘ parts, begun,
          log ++ [.succeeded number task.ID w], accepted⟩
  | leave (p : Processing) (done : p.ahead = []) :
      Calm ending ⟨.running p ::ₘ parts, begun, log, accepted⟩ ⟨parts, begun, log, accepted⟩
  | fire (task : NotificationTask) : Calm ending ⟨.pending task ::ₘ parts, begun, log, accepted⟩
        ⟨.queued task ::ₘ parts, begun, log, accepted⟩
  | drop (task : NotificationTask) : Calm ending ⟨.pending task ::ₘ parts, begun, log, accepted⟩
        ⟨parts, begun, log ++ [.deadLettered task.ID], accepted⟩
  -- the dead letter list has no room at all, and the process ends
  | lose (task : NotificationTask) :
      Calm ending ⟨.pending task ::ₘ parts, begun, log, accepted⟩ ⟨parts, begun, log, accepted⟩

inductive Fails : Processing → Ledger → Ledger → Prop
  | retry {parts begun log accepted number task w ahead} (again : task.Retries < task.MaxRetries) :
      Fails ⟨number, task, w :: ahead, true⟩
        ⟨.running ⟨number, task, w :: ahead, true⟩ ::ₘ parts, begun, log, accepted⟩
        ⟨.pending { task with Retries := task.Retries + 1 } ::ₘ
          .running ⟨number, { task with Retries := task.Retries + 1 }, ahead, false⟩ ::ₘ parts,
          begun, log, accepted⟩
  | bury (last : ¬ task.Retries < task.MaxRetries) : Fails ⟨number, task, w :: ahead, true⟩
        ⟨.running ⟨number, task, w :: ahead, true⟩ ::ₘ parts, begun, log, accepted⟩
        ⟨.running ⟨number, task, ahead, false⟩ ::ₘ parts, begun, log ++ [.deadLettered task.ID],
          accepted⟩
  | lose (last : ¬ task.Retries < task.MaxRetries) : Fails ⟨number, task, w :: ahead, true⟩
        ⟨.running ⟨number, task, w :: ahead, true⟩ ::ₘ parts, begun, log, accepted⟩
        ⟨.running ⟨number, task, ahead, false⟩ ::ₘ parts, begun, log, accepted⟩

def queue (tasks : List NotificationTask) : Multiset Part := ↑(tasks.map Part.queued)

def processorParts : Processor → Multiset Part
  | .busy p => {.running p}
  | .gathering batch => queue batch
  | .flushing p rest _ => .running p ::ₘ queue rest
  | .idle | .exited => 0

def waiting (n : EventNotifier) : Multiset Part := queue n.taskCh + ↑(n.timers.map Part.pending)

-- a sum, so that a step of one goroutine leaves the other summands alone
def parts (n : EventNotifier) : Multiset Part := waiting n + (n.processors.map processorParts).sum

def ledger (n : EventNotifier) : Ledger := ⟨parts n, n.begun, n.log, n.accepted⟩

def others (n : EventNotifier) (i : Nat) : Multiset Part :=
  waiting n + ((n.processors.eraseIdx i).map processorParts).sum

structure Leads (n : EventNotifier) (sources : Multiset Part) (n' : EventNotifier) : Prop where
  accepted : n'.accepted = n.accepted
  path : ∀ accepted, ReflTransGen Begins ⟨sources, n.begun, n.log, accepted⟩
    ⟨parts n', n'.begun, n'.log, accepted⟩

section
variable {n n' : EventNotifier} {q : Processor}

@[simp] theorem queue_nil : queue [] = 0 := rfl

@[simp] theorem queue_cons : queue (task :: tasks) = .queued task ::ₘ queue tasks := rfl

theorem queue_concat : queue (tasks ++ [task]) = .queued task ::ₘ queue tasks := by
  rw [queue, map_append, ← Multiset.coe_add, add_comm]
  rfl

theorem waiting_timer (processors : List Processor) :
    waiting { n with processors, timers := n.timers ++ [task] } = .pending task ::ₘ waiting n := by
  rw [waiting, map_append, ← Multiset.coe_add, ← add_assoc, add_comm]
  rfl

theorem parts_set (bound : i < n.processors.length) (q : Processor) :
    waiting n + ((n.processors.set i q).map processorParts).sum = processorParts q + others n i := by
  rw [sum_map_set_eraseIdx processorParts bound, others]
  exact add_left_comm _ _ _

theorem parts_eq (found : n.processors[i]? = some q) : parts n = processorParts q + others n i := by
  rw [parts, sum_map_eraseIdx processorParts found, others]
  exact add_left_comm _ _ _

theorem ledger_eq (same : parts n = held) : ledger n = ⟨held, n.begun, n.log, n.accepted⟩ := by
  rw [ledger, same]

theorem Leads.of_eq (accepted : n'.accepted = n.accepted) (begun : n'.begun = n.begun)
    (log : n'.log = n.log) (same : parts n' = sources) : Leads n sources n' := by
  refine ⟨accepted, fun accepted => ?_⟩
  rw [begun, log, same]

theorem leads_beginTask (bound : i < n.processors.length)
    (shape : ∀ p, processorParts (within p) = .running p ::ₘ held) :
    Leads n (.queued task ::ₘ (held + others n i)) (n.beginTask i task within) := by
  refine ⟨rfl, fun accepted => .single ?_⟩
  have after : parts (n.beginTask i task within) =
      .running { number := n.begun, task, ahead := task.Webhooks } ::ₘ (held + others n i) := by
    rw [← Multiset.cons_add, ← shape]
    exact parts_set bound _
  rw [after]
  exact .begin task

theorem leads_flushBatch (bound : i < n.processors.length) :
    Leads n (queue batch + others n i) (n.flushBatch i last batch) := by
  cases batch with
  | nil => cases last <;> exact .of_eq rfl rfl rfl (parts_set bound _)
  | cons task rest =>
    have shape : ∀ p, processorParts (.flushing p rest last) = .running p ::ₘ queue rest :=
      fun _ => rfl
    rw [queue_cons, Multiset.cons_add]
    exact leads_beginTask bound shape

theorem parts_gathering (found : n.processors[i]? = some (.gathering batch)) :
    .queued task ::ₘ parts n = queue (batch ++ [task]) + others n i := by
  rw [parts_eq found, queue_concat, Multiset.cons_add]
  rfl

theorem leads_receive (received : Received n i task n') : Leads n (.queued task ::ₘ parts n) n' := by
  cases received with
  | begun found =>
    have shape : ∀ p, processorParts (.busy p) = .running p ::ₘ processorParts .idle := fun _ => rfl
    rw [parts_eq found]
    exact leads_beginTask (List.getElem?_eq_some_iff.mp found).1 shape
  | flushed found =>
    rw [parts_gathering found]
    exact leads_flushBatch (List.getElem?_eq_some_iff.mp found).1
  | gathered found =>
    rw [parts_gathering found]
    exact .of_eq rfl rfl rfl (parts_set (List.getElem?_eq_some_iff.mp found).1 _)

theorem leads_sent (sent : Sent n task receiver (some n')) :
    Leads n (.queued task ::ₘ parts n) n' := by
  cases sent with
  | handed empty received => exact leads_receive received
  | buffered room =>
    refine .of_eq rfl rfl rfl ?_
    simp only [parts, waiting, queue_concat, Multiset.cons_add]

theorem processorParts_resume (current : q.processing = some p) :
    ∃ rest, processorParts q = .running p ::ₘ rest ∧
      ∀ p', processorParts (q.resume p') = .running p' ::ₘ rest := by
  cases q with
  | busy p₀ =>
    cases current
    exact ⟨0, rfl, fun _ => rfl⟩
  | flushing p₀ rest last =>
    cases current
    exact ⟨queue rest, rfl, fun _ => rfl⟩
  | _ => cases current

theorem exists_parts_resume (found : n.processors[i]? = some q) (current : q.processing = some p) :
    ∃ kept, parts n = .running p ::ₘ (waiting n + kept) ∧
      ∀ (m : EventNotifier) (p' : Processing), m.processors = n.processors.set i (q.resume p') →
        parts m = .running p' ::ₘ (waiting m + kept) := by
  obtain ⟨rest, before, after⟩ := processorParts_resume current
  have bound := (List.getElem?_eq_some_iff.mp found).1
  refine ⟨rest + ((n.processors.eraseIdx i).map processorParts).sum, ?_, fun m p' changed => ?_⟩
  · rw [parts_eq found, before, others, Multiset.cons_add, add_left_comm]
  · rw [parts, changed, sum_map_set_eraseIdx processorParts bound, after, Multiset.cons_add,
      Multiset.add_cons]

section
variable {id : UUID}

theorem ledger_moveToDeadLetter : ledger (n.moveToDeadLetter id now task reason) =
        ⟨parts n, n.begun, n.log ++ [.deadLettered task.ID], n.accepted⟩ ∨
      ledger (n.moveToDeadLetter id now task reason) = ledger n := by
  rcases moveToDeadLetter_cases with crashed | ⟨deadLetter, moved⟩
  · rw [crashed]
    exact .inr rfl
  · rw [moved]
    exact .inl rfl

end
end

def sentBy (number : Nat) : NotifierEvent → Bool
  | .sent number' _ _ => number' = number
  | _ => false

def succeededBy (number : Nat) : NotifierEvent → Bool
  | .succeeded number' _ _ => number' = number
  | _ => false

def sendingOne (p : Processing) : Nat := if p.sending then 1 else 0

def failures (log : List NotifierEvent) (p : Processing) : Nat :=
  log.countP (sentBy p.number) - log.countP (succeededBy p.number) - sendingOne p

def FailsAtMost (most : Nat) (n : EventNotifier) : NotifierAction → Prop
  | .finish i (.failed _) _ _ =>
    ∀ q ∈ n.processors[i]?, ∀ p ∈ q.processing, failures n.log p < most
  | _ => True

def Ends (n : EventNotifier) (a : NotifierAction) (outcome : DeliverOutcome) (p : Processing) : Prop :=
  ∃ i id now, a = .finish i outcome id now ∧ ∃ q ∈ n.processors[i]?, q.processing = some p

def Succeeds (n : EventNotifier) (a : NotifierAction) (l : Ledger) (p : Processing) : Prop :=
  l = ledger n ∧ Ends n a .delivered p

inductive Effect (n : EventNotifier) (a : NotifierAction) (n' : EventNotifier) : Prop
  | calm (path : ReflTransGen (Calm (Succeeds n a)) (ledger n) (ledger n'))
  | failed {p : Processing} {err : Text} (ends : Ends n a (.failed err) p)
      (fails : Fails p (ledger n) (ledger n'))

section
variable {n : EventNotifier} {i : Nat} {q : Processor}

theorem Ends.failures_lt (ends : Ends n a (.failed err) p) (few : FailsAtMost most n a) :
    failures n.log p < most := by
  obtain ⟨i, id, now, rfl, q, found, current⟩ := ends
  exact few q found p current

theorem effect_of_eq (same : ledger n' = ledger n) : Effect n a n' := .calm (same ▸ .refl)

theorem Leads.effect (leads : Leads m sources n')
    (before : ledger n = ⟨sources, m.begun, m.log, m.accepted⟩) : Effect n a n' := by
  refine .calm ?_
  rw [before, ledger, leads.accepted]
  exact ReflTransGen.mono (fun _ _ => Calm.begin) _ _ (leads.path m.accepted)

theorem start_effect : Effect n a n.start := by
  refine effect_of_eq ?_
  unfold EventNotifier.start
  split
  · rfl
  · simp [ledger, parts, waiting, processorParts]

theorem stop_effect : Effect n a n.stop := by
  refine effect_of_eq ?_
  unfold EventNotifier.stop
  split <;> rfl

theorem accepted_effect {task : NotificationTask} (new : task.ID ∉ n.accepted.map (·.ID))
    (first : task.Retries = 0) (limit : task.MaxRetries = 3) (sent : Sent n task receiver (some n')) :
    Effect n a { n' with accepted := n'.accepted ++ [task] } := by
  have leads := leads_sent sent
  refine .calm (.head (.accept task new first limit) ?_)
  rw [ledger, leads.accepted]
  exact ReflTransGen.mono (fun _ _ => Calm.begin) _ _ (leads.path _)

theorem take_effect (queued : n.taskCh = task :: rest)
    (received : Received { n with taskCh := rest } i task n') : Effect n a n' := by
  refine (leads_receive received).effect ?_
  simp only [ledger, parts, waiting, queued, queue_cons, Multiset.cons_add]

theorem flush_effect (found : n.processors[i]? = some (.gathering batch)) :
    Effect n a (n.flushBatch i last batch) := by
  refine (leads_flushBatch (List.getElem?_eq_some_iff.mp found).1).effect ?_
  exact ledger_eq (parts_eq found)

theorem Leads.effect_after (leads : Leads m sources n')
    (first : Calm (Succeeds n a) (ledger n) ⟨sources, m.begun, m.log, m.accepted⟩) :
    Effect n a n' := by
  refine .calm (.head first ?_)
  rw [ledger, leads.accepted]
  exact ReflTransGen.mono (fun _ _ => Calm.begin) _ _ (leads.path _)

theorem leave_effect (held : Multiset Part) (found : n.processors[i]? = some q)
    (shape : processorParts q = .running p ::ₘ held) (done : p.ahead = [])
    (leads : Leads n (held + others n i) n') : Effect n a n' := by
  refine leads.effect_after ?_
  rw [ledger_eq (parts_eq found), shape, Multiset.cons_add]
  exact .leave p done

section
variable (found : n.processors[i]? = some q)
include found

variable {number : Nat} {task : NotificationTask} {w id : UUID} {ahead : List UUID}

theorem sending_effect (current : q.processing = some ⟨number, task, w :: ahead, false⟩) :
    Effect n a { n with
      processors := n.processors.set i (q.resume ⟨number, task, w :: ahead, true⟩)
      log := n.log ++ [.sent number task.ID w] } := by
  obtain ⟨kept, before, after⟩ := exists_parts_resume found current
  refine .calm (.single ?_)
  rw [ledger_eq before, ledger_eq (after _ _ rfl)]
  exact .send w ahead

variable (current : q.processing = some ⟨number, task, w :: ahead, true⟩)
include current

theorem succeeded_effect :
    Effect n (.finish i .delivered id now) { n with
      processors := n.processors.set i (q.resume ⟨number, task, ahead, false⟩)
      log := n.log ++ [.succeeded number task.ID w] } := by
  obtain ⟨kept, before, after⟩ := exists_parts_resume found current
  refine .calm (.single ?_)
  rw [ledger_eq before, ledger_eq (after _ _ rfl)]
  exact .succeed w ahead ⟨(ledger_eq before).symm, i, id, now, rfl, q, found, current⟩

theorem retried_effect (again : task.Retries < task.MaxRetries) :
    Effect n (.finish i (.failed err) id now) { n with
      processors := n.processors.set i
        (q.resume ⟨number, { task with Retries := task.Retries + 1 }, ahead, false⟩)
      timers := n.timers ++ [{ task with Retries := task.Retries + 1 }] } := by
  obtain ⟨kept, before, after⟩ := exists_parts_resume found current
  refine .failed ⟨i, id, now, rfl, q, found, current⟩ ?_
  rw [ledger_eq before, ledger_eq (after _ _ rfl), waiting_timer, Multiset.cons_add,
    Multiset.cons_swap]
  exact .retry again

theorem exhausted_effect (last : ¬ task.Retries < task.MaxRetries) :
    Effect n (.finish i (.failed err) id now)
      ({ n with processors := n.processors.set i (q.resume ⟨number, task, ahead, false⟩)
        }.moveToDeadLetter id now task (sprintf "max retries exceeded: %v" [err])) := by
  obtain ⟨kept, before, after⟩ := exists_parts_resume found current
  refine .failed ⟨i, id, now, rfl, q, found, current⟩ ?_
  rw [ledger_eq before]
  rcases ledger_moveToDeadLetter with buried | lost
  · rw [buried, after _ _ rfl]
    exact .bury last
  · rw [lost, ledger_eq (after _ _ rfl)]
    exact .lose last

end

section
variable {k : Nat} (found : n.timers[k]? = some task)
include found

theorem ledger_timer : ledger n =
    ⟨.pending task ::ₘ parts { n with timers := n.timers.eraseIdx k }, n.begun, n.log,
      n.accepted⟩ := by
  obtain ⟨bound, rfl⟩ := List.getElem?_eq_some_iff.mp found
  have moved := (getElem_cons_eraseIdx_perm bound).map Part.pending
  rw [ledger, parts, waiting, ← Multiset.coe_eq_coe.mpr moved, parts, waiting, map_cons,
    ← Multiset.cons_coe, Multiset.add_cons, Multiset.cons_add]

theorem fired_effect (sent : Sent { n with timers := n.timers.eraseIdx k } task receiver (some n')) :
    Effect n a n' := by
  refine (leads_sent sent).effect_after ?_
  rw [ledger_timer found]
  exact .fire task

theorem expired_effect {id : UUID} :
    Effect n a ({ n with timers := n.timers.eraseIdx k }.moveToDeadLetter id now task reason) := by
  refine .calm (.single ?_)
  rw [ledger_timer found]
  rcases ledger_moveToDeadLetter with dropped | lost
  · rw [dropped]
    exact .drop task
  · rw [lost]
    exact .lose task

end

theorem step_effect (stepped : n.step a = some n') : Effect n a n' := by
  cases step_cases stepped with
  | start => exact start_effect
  | stop => exact stop_effect
  | unmatched | dropped | panicked => exact effect_of_eq rfl
  | accepted matched new sent => exact accepted_effect new rfl rfl sent
  | taken queued received => exact take_effect queued received
  | exited closed found =>
    have bound := (List.getElem?_eq_some_iff.mp found).1
    exact effect_of_eq (ledger_eq ((parts_set bound .exited).trans (parts_eq found).symm))
  | lastFlush _ found | ticked found => exact flush_effect found
  | sending found current => exact sending_effect found current
  | succeeded found current => exact succeeded_effect found current
  | retried found current again => exact retried_effect found current again
  | exhausted found current last => exact exhausted_effect found current last
  | left found done =>
    have bound := (List.getElem?_eq_some_iff.mp found).1
    exact leave_effect 0 found rfl done (.of_eq rfl rfl rfl (parts_set bound .idle))
  | nextTask found done =>
    have bound := (List.getElem?_eq_some_iff.mp found).1
    exact leave_effect _ found rfl done (leads_flushBatch bound)
  | fired found sent => exact fired_effect found sent
  | expired found => exact expired_effect found

theorem invariant_step {invariant : Ledger → Prop}
    (calm : ∀ l l', invariant l → Calm (Succeeds n a) l l' → invariant l')
    (failed : ∀ p err l', Ends n a (.failed err) p → Fails p (ledger n) l' → invariant l')
    (before : invariant (ledger n)) (stepped : n.step a = some n') : invariant (ledger n') := by
  cases step_effect stepped with
  | calm path =>
    -- a step can be two of the ledger, such as a send that a worker takes at once
    generalize ledger n' = l' at path
    induction path with
    | refl => exact before
    | tail _ step ih => exact calm _ _ ih step
  | failed ends fails => exact failed _ _ _ ends fails

end
def Part.number? : Part → Option Nat
  | .running p => some p.number
  | _ => none

def eventNumber : NotifierEvent → Option Nat
  | .began number _ | .sent number _ _ | .succeeded number _ _ => some number
  | .deadLettered _ => none

def eventTask : NotifierEvent → UUID
  | .began _ id | .sent _ id _ | .succeeded _ id _ | .deadLettered id => id

structure Fits (begun : Nat) (log : List NotifierEvent) (accepted : List NotificationTask)
    (part : Part) : Prop where
  known : part.task.ID ∈ accepted.map (·.ID)
  below : ∀ p, part = .running p → p.number < begun
  sends : ∀ p, part = .running p →
    log.countP (succeededBy p.number) + sendingOne p ≤ log.countP (sentBy p.number)

structure Known (l : Ledger) : Prop where
  held : ∀ part ∈ l.parts, Fits l.begun l.log l.accepted part
  distinct : (l.parts.filterMap Part.number?).Nodup
  events : ∀ e ∈ l.log, eventTask e ∈ l.accepted.map (·.ID) ∧ ∀ k ∈ eventNumber e, k < l.begun
  limits : ∀ t ∈ l.accepted, t.MaxRetries = 3

section
variable {p p' : Processing} {parts : Multiset Part} {begun : Nat} {log events : List NotifierEvent}
  {accepted : List NotificationTask} {part : Part} {task : NotificationTask}

section
variable (other : ∀ e ∈ events, eventNumber e ≠ some number)
include other

theorem countP_sentBy_eq_zero : events.countP (sentBy number) = 0 := by
  refine countP_eq_zero.mpr fun e member => ?_
  have differs := other e member
  cases e <;> simp_all [sentBy, eventNumber]

theorem countP_succeededBy_eq_zero : events.countP (succeededBy number) = 0 := by
  refine countP_eq_zero.mpr fun e member => ?_
  have differs := other e member
  cases e <;> simp_all [succeededBy, eventNumber]

end

theorem Fits.append (fits : Fits begun log accepted part)
    (other : ∀ p, part = .running p → ∀ e ∈ events, eventNumber e ≠ some p.number) :
    Fits begun (log ++ events) accepted part where
  known := fits.known
  below := fits.below
  sends p same := by
    rw [countP_append, countP_append, countP_sentBy_eq_zero (other p same),
      countP_succeededBy_eq_zero (other p same)]
    exact fits.sends p same

theorem Fits.next (fits : Fits begun log accepted part) : Fits (begun + 1) log accepted part :=
  ⟨fits.known, fun p same => Nat.lt_succ_of_lt (fits.below p same), fits.sends⟩

theorem Fits.accept (fits : Fits begun log accepted part) (task : NotificationTask) :
    Fits begun log (accepted ++ [task]) part :=
  ⟨by simp [map_append, fits.known], fits.below, fits.sends⟩

theorem fits_waiting (waits : part.number? = none) (known : part.task.ID ∈ accepted.map (·.ID)) :
    Fits begun log accepted part := by
  refine ⟨known, ?_, ?_⟩ <;> rintro p rfl <;> cases waits

theorem fits_running (known : p.task.ID ∈ accepted.map (·.ID)) (below : p.number < begun)
    (sends : log.countP (succeededBy p.number) + sendingOne p ≤ log.countP (sentBy p.number)) :
    Fits begun log accepted (.running p) := by
  refine ⟨known, ?_, ?_⟩ <;> rintro _ ⟨⟩ <;> assumption

theorem numbers_waiting (waits : part.number? = none) :
    (part ::ₘ parts).filterMap Part.number? = parts.filterMap Part.number? :=
  Multiset.filterMap_cons_none _ _ waits

theorem numbers_running :
    (.running p ::ₘ parts).filterMap Part.number? = p.number ::ₘ parts.filterMap Part.number? :=
  Multiset.filterMap_cons_some _ _ _ rfl

section
variable (known : Known ⟨.running p ::ₘ parts, begun, log, accepted⟩)
include known

theorem Known.number_ne (member : .running p' ∈ parts) : p.number ≠ p'.number := by
  have distinct := known.distinct
  rw [numbers_running, Multiset.nodup_cons] at distinct
  intro same
  exact distinct.1 ((Multiset.mem_filterMap _ _).mpr ⟨_, member, congrArg some same.symm⟩)

theorem Known.others_silent (own : ∀ e ∈ events, ∀ k ∈ eventNumber e, k = p.number)
    (member : part ∈ parts) :
    ∀ p', part = .running p' → ∀ e ∈ events, eventNumber e ≠ some p'.number := by
  rintro p' rfl e new numbered
  exact known.number_ne member (own e new _ numbered).symm

theorem Known.resume (number : p'.number = p.number) (task : p'.task.ID = p.task.ID)
    (own : ∀ e ∈ events, eventTask e = p.task.ID ∧ ∀ k ∈ eventNumber e, k = p.number)
    (sends : (log ++ events).countP (succeededBy p.number) + sendingOne p' ≤
      (log ++ events).countP (sentBy p.number)) :
    Known ⟨.running p' ::ₘ parts, begun, log ++ events, accepted⟩ := by
  obtain ⟨fits, rest⟩ := Multiset.forall_mem_cons.mp known.held
  have below := fits.below p rfl
  refine ⟨Multiset.forall_mem_cons.mpr ⟨?_, fun part member => ?_⟩, ?_, ?_, known.limits⟩
  · exact fits_running (task ▸ fits.known) (number ▸ below) (number ▸ sends)
  · exact (rest part member).append
      (known.others_silent (fun e new => (own e new).2) member)
  · have distinct := known.distinct
    rw [numbers_running] at distinct ⊢
    exact number ▸ distinct
  · intro e member
    rcases mem_append.mp member with old | new
    · exact known.events e old
    · obtain ⟨same, numbered⟩ := own e new
      exact ⟨same ▸ fits.known, fun k at_ => numbered k at_ ▸ below⟩

theorem Known.leave : Known ⟨parts, begun, log, accepted⟩ := by
  have distinct := known.distinct
  rw [numbers_running, Multiset.nodup_cons] at distinct
  exact ⟨(Multiset.forall_mem_cons.mp known.held).2, distinct.2, known.events, known.limits⟩

end

section
variable (waits : part.number? = none)
include waits

theorem known_cons_iff : Known ⟨part ::ₘ parts, begun, log, accepted⟩ ↔
      part.task.ID ∈ accepted.map (·.ID) ∧ Known ⟨parts, begun, log, accepted⟩ := by
  constructor
  · intro known
    have distinct := known.distinct
    rw [numbers_waiting waits] at distinct
    obtain ⟨fits, rest⟩ := Multiset.forall_mem_cons.mp known.held
    exact ⟨fits.known, rest, distinct, known.events, known.limits⟩
  · rintro ⟨accepted, known⟩
    refine ⟨Multiset.forall_mem_cons.mpr ⟨fits_waiting waits accepted, known.held⟩, ?_, known.events,
      known.limits⟩
    rw [numbers_waiting waits]
    exact known.distinct

end

theorem Known.accept (known : Known ⟨parts, begun, log, accepted⟩) (limit : task.MaxRetries = 3) :
    Known ⟨.queued task ::ₘ parts, begun, log, accepted ++ [task]⟩ := by
  refine (known_cons_iff rfl).mpr ⟨by simp [Part.task], ?_, known.distinct, ?_, ?_⟩
  · exact fun part member => (known.held part member).accept task
  · exact fun e member => ⟨by simp [map_append, (known.events e member).1],
      (known.events e member).2⟩
  · intro t member
    rcases mem_append.mp member with old | new
    · exact known.limits t old
    · exact mem_singleton.mp new ▸ limit

theorem Known.unused (known : Known ⟨parts, begun, log, accepted⟩) :
    ∀ e ∈ log, eventNumber e ≠ some begun :=
  fun e member same => Nat.lt_irrefl _ ((known.events e member).2 begun same)

theorem Known.begin (known : Known ⟨.queued task ::ₘ parts, begun, log, accepted⟩) :
    Known ⟨.running { number := begun, task, ahead := task.Webhooks } ::ₘ parts, begun + 1,
      log ++ [.began begun task.ID], accepted⟩ := by
  obtain ⟨accepted, known⟩ := (known_cons_iff rfl).mp known
  have fresh (p : Processing) (member : .running p ∈ parts) : p.number < begun :=
    (known.held _ member).below p rfl
  refine ⟨Multiset.forall_mem_cons.mpr ⟨?_, fun part member => ?_⟩, ?_, ?_, known.limits⟩
  · refine fits_running accepted (Nat.lt_succ_self _) ?_
    rw [countP_append, countP_succeededBy_eq_zero known.unused]
    exact Nat.zero_le _
  · refine ((known.held part member).append ?_).next
    rintro p rfl e new
    rw [mem_singleton.mp new]
    exact fun same => (fresh p member).ne' (Option.some.inj same)
  · rw [numbers_running, Multiset.nodup_cons]
    refine ⟨fun member => ?_, known.distinct⟩
    obtain ⟨part, held, numbered⟩ := (Multiset.mem_filterMap _ _).mp member
    cases part with
    | running p => exact (fresh p held).ne (Option.some.inj numbered)
    | _ => cases numbered
  · intro e member
    rcases mem_append.mp member with old | new
    · exact ⟨(known.events e old).1, fun k at_ => Nat.lt_succ_of_lt ((known.events e old).2 k at_)⟩
    · rw [mem_singleton.mp new]
      exact ⟨accepted, fun k at_ => Option.some.inj at_ ▸ Nat.lt_succ_self _⟩

theorem Known.bury (known : Known ⟨parts, begun, log, accepted⟩) {id : UUID}
    (accepts : id ∈ accepted.map (·.ID)) :
    Known ⟨parts, begun, log ++ [.deadLettered id], accepted⟩ := by
  refine ⟨fun part member => (known.held part member).append ?_, known.distinct, ?_, known.limits⟩
  · rintro p - e new
    rw [mem_singleton.mp new]
    exact fun same => by cases same
  · intro e member
    rcases mem_append.mp member with old | new
    · exact known.events e old
    · rw [mem_singleton.mp new]
      exact ⟨accepts, fun k at_ => by cases at_⟩

theorem known_calm (known : Known l) (step : Calm ending l l') : Known l' := by
  cases step with
  | accept task new first limit => exact known.accept limit
  | begin begins =>
    cases begins
    exact known.begin
  | send w ahead | succeed w ahead =>
    refine known.resume rfl rfl (by simp [eventTask, eventNumber]) ?_
    have sends := (known.held _ (Multiset.mem_cons_self _ _)).sends _ rfl
    simp [sentBy, succeededBy, sendingOne] at sends ⊢
    omega
  | leave p done => exact known.leave
  | fire task =>
    obtain ⟨accepts, known⟩ := (known_cons_iff rfl).mp known
    exact (known_cons_iff rfl).mpr ⟨accepts, known⟩
  | drop task =>
    obtain ⟨accepts, known⟩ := (known_cons_iff rfl).mp known
    exact known.bury accepts
  | lose task => exact ((known_cons_iff rfl).mp known).2

theorem Known.failed
    (known : Known ⟨.running ⟨number, task, w :: ahead, true⟩ ::ₘ parts, begun, log, accepted⟩)
    (task' : NotificationTask) (same : task'.ID = task.ID) : task'.ID ∈ accepted.map (·.ID) ∧
      Known ⟨.running ⟨number, task', ahead, false⟩ ::ₘ parts, begun, log, accepted⟩ := by
  have fits := known.held _ (Multiset.mem_cons_self _ _)
  have sends : log.countP (succeededBy number) ≤ log.countP (sentBy number) :=
    Nat.le_of_add_right_le (fits.sends _ rfl)
  refine ⟨same ▸ fits.known, ?_⟩
  rw [← append_nil log] at sends ⊢
  exact known.resume rfl same (by simp) sends

theorem known_fails (known : Known l) (fails : Fails p l l') : Known l' := by
  cases fails with
  | @retry parts begun log accepted number task w ahead again =>
    exact (known_cons_iff rfl).mpr (known.failed { task with Retries := task.Retries + 1 } rfl)
  | bury last =>
    obtain ⟨accepts, known⟩ := known.failed _ rfl
    exact known.bury accepts
  | lose last => exact (known.failed _ rfl).2

end

theorem known_new (made : newEventNotifier config = .ok n) : Known (ledger n) := by
  rw [new_eq made]
  exact ⟨by simp [ledger, parts, waiting], by simp [ledger, parts, waiting], by simp [ledger],
    by simp [ledger]⟩

end NexusPipe.Proof.Webhooks.Tasks
