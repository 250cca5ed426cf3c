import NexusPipe.Proof.Webhooks.Notifier

namespace NexusPipe.Proof.Webhooks.Notifier
open Library NexusPipe.Webhooks Tasks Relation List

def partWeight : Part → Nat
  | .queued t => 2 * t.Webhooks.length + 3
  | .pending t => 2 * t.Webhooks.length + 4
  | .running p => 2 * p.ahead.length + if p.sending then 1 else 2

def weight (parts : Multiset Part) : Nat := (parts.map partWeight).sum

-- a batch can take a task from the channel without more ado
def rank (n : EventNotifier) : Nat := weight (parts n) + n.taskCh.length

def attends : Processor → Bool
  | .idle | .busy _ | .gathering _ | .flushing _ _ false => true
  | .flushing _ _ true | .exited => false

def Receiving (n : EventNotifier) : Prop := ∃ q ∈ n.processors, attends q = true

inductive Goes : Ledger → Ledger → Prop
  | begin (begins : Begins l l') : Goes l l'
  | send {parts} (number : Nat) (task : NotificationTask) (w : UUID) (ahead : List UUID) :
      Goes ⟨.running ⟨number, task, w :: ahead, false⟩ ::ₘ parts, begun, log, accepted⟩
        ⟨.running ⟨number, task, w :: ahead, true⟩ ::ₘ parts, begun, log ++ [.sent number task.ID w],
          accepted⟩
  | succeed {parts} (number : Nat) (task : NotificationTask) (w : UUID) (ahead : List UUID) :
      Goes ⟨.running ⟨number, task, w :: ahead, true⟩ ::ₘ parts, begun, log, accepted⟩
        ⟨.running ⟨number, task, ahead, false⟩ ::ₘ parts, begun,
          log ++ [.succeeded number task.ID w], accepted⟩
  | leave {parts} (p : Processing) (done : p.ahead = []) :
      Goes ⟨.running p ::ₘ parts, begun, log, accepted⟩ ⟨parts, begun, log, accepted⟩
  | fire {parts} (task : NotificationTask) : Goes ⟨.pending task ::ₘ parts, begun, log, accepted⟩
        ⟨.queued task ::ₘ parts, begun, log, accepted⟩

def Due (number : Nat) (id w : UUID) (l : Ledger) : Prop :=
  (number < l.begun ∧ .succeeded number id w ∈ l.log ∧
    ∃ part ∈ l.parts, Hits number id w (copyOf part)) ∨ ¬ NoResend l.log

section
variable {id : UUID} {parts : Multiset Part}

@[simp] theorem weight_cons : weight (part ::ₘ parts) = partWeight part + weight parts := by
  simp [weight]

theorem Goes.weight_lt (goes : Goes l l') : weight l'.parts < weight l.parts := by
  cases goes with
  | begin begins =>
    cases begins
    simp [partWeight]
  | send | fire => simp [partWeight]
  | succeed =>
    simp [partWeight]
    omega
  | leave p =>
    simp only [weight_cons, partWeight]
    split <;> omega

theorem Due.replace (due : Due number id w ⟨part ::ₘ parts, begun, log, accepted⟩)
    (later : begun ≤ begun') (grown : log.Sublist log')
    (own : number < begun → .succeeded number id w ∈ log → Hits number id w (copyOf part) →
      Hits number id w (copyOf part') ∨ ¬ NoResend log') :
    Due number id w ⟨part' ::ₘ parts, begun', log', accepted⟩ := by
  rcases due with ⟨old, done, part, held, hits⟩ | resent
  · have after : number < begun' ∧ .succeeded number id w ∈ log' :=
      ⟨old.trans_le later, grown.subset done⟩
    rcases Multiset.mem_cons.mp held with rfl | other
    · exact (own old done hits).imp_left fun hits =>
        ⟨after.1, after.2, part', Multiset.mem_cons_self _ _, hits⟩
    · exact .inl ⟨after.1, after.2, part, Multiset.mem_cons_of_mem other, hits⟩
  · exact .inr fun once => resent (List.Pairwise.sublist grown once)

theorem Goes.due (goes : Goes l l') (due : Due number id w l) : Due number id w l' := by
  cases goes with
  | begin begins =>
    cases begins
    refine due.replace (Nat.le_succ _) (sublist_append_left _ _) fun old _ hits => .inl ⟨?_, hits.2⟩
    simp [copyOf, inHand, old.ne']
  | send _ task v ahead =>
    refine due.replace le_rfl (sublist_append_left _ _) fun _ done hits => ?_
    obtain ⟨other, same, next⟩ := hits
    rcases mem_cons.mp next with rfl | later
    · refine .inr fun once => ?_
      have apart := (pairwise_append.mp once).2.2 _ done _ (mem_singleton_self _)
      exact apart ⟨fun same => other (congrArg some same), same, rfl⟩
    · exact .inl ⟨other, same, later⟩
  | succeed =>
    exact due.replace le_rfl (sublist_append_left _ _) fun _ _ hits => .inl hits
  | leave p done =>
    rcases due with ⟨old, succeeded, part, held, hits⟩ | resent
    · refine .inl ⟨old, succeeded, part, (Multiset.mem_cons.mp held).resolve_left ?_, hits⟩
      rintro rfl
      simp [Hits, copyOf, inHand, unsent, done] at hits
    · exact .inr resent
  | fire => exact due.replace le_rfl (List.Sublist.refl _) fun _ _ hits => .inl hits

theorem weight_le_of_path (path : ReflTransGen Goes l l') : weight l'.parts ≤ weight l.parts := by
  induction path with
  | refl => exact le_rfl
  | tail _ goes ih => exact goes.weight_lt.le.trans ih

end

structure Turn (n n' : EventNotifier) : Prop where
  crashed : n'.crashed = n.crashed
  receiving : Receiving n → Receiving n'
  path : ReflTransGen Goes (ledger n) (ledger n')
  less : rank n' < rank n

structure Stays (n n' : EventNotifier) : Prop where
  crashed : n'.crashed = n.crashed
  taskCh : n'.taskCh = n.taskCh
  receiving : Receiving n → Receiving n'

section
variable {n n' : EventNotifier} {i : Nat} {q : Processor} {id : UUID} {p : Processing}

theorem stays_set (found : n.processors[i]? = some q) (crashed : n'.crashed = n.crashed)
    (taskCh : n'.taskCh = n.taskCh) (processors : n'.processors = n.processors.set i q')
    (same : attends q' = attends q) : Stays n n' := by
  refine ⟨crashed, taskCh, ?_⟩
  rintro ⟨q₀, member, attending⟩
  rw [Receiving, processors]
  rcases mem_set_or_eq found member q' with kept | rfl
  · exact ⟨q₀, kept, attending⟩
  · exact ⟨q', mem_set (List.getElem?_eq_some_iff.mp found).1 q', same.trans attending⟩

theorem stays_flushBatch (found : n.processors[i]? = some q) (attending : attends q = !last) :
    Stays n (n.flushBatch i last batch) := by
  cases batch with
  | nil => cases last <;> exact stays_set found rfl rfl rfl attending.symm
  | cons task rest => cases last <;> exact stays_set found rfl rfl rfl attending.symm

theorem stays_receive (received : Received n i task n') : Stays n n' := by
  cases received with
  | begun found => exact stays_set found rfl rfl rfl rfl
  | flushed found => exact stays_flushBatch found rfl
  | gathered found => exact stays_set found rfl rfl rfl rfl

theorem stays_resume (found : n.processors[i]? = some q) (e : NotifierEvent) :
    Stays n { n with processors := n.processors.set i (q.resume p), log := n.log ++ [e] } := by
  refine stays_set found rfl rfl rfl ?_
  cases q with
  | flushing p rest last => cases last <;> rfl
  | _ => rfl

theorem Stays.turn (stays : Stays n n') (goes : Goes (ledger n) l)
    (path : ReflTransGen Goes l (ledger n')) : Turn n n' := by
  refine ⟨stays.crashed, stays.receiving, .head goes path, ?_⟩
  rw [rank, rank, stays.taskCh]
  exact Nat.add_lt_add_right ((weight_le_of_path path).trans_lt goes.weight_lt) _

theorem goes_of_leads (leads : Leads m sources n') :
    ReflTransGen Goes ⟨sources, m.begun, m.log, m.accepted⟩ (ledger n') := by
  rw [ledger, leads.accepted]
  exact ReflTransGen.mono (fun _ _ => Goes.begin) _ _ (leads.path m.accepted)

section
variable (found : n.processors[i]? = some q) (current : q.processing = some p)
  (alive : ¬ n.crashed = true)
include found current alive

theorem leave_turn (ended : p.ahead = []) : ∃ n', n.step (.leave i) = some n' ∧ Turn n n' := by
  have bound := (List.getElem?_eq_some_iff.mp found).1
  have goes (held : Multiset Part) (shape : processorParts q = .running p ::ₘ held) :
      Goes (ledger n) ⟨held + others n i, n.begun, n.log, n.accepted⟩ := by
    rw [ledger_eq (parts_eq found), shape, Multiset.cons_add]
    exact .leave p ended
  obtain ⟨number, task, ahead, sending⟩ := p
  obtain rfl : ahead = [] := ended
  cases q with
  | busy =>
    cases current
    have stays : Stays n { n with processors := n.processors.set i .idle } :=
      stays_set found rfl rfl rfl rfl
    refine ⟨_, by simp only [EventNotifier.step, if_neg alive, found], stays.turn (goes 0 rfl) ?_⟩
    exact goes_of_leads (.of_eq rfl rfl rfl (parts_set bound .idle))
  | flushing _ rest last =>
    cases current
    refine ⟨_, by simp only [EventNotifier.step, if_neg alive, found]; rfl, ?_⟩
    exact (stays_flushBatch found (by cases last <;> rfl)).turn (goes _ rfl)
      (goes_of_leads (leads_flushBatch bound))
  | _ => cases current

theorem processing_turn : ∃ a n', n.step a = some n' ∧ Turn n n' := by
  obtain ⟨kept, before, after⟩ := exists_parts_resume found current
  obtain ⟨number, task, ahead, sending⟩ := p
  cases ahead with
  | nil => exact ⟨.leave i, leave_turn found current alive rfl⟩
  | cons v ahead =>
    cases sending with
    | false =>
      refine ⟨.send i, _, by simp only [EventNotifier.step, if_neg alive, found, current]; rfl, ?_⟩
      refine (stays_resume found _).turn ?_ .refl
      rw [ledger_eq before, ledger_eq (after _ _ rfl)]
      exact .send number task v ahead
    | true =>
      refine ⟨.finish i .delivered task.ID task.CreatedAt, _,
        by simp only [EventNotifier.step, if_neg alive, found, current]; rfl, ?_⟩
      refine (stays_resume found _).turn ?_ .refl
      rw [ledger_eq before, ledger_eq (after _ _ rfl)]
      exact .succeed number task v ahead

end

theorem tick_turn (alive : ¬ n.crashed = true) (found : n.processors[i]? = some (.gathering batch))
    (nonempty : batch ≠ []) : ∃ n', n.step (.tick i) = some n' ∧ Turn n n' := by
  refine ⟨_, by simp only [EventNotifier.step, if_neg alive, found]; rfl, ?_⟩
  have stays : Stays n (n.flushBatch i false batch) := stays_flushBatch found rfl
  have bound := (List.getElem?_eq_some_iff.mp found).1
  cases batch with
  | nil => exact absurd rfl nonempty
  | cons task rest =>
    refine stays.turn ?_ .refl
    have before : parts n = .queued task ::ₘ (queue rest + others n i) := by
      rw [parts_eq found, processorParts, queue_cons, Multiset.cons_add]
    have after : parts (n.flushBatch i false (task :: rest)) =
        .running { number := n.begun, task, ahead := task.Webhooks } ::ₘ (queue rest + others n i) := by
      rw [← Multiset.cons_add]
      exact parts_set bound _
    rw [ledger_eq before, ledger_eq after]
    exact .begin (.begin task)

def free : Processor → Bool
  | .idle | .gathering [] => true
  | _ => false

theorem exists_received (task : NotificationTask) (found : n.processors[i]? = some q)
    (waits : free q = true) : ∃ n', n.receive i task = some n' := by
  unfold free at waits
  split at waits
  · exact ⟨_, by simp only [EventNotifier.receive, found]; rfl⟩
  · simp only [EventNotifier.receive, found]
    split <;> exact ⟨_, rfl⟩
  · cases waits

theorem take_turn (alive : ¬ n.crashed = true) (queued : n.taskCh = task :: rest)
    (found : n.processors[i]? = some q) (waits : free q = true) :
    ∃ n', n.step (.take i) = some n' ∧ Turn n n' := by
  obtain ⟨n', received⟩ := exists_received (n := { n with taskCh := rest }) task found waits
  refine ⟨n', by simp only [EventNotifier.step, if_neg alive, queued]; exact received, ?_⟩
  have cases := receive_cases received
  have stays := stays_receive cases
  have before : ledger n =
      ⟨.queued task ::ₘ parts { n with taskCh := rest }, n.begun, n.log, n.accepted⟩ := by
    simp only [ledger, parts, Tasks.waiting, queued, queue_cons, Multiset.cons_add]
  have path : ReflTransGen Goes (ledger n) (ledger n') := by
    rw [before]
    exact goes_of_leads (m := { n with taskCh := rest }) (leads_receive cases)
  refine ⟨stays.crashed, stays.receiving, path, ?_⟩
  have lighter : weight (parts n') ≤ weight (parts n) := weight_le_of_path path
  rw [rank, rank, stays.taskCh, queued, length_cons]
  exact Nat.lt_succ_of_le (Nat.add_le_add_right lighter _)

theorem fire_turn (alive : ¬ n.crashed = true) (queue : n.taskCh = [])
    (timers : n.timers = task :: ts) (found : n.processors[i]? = some q) (waits : free q = true) :
    ∃ n', n.step (.fire 0 (some i) task.ID task.CreatedAt) = some n' ∧ Turn n n' := by
  obtain ⟨n', received⟩ := exists_received (n := { n with timers := ts }) task found waits
  have cases := receive_cases received
  have stays := stays_receive cases
  refine ⟨n', ?_, Stays.turn ⟨stays.crashed, stays.taskCh, stays.receiving⟩ ?_
    (goes_of_leads (leads_receive cases))⟩
  · simp only [EventNotifier.step, if_neg alive, EventNotifier.fire, timers, getElem?_cons_zero,
      eraseIdx_cons_zero, EventNotifier.trySend, if_pos queue, received, Option.map_some]
  · have head : n.timers[0]? = some task := by rw [timers, getElem?_cons_zero]
    rw [ledger_timer head, timers, eraseIdx_cons_zero]
    exact .fire task

theorem exists_turn (alive : ¬ n.crashed = true) (receiving : Receiving n)
    (held : parts n ≠ 0) : ∃ a n', n.step a = some n' ∧ Turn n n' := by
  by_cases all : ∀ q ∈ n.processors, free q = true ∨ q = .exited
  · -- everything waits in the queue or for a timer, and some goroutine is free
    obtain ⟨q, member, attending⟩ := receiving
    have waits : free q = true := (all q member).resolve_right fun same => by
      rw [same] at attending
      cases attending
    obtain ⟨i, found⟩ := mem_iff_getElem?.mp member
    cases queued : n.taskCh with
    | cons task rest => exact ⟨.take i, take_turn alive queued found waits⟩
    | nil =>
      cases timers : n.timers with
      | nil =>
        refine absurd ?_ held
        have empty : (n.processors.map processorParts).sum = 0 := by
          refine sum_eq_zero fun held inside => ?_
          obtain ⟨q₀, at_, rfl⟩ := mem_map.mp inside
          rcases all q₀ at_ with idle | rfl
          · unfold free at idle
            split at idle <;> first | rfl | cases idle
          · rfl
        rw [parts, Tasks.waiting, queued, timers, empty]
        rfl
      | cons task ts => exact ⟨_, fire_turn alive queued timers found waits⟩
  · simp only [not_forall, not_or] at all
    obtain ⟨q, member, occupied, present⟩ := all
    obtain ⟨i, found⟩ := mem_iff_getElem?.mp member
    cases current : q.processing with
    | some p => exact processing_turn found current alive
    | none =>
      obtain ⟨batch, rfl, nonempty⟩ : ∃ batch, q = .gathering batch ∧ batch ≠ [] := by
        cases q with
        | gathering batch => exact ⟨batch, rfl, fun empty => occupied (by rw [empty]; rfl)⟩
        | idle => exact absurd rfl occupied
        | exited => exact absurd rfl present
        | busy | flushing => cases current
      exact ⟨.tick i, tick_turn alive found nonempty⟩

theorem Turn.due (turn : Turn n n') (due : Due number id w (ledger n)) :
    Due number id w (ledger n') := by
  have path := turn.path
  generalize ledger n' = l' at path
  induction path with
  | refl => exact due
  | tail _ goes ih => exact goes.due ih

theorem exists_run_resending (alive : ¬ n.crashed = true) (receiving : Receiving n)
    (old : number < n.begun) (done : .succeeded number id w ∈ n.log)
    (aims : Aims (copies n) number id w) :
    ∃ more n', runSchedule EventNotifier.step n more = some n' ∧ ¬ NoResend n'.log := by
  have progress (m : EventNotifier)
      (state : ¬ m.crashed = true ∧ Receiving m ∧ Due number id w (ledger m))
      (short : ¬ ¬ NoResend m.log) :
      ∃ a m', True ∧ m.step a = some m' ∧
        (¬ m'.crashed = true ∧ Receiving m' ∧ Due number id w (ledger m')) ∧ rank m' < rank m := by
    obtain ⟨alive, receiving, due⟩ := state
    obtain ⟨-, -, part, held, -⟩ := due.resolve_right short
    obtain ⟨a, m', stepped, turn⟩ := exists_turn alive receiving fun none =>
      Multiset.notMem_zero part (none ▸ (show part ∈ parts m from held))
    exact ⟨a, m', trivial, stepped, ⟨turn.crashed ▸ alive, turn.receiving receiving, turn.due due⟩,
      turn.less⟩
  obtain ⟨more, n', -, run, resent⟩ := exists_run_to_goal _ _ _ rank progress
    ⟨alive, receiving, .inl ⟨old, done, aims_iff_part.mp aims⟩⟩
  exact ⟨more, n', run, resent⟩

end

variable {a : NotifierAction}

theorem aims_of_careless (known : Known (ledger n)) (stepped : n.step a = some n')
    (careless : ¬ Careful n a) :
    n'.crashed = n.crashed ∧ ∃ number id w, number < n'.begun ∧ .succeeded number id w ∈ n'.log ∧
      Aims (copies n') number id w := by
  cases step_cases stepped with
  | @succeeded i q number task w ahead id now found current =>
    obtain ⟨kept, before, after⟩ := exists_parts_resume found current
    have aims : Aims (copies n) number task.ID w := by simpa [Careful, found, current] using careless
    obtain ⟨part, held, hits⟩ := aims_iff_part.mp aims
    rw [before, Multiset.mem_cons] at held
    have other := held.resolve_left fun own => hits.1 (own ▸ rfl)
    refine ⟨rfl, number, task.ID, w, ?_, by simp, aims_iff_part.mpr ⟨part, ?_, hits⟩⟩
    · exact (known.held _ (before ▸ Multiset.mem_cons_self _ _)).below _ rfl
    · rw [after _ _ rfl]
      exact Multiset.mem_cons_of_mem other
  | @retried i q number task w ahead id now err found current again =>
    simp only [Careful, found, current, again, Option.mem_some_iff, forall_eq', forall_const,
      not_forall, not_not] at careless
    obtain ⟨v, behind, k, done⟩ := careless
    refine ⟨rfl, k, task.ID, v, (known.events _ done).2 k rfl, done, _,
      mem_copies.mpr (.inl ⟨{ task with Retries := task.Retries + 1 }, by simp, rfl⟩), ?_, rfl, behind⟩
    simp [waiting]
  | exhausted found current last =>
    exact absurd (by simp [Careful, found, current, last]) careless
  | _ => exact absurd trivial careless

theorem unrepeated_new (made : newEventNotifier config = .ok n) : Unrepeated (ledger n) := by
  refine ⟨known_new made, ?_, ?_⟩
  · rw [new_eq made]
    simp [Apart, ledger]
  · rw [new_eq made]
    exact List.Pairwise.nil

theorem no_resend_of_careful {config : NotifierConfig} {start n : EventNotifier}
    (made : newEventNotifier config = .ok start) {actions : List NotifierAction}
    (run : runSchedule EventNotifier.step start actions = some n)
    (careful : Along EventNotifier.step Careful start actions) :
    NoResend n.log ∧ ∀ a n', n.step a = some n' → ¬ Careful n a → Receiving n' →
      ∃ more n'', runSchedule EventNotifier.step n' more = some n'' ∧ ¬ NoResend n''.log := by
  have unrepeated : Unrepeated (ledger n) :=
    runSchedule_invariant_along Careful (fun n => Unrepeated (ledger n))
      (fun _ _ _ => unrepeated_step) run careful (unrepeated_new made)
  refine ⟨unrepeated.once, fun a n' stepped careless receiving => ?_⟩
  obtain ⟨crashed, number, id, w, old, done, aims⟩ :=
    aims_of_careless unrepeated.toKnown stepped careless
  have alive : ¬ n'.crashed = true := crashed ▸ step_alive stepped
  exact exists_run_resending alive receiving old done aims

instance (held : List Copy) (number : Nat) (id w : UUID) : Decidable (Aims held number id w) :=
  decidable_of_iff
    (held.any fun c => c.number != some number && c.task == id && c.webhooks.contains w)
    (by simp [Aims, and_assoc])

instance (e later : NotifierEvent) : Decidable (Resends e later) := by
  cases e <;> cases later <;> unfold Resends <;> infer_instance

def deliveredTo (id w : UUID) : NotifierEvent → Bool
  | .succeeded _ id' w' => id' = id ∧ w' = w
  | _ => false

theorem any_deliveredTo {n : EventNotifier} {id : UUID} :
    n.log.any (deliveredTo id w) = true ↔ HasSucceeded n id w := by
  rw [any_eq_true]
  constructor
  · rintro ⟨e, member, same⟩
    cases e with
    | succeeded number id' w' =>
      obtain ⟨rfl, rfl⟩ : id' = id ∧ w' = w := by simpa [deliveredTo] using same
      exact ⟨number, member⟩
    | _ => cases same
  · rintro ⟨number, member⟩
    exact ⟨_, member, by simp [deliveredTo]⟩

instance (n : EventNotifier) (id w : UUID) : Decidable (HasSucceeded n id w) :=
  decidable_of_iff _ any_deliveredTo

instance (n : EventNotifier) (a : NotifierAction) : Decidable (Careful n a) := by
  -- membership is decided over the list, not over all UUIDs
  have none_aims (p : Processing) :
      Decidable (∀ w ∈ p.ahead.head?, ¬ Aims (copies n) p.number p.task.ID w) :=
    Option.decidableForallMem _
  have none_done (p : Processing) : Decidable (∀ w ∈ p.task.Webhooks, ¬ HasSucceeded n p.task.ID w) :=
    List.decidableBAll _ _
  cases a with
  | finish i outcome id now => cases outcome <;> unfold Careful <;> infer_instance
  | _ => unfold Careful; infer_instance

def sampleEvent : NotificationEvent where
  ID := 7
  EventType := "task.done"
  Payload := []

def delivering (outcome : DeliverOutcome) : List NotifierAction :=
  [.send 0, .finish 0 outcome 0 .zero]

def refused : DeliverOutcome := .failed (.str "webhook returned status 503")

def retriedOnce : List NotifierAction :=
  [.start, .notify 1 .zero sampleEvent [2] (some 0)] ++ delivering refused ++
    [.leave 0, .fire 0 none 0 .zero, .take 0] ++ delivering .delivered

def partlyDelivered : List NotifierAction :=
  [.start, .notify 1 .zero sampleEvent [2, 3] (some 0)] ++ delivering .delivered ++
    delivering refused ++ [.leave 0, .fire 0 none 0 .zero, .take 0, .send 0]

theorem no_resend_retried_once : ∃ start n, newEventNotifier defaultNotifierConfig = .ok start ∧
      runSchedule EventNotifier.step start retriedOnce = some n ∧
      n.log = [.began 0 1, .sent 0 1 2, .began 1 1, .sent 1 1 2, .succeeded 1 1 2] ∧
      NoResend n.log := by
  have made : newEventNotifier defaultNotifierConfig = .ok { config := defaultNotifierConfig } := rfl
  refine ⟨_, exists_and_left.mpr ⟨made, exists_reached (fun n => n.log = [.began 0 1, .sent 0 1 2,
    .began 1 1, .sent 1 1 2, .succeeded 1 1 2]) (by decide +kernel) fun n run log => ?_⟩⟩
  exact ⟨log, (no_resend_of_careful made run (by decide +kernel)).1⟩

theorem delivered_webhook_sent_again :
    ∃ start n, newEventNotifier defaultNotifierConfig = .ok start ∧
      runSchedule EventNotifier.step start partlyDelivered = some n ∧
      n.log = [.began 0 1, .sent 0 1 2, .succeeded 0 1 2, .sent 0 1 3, .began 1 1, .sent 1 1 2] ∧
      ¬ NoResend n.log := by
  refine ⟨_, exists_and_left.mpr ⟨rfl, exists_reached (fun n => n.log = [.began 0 1, .sent 0 1 2,
    .succeeded 0 1 2, .sent 0 1 3, .began 1 1, .sent 1 1 2]) (by decide +kernel) fun n _ log => ?_⟩⟩
  refine ⟨log, ?_⟩
  rw [log, NoResend]
  decide +kernel

end NexusPipe.Proof.Webhooks.Notifier
