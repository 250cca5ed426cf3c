import NexusPipe.Proof.Webhooks.Delivery
import NexusPipe.Proof.Webhooks.History
import NexusPipe.Proof.Webhooks.Notifier

namespace NexusPipe.Proof.Webhooks.Recording
open Library NexusPipe.Webhooks History List Option

variable {n n' : EventNotifier} {i j : Nat} {q : Processor} {p : Processing} {a : NotifierAction}
  {task : NotificationTask}

def waitsIn (q : Processor) : Option Processing :=
  q.processing.filter fun p => p.sending && !p.ahead.isEmpty

def waitsAt (n : EventNotifier) (i : Nat) : Option Processing := n.processors[i]?.bind waitsIn

theorem processing_resume (current : q.processing = some p) (p' : Processing) :
    (q.resume p').processing = some p' := by
  cases q <;> first | rfl | cases current

theorem waitsAt_set (n : EventNotifier) (i j : Nat) (q : Processor) :
    (n.processors.set i q)[j]?.bind waitsIn =
      if i = j ∧ i < n.processors.length then waitsIn q else waitsAt n j := by
  rw [waitsAt, getElem?_set]
  by_cases same : i = j
  · subst same
    by_cases inside : i < n.processors.length
    · simp [inside]
    · simp [inside]
  · simp [same]

theorem waitsAt_set_of_none (before : waitsAt n i = none) (after : waitsIn q = none) (j : Nat) :
    (n.processors.set i q)[j]?.bind waitsIn = waitsAt n j := by
  rw [waitsAt_set]
  split_ifs with here
  · rw [after, ← here.1, before]
  · rfl

theorem waitsAt_of_found (found : n.processors[i]? = some q) : waitsAt n i = waitsIn q := by
  rw [waitsAt, found, bind_some]

theorem waitsAt_flushBatch (calm : waitsAt n i = none) (last : Bool) (batch : List NotificationTask)
    (j : Nat) : waitsAt (n.flushBatch i last batch) j = waitsAt n j := by
  cases batch with
  | nil =>
    refine waitsAt_set_of_none calm ?_ j
    cases last <;> rfl
  | cons task rest => exact waitsAt_set_of_none calm rfl j

theorem waitsAt_received (received : Received n i task n') (j : Nat) : waitsAt n' j = waitsAt n j := by
  cases received with
  | begun found => exact waitsAt_set_of_none (waitsAt_of_found found) rfl j
  | flushed found full => exact waitsAt_flushBatch (waitsAt_of_found found) false _ j
  | gathered found room => exact waitsAt_set_of_none (waitsAt_of_found found) rfl j

theorem waitsAt_sent (sent : Sent n task receiver (some n')) (j : Nat) :
    waitsAt n' j = waitsAt n j := by
  cases sent with
  | handed empty received => exact waitsAt_received received j
  | buffered room => rfl

theorem waitsAt_moveToDeadLetter (n : EventNotifier) (id : UUID) (now : Time)
    (task : NotificationTask) (reason : Text) (j : Nat) :
    waitsAt (n.moveToDeadLetter id now task reason) j = waitsAt n j := by
  unfold EventNotifier.moveToDeadLetter
  dsimp only
  split
  · split <;> rfl
  · rfl

theorem waitsAt_start (n : EventNotifier) (j : Nat) : waitsAt n.start j = waitsAt n j := by
  unfold EventNotifier.start
  split
  · rfl
  · simp only [waitsAt, append_assoc]
    by_cases old : j < n.processors.length
    · rw [getElem?_append_left old]
    · rw [getElem?_append_right (not_lt.mp old), getElem?_eq_none (not_lt.mp old),
        bind_none, bind_eq_none_iff]
      intro q found
      have member := mem_of_getElem? found
      rw [mem_append, mem_singleton] at member
      rcases member with worker | rfl
      · rw [eq_of_mem_replicate worker]
        rfl
      · rfl

def isPlain : NotifierAction → Bool
  | .send _ | .finish .. => false
  | _ => true

theorem waitsAt_step (plain : isPlain a) (stepped : n.step a = some n') (j : Nat) :
    waitsAt n' j = waitsAt n j := by
  cases step_cases stepped with
  | start => exact waitsAt_start n j
  | stop =>
    unfold EventNotifier.stop
    split <;> rfl
  | unmatched | dropped => rfl
  | accepted matched new sent => exact waitsAt_sent sent j
  | taken queued received => exact waitsAt_received received j
  | exited closed found => exact waitsAt_set_of_none (waitsAt_of_found found) rfl j
  | lastFlush closed found => exact waitsAt_flushBatch (waitsAt_of_found found) true _ j
  | ticked found => exact waitsAt_flushBatch (waitsAt_of_found found) false _ j
  | sending | succeeded | retried | exhausted | panicked => cases plain
  | left found done =>
    refine waitsAt_set_of_none ((waitsAt_of_found found).trans ?_) rfl j
    simp [waitsIn, Processor.processing, done]
  | nextTask found done =>
    refine waitsAt_flushBatch ((waitsAt_of_found found).trans ?_) _ _ j
    simp [waitsIn, Processor.processing, done]
  | fired found sent => exact waitsAt_sent sent j
  | expired found sent => exact waitsAt_moveToDeadLetter _ _ _ _ _ j

theorem waitsAt_send (stepped : n.step (.send i) = some n') :
    ∃ p, n.processors[i]?.bind Processor.processing = some p ∧ waitsAt n i = none ∧
      waitsAt n' i = some { p with sending := true } ∧ ∀ j ≠ i, waitsAt n' j = waitsAt n j := by
  cases step_cases stepped with
  | @sending _ q number task w ahead found current =>
    have inside := (List.getElem?_eq_some_iff.mp found).1
    refine ⟨⟨number, task, w :: ahead, false⟩, by rw [found, bind_some, current], ?_, ?_, ?_⟩
    · rw [waitsAt_of_found found, waitsIn, current]
      rfl
    · rw [waitsAt, waitsAt_set, if_pos ⟨rfl, inside⟩, waitsIn, processing_resume current]
      rfl
    · intro j other
      rw [waitsAt, waitsAt_set, if_neg fun here => other here.1.symm]

variable {id : UUID} {now : Time}

theorem waitsAt_finish (returned : outcome ≠ .panicked)
    (stepped : n.step (.finish i outcome id now) = some n') :
    ∃ p, waitsAt n i = some p ∧ waitsAt n' i = none ∧ ∀ j ≠ i, waitsAt n' j = waitsAt n j := by
  have popped {q : Processor} {number : Nat} {task task' : NotificationTask} {w : UUID} {ahead : List UUID}
      (found : n.processors[i]? = some q)
      (current : q.processing = some ⟨number, task, w :: ahead, true⟩)
      (after : ∀ j, waitsAt n' j =
        (n.processors.set i (q.resume ⟨number, task', ahead, false⟩))[j]?.bind waitsIn) :
      ∃ p, waitsAt n i = some p ∧ waitsAt n' i = none ∧ ∀ j ≠ i, waitsAt n' j = waitsAt n j := by
    have inside := (List.getElem?_eq_some_iff.mp found).1
    refine ⟨⟨number, task, w :: ahead, true⟩, ?_, ?_, fun j other => ?_⟩
    · rw [waitsAt_of_found found, waitsIn, current]
      rfl
    · rw [after, waitsAt_set, if_pos ⟨rfl, inside⟩, waitsIn, processing_resume current]
      rfl
    · rw [after, waitsAt_set, if_neg fun here => other here.1.symm]
  cases step_cases stepped with
  | succeeded found current | retried found current => exact popped found current fun _ => rfl
  | exhausted found current last =>
    exact popped found current fun j => waitsAt_moveToDeadLetter _ _ _ _ _ j
  | panicked found current => exact absurd rfl returned

variable {config : DeliveryConfig} {render : Text → String} {s s' : RecordingNotifier}
  {c : RecordingAction}

def Underway (s : RecordingNotifier) (x : UUID × UUID) : Prop :=
  ∃ i p, waitsAt s.notifier i = some p ∧ p.task.ID = x.1 ∧ s.deliveryID i = some x.2

structure Tracks (s : RecordingNotifier) : Prop where
  agrees : Agrees s.calls s.history
  ids : s.calls.filterMap recordedID = s.recorded.map (·.2)
  nodup : (s.recorded.map (·.2)).Nodup
  current : ∀ i p, waitsAt s.notifier i = some p →
    ∃ id, s.deliveryID i = some id ∧ (p.task.ID, id) ∈ s.recorded ∧ id ∉ s.short
  unique : ∀ i j, (waitsAt s.notifier i).isSome → (waitsAt s.notifier j).isSome →
    s.deliveryID i = s.deliveryID j → i = j
  known : ∀ id ∈ s.short, id ∈ s.recorded.map (·.2)
  settled : ∀ x ∈ s.recorded, ∃ reported, latest s.calls x.2 = some reported ∧
    (Underway s x ∨ (reported.status.isTerminal ↔ x.2 ∉ s.short))

theorem callHistory_eq (agrees : Agrees s.calls s.history)
    (distinct : ((s.calls ++ calls).filterMap recordedID).Nodup) :
    ∃ history, s.callHistory calls = { s with history, calls := s.calls ++ calls } ∧
      Agrees (s.calls ++ calls) history := by
  have folded : ∃ history, calls.foldlM WebhookHistory.call s.history = .ok history ∧
      Agrees (s.calls ++ calls) history := by
    refine exists_foldlM_eq_ok (fun before history => Agrees (s.calls ++ before) history) ?_ ?_
    · intro before c after history split holds
      rw [← append_assoc]
      refine agrees_call holds (distinct.sublist ?_)
      have first : (s.calls ++ before ++ [c]).Sublist (s.calls ++ calls) := by
        rw [split, append_cons before c after, append_assoc]
        exact (sublist_append_left _ after).append_left _
      exact first.filterMap recordedID
    · rwa [append_nil]
  obtain ⟨history, ended, holds⟩ := folded
  exact ⟨history, by rw [RecordingNotifier.callHistory, ended], holds⟩

theorem latest_append (calls more : List HistoryCall) (id : UUID) :
    latest (calls ++ more) id = more.foldl (follow id) (latest calls id) := foldl_append

theorem Tracks.notifier (tracks : Tracks s) (same : ∀ j, waitsAt n' j = waitsAt s.notifier j)
    (replaying : List NotificationTask) : Tracks { s with notifier := n', replaying } where
  agrees := tracks.agrees
  ids := tracks.ids
  nodup := tracks.nodup
  current i p waits := tracks.current i p (same i ▸ waits)
  unique i j first second := tracks.unique i j (same i ▸ first) (same j ▸ second)
  known := tracks.known
  settled x member := by
    obtain ⟨reported, shown, ends⟩ := tracks.settled x member
    refine ⟨reported, shown, ends.imp_left ?_⟩
    rintro ⟨i, p, waits, task, id⟩
    exact ⟨i, p, (same i).trans waits, task, id⟩

theorem Tracks.quiet (tracks : Tracks s) (other : recordedID call = none)
    (silent : ∀ id reported, follow id reported call = reported) :
    Tracks (s.callHistory [call]) := by
  have ids : (s.calls ++ [call]).filterMap recordedID = s.recorded.map (·.2) := by
    simp [other, tracks.ids]
  have unchanged (id : UUID) : latest (s.calls ++ [call]) id = latest s.calls id := by
    rw [latest_concat, silent]
  obtain ⟨history, called, agrees⟩ := callHistory_eq tracks.agrees (ids ▸ tracks.nodup)
  rw [called]
  refine ⟨agrees, ids, tracks.nodup, tracks.current, tracks.unique, tracks.known, ?_⟩
  simp only [unchanged]
  exact tracks.settled

variable {wh : Webhook}

theorem Tracks.send (tracks : Tracks s) (fresh : id ∉ s.recorded.map (·.2))
    (found : s.processingAt i = some p) (stepped : s.notifier.step (.send i) = some n') :
    Tracks ({ s with
      notifier := n'
      deliveryID := fun j => if j = i then some id else s.deliveryID j
      recorded := s.recorded ++ [(p.task.ID, id)]
      }.callHistory [.recordDelivery (newDelivery id now p.task.Event wh) wh.Name wh.URL spare]) := by
  obtain ⟨p', found', before, after, others⟩ := waitsAt_send stepped
  obtain rfl : p = p' := mem_unique found found'
  let call := HistoryCall.recordDelivery (newDelivery id now p.task.Event wh) wh.Name wh.URL spare
  have ids : (s.calls ++ [call]).filterMap recordedID = (s.recorded ++ [(p.task.ID, id)]).map (·.2) := by
    simp [call, tracks.ids, recordedID, newDelivery]
  have nodup : ((s.recorded ++ [(p.task.ID, id)]).map (·.2)).Nodup := by
    rw [map_append, map_singleton, nodup_append]
    refine ⟨tracks.nodup, nodup_singleton id, ?_⟩
    rintro old member new here rfl
    have same : old = id := mem_singleton.mp here
    exact fresh (same ▸ member)
  have different {x : UUID × UUID} (member : x ∈ s.recorded) : id ≠ x.2 :=
    fun same => fresh (same ▸ mem_map_of_mem member)
  have unchanged {x : UUID × UUID} (member : x ∈ s.recorded) :
      latest (s.calls ++ [call]) x.2 = latest s.calls x.2 := by
    rw [latest_concat]
    exact if_neg (different member)
  let sent : RecordingNotifier := { s with
    notifier := n'
    deliveryID := fun j => if j = i then some id else s.deliveryID j
    recorded := s.recorded ++ [(p.task.ID, id)] }
  obtain ⟨history, called, agrees⟩ := callHistory_eq (s := sent) tracks.agrees (ids ▸ nodup)
  rw [called]
  have unknown : id ∉ s.short := fun member => fresh (tracks.known id member)
  have elsewhere {j : Nat} (waits : (waitsAt s.notifier j).isSome) :
      ∃ id', s.deliveryID j = some id' ∧ id ≠ id' := by
    obtain ⟨p', waits⟩ := isSome_iff_exists.mp waits
    obtain ⟨id', current, member, -⟩ := tracks.current j p' waits
    exact ⟨id', current, different member⟩
  refine ⟨agrees, ids, nodup, ?_, ?_, ?_, ?_⟩
  · intro j p' waits
    by_cases here : j = i
    · subst here
      obtain rfl := mem_unique after waits
      exact ⟨id, if_pos rfl, mem_append_right _ (mem_singleton.mpr rfl), unknown⟩
    · obtain ⟨id', current, member, fine⟩ := tracks.current j p' (others j here ▸ waits)
      exact ⟨id', (if_neg here).trans current, mem_append_left _ member, fine⟩
  · intro j k first second same
    simp only [sent] at same
    by_cases here : j = i
    · by_cases there : k = i
      · rw [here, there]
      · obtain ⟨id', current, apart⟩ := elsewhere (others k there ▸ second)
        rw [if_pos here, if_neg there, current] at same
        exact absurd (some.inj same) apart
    · by_cases there : k = i
      · obtain ⟨id', current, apart⟩ := elsewhere (others j here ▸ first)
        rw [if_neg here, if_pos there, current] at same
        exact absurd (some.inj same).symm apart
      · rw [if_neg here, if_neg there] at same
        exact tracks.unique j k (others j here ▸ first) (others k there ▸ second) same
  · intro id' member
    have old := tracks.known id' member
    simp only [sent, map_append]
    exact mem_append_left _ old
  · intro x member
    rcases mem_append.mp member with old | new
    · obtain ⟨reported, shown, ends⟩ := tracks.settled x old
      refine ⟨reported, (unchanged old).trans shown, ends.imp_left ?_⟩
      rintro ⟨j, p', waits, task, current⟩
      have there : j ≠ i := by
        rintro rfl
        cases before.symm.trans waits
      exact ⟨j, p', (others j there).trans waits, task, (if_neg there).trans current⟩
    · rw [mem_singleton.mp new, latest_concat]
      exact ⟨_, if_pos rfl, .inl ⟨i, _, after, rfl, if_pos rfl⟩⟩

theorem isTerminal_statusAfter (wh : Webhook) (result : DeliveryResult) (err : Option Text) :
    (statusAfter wh result err).isTerminal ↔ ¬ isShort wh result err := by
  unfold statusAfter isShort
  cases err with
  | none => simp [DeliveryStatus.isTerminal, DeliveryStatus.text]
  | some err =>
    by_cases early : result.Attempt < wh.RetryConfig.MaxRetries
    · simp [early, DeliveryStatus.isTerminal, DeliveryStatus.text]
    · simp [early, DeliveryStatus.isTerminal, DeliveryStatus.text]

theorem latest_reports (render : Text → String) (now : Time) (id : UUID) (wh : Webhook)
    (result : DeliveryResult) (err : Option Text) (calls : List HistoryCall) (id' : UUID) :
    latest (calls ++ reports render now id wh result err) id' =
      if id = id' then (latest calls id').map fun _ =>
        ⟨statusAfter wh result err, result.Attempt, result.Duration.tdiv millisecond⟩
      else latest calls id' := by
  rw [latest_append]
  by_cases same : id = id'
  · simp [reports, follow, same, Function.comp_def]
  · simp [reports, follow, same]

theorem Tracks.finish (tracks : Tracks s) (mine : s.deliveryID i = some id)
    (tells : s.callHistory (reports render now id wh result err) = told)
    (stepped : told.notifier.step (.finish i (outcomeOf err) deadID now) = some n') :
    Tracks { told with
      notifier := n'
      short := if isShort wh result err then told.short ++ [id] else told.short } := by
  have ids : (s.calls ++ reports render now id wh result err).filterMap recordedID =
      s.recorded.map (·.2) := by
    rw [filterMap_append, tracks.ids]
    exact append_nil _
  obtain ⟨history, called, agrees⟩ := callHistory_eq tracks.agrees (ids ▸ tracks.nodup)
  obtain rfl := called.symm.trans tells
  have returned : outcomeOf err ≠ .panicked := by cases err <;> simp [outcomeOf]
  obtain ⟨p, before, after, others⟩ := waitsAt_finish returned stepped
  have mine' : ∃ task, (task, id) ∈ s.recorded ∧ id ∉ s.short := by
    obtain ⟨id', current, member, fine⟩ := tracks.current i p before
    obtain rfl := mem_unique mine current
    exact ⟨p.task.ID, member, fine⟩
  obtain ⟨task, member, fine⟩ := mine'
  have mem_short (id' : UUID) :
      id' ∈ (if isShort wh result err then s.short ++ [id] else s.short) ↔
        id' ∈ s.short ∨ id' = id ∧ isShort wh result err := by
    split_ifs with early
    · simp [early]
    · simp [early]
  have elsewhere {j : Nat} {p' : Processing} (waits : waitsAt n' j = some p') :
      j ≠ i ∧ waitsAt s.notifier j = some p' := by
    have there : j ≠ i := by
      rintro rfl
      cases after.symm.trans waits
    exact ⟨there, (others j there).symm.trans waits⟩
  refine ⟨agrees, ids, tracks.nodup, ?_, ?_, ?_, ?_⟩
  · intro j p' waits
    obtain ⟨there, waited⟩ := elsewhere waits
    obtain ⟨id', current, member', fine'⟩ := tracks.current j p' waited
    refine ⟨id', current, member', fun early => ?_⟩
    rcases (mem_short id').mp early with old | ⟨rfl, -⟩
    · exact fine' old
    · refine there (tracks.unique j i ?_ ?_ (current.trans mine.symm))
      · rw [waited, isSome_some]
      · rw [before, isSome_some]
  · intro j k first second same
    obtain ⟨_, waits⟩ := isSome_iff_exists.mp first
    obtain ⟨_, waits'⟩ := isSome_iff_exists.mp second
    exact tracks.unique j k (isSome_iff_exists.mpr ⟨_, (elsewhere waits).2⟩)
      (isSome_iff_exists.mpr ⟨_, (elsewhere waits').2⟩) same
  · intro id' early
    rcases (mem_short id').mp early with old | ⟨rfl, -⟩
    · exact tracks.known id' old
    · exact mem_map_of_mem member
  · intro x member'
    obtain ⟨reported, known, ends⟩ := tracks.settled x member'
    by_cases same : id = x.2
    · refine ⟨_, by rw [latest_reports, if_pos same, known, map_some], .inr ?_⟩
      rw [mem_short, ← same, isTerminal_statusAfter]
      simp [fine]
    · refine ⟨reported, by rw [latest_reports, if_neg same, known], ends.imp ?_ fun terminal => ?_⟩
      · rintro ⟨j, p', waits, ofTask, current⟩
        have there : j ≠ i := by
          rintro rfl
          exact same (mem_unique mine current)
        exact ⟨j, p', (others j there).trans waits, ofTask, current⟩
      · refine terminal.trans ?_
        rw [mem_short]
        simp [Ne.symm same]

theorem waitsAt_panicked (stepped : n.step (.finish i .panicked id now) = some n') (j : Nat) :
    waitsAt n' j = waitsAt n j := by
  cases step_cases stepped with
  | panicked found current => rfl

theorem Tracks.finishWith (tracks : Tracks s) (mine : s.deliveryID i = some id)
    (finished : s.finishWith render i id wh deadID now d = some s') : Tracks s' := by
  unfold RecordingNotifier.finishWith at finished
  split at finished
  · next result err returned =>
      obtain ⟨n', stepped, rfl⟩ := map_eq_some_iff.mp finished
      exact tracks.finish mine rfl stepped
  · obtain ⟨n', stepped, rfl⟩ := map_eq_some_iff.mp finished
    exact tracks.notifier (waitsAt_panicked stepped) s.replaying

theorem tracks_step (tracks : Tracks s) (stepped : s.step config render c = some s') : Tracks s' := by
  cases c with
  | other a =>
    have plain : isPlain a := by cases a <;> first | rfl | cases stepped
    have inner : ∃ n', s.notifier.step a = some n' ∧ { s with notifier := n' } = s' := by
      cases a <;> first | exact map_eq_some_iff.mp stepped | cases plain
    obtain ⟨n', moved, rfl⟩ := inner
    exact tracks.notifier (waitsAt_step plain moved) s.replaying
  | send i id now wh spare =>
    simp only [RecordingNotifier.step] at stepped
    split at stepped
    · cases stepped
    · next p found =>
        split_ifs at stepped with refused
        obtain ⟨n', sent, rfl⟩ := map_eq_some_iff.mp stepped
        exact tracks.send (not_or.mp refused).1 found sent
  | finish i env fuel wh id now =>
    simp only [RecordingNotifier.step] at stepped
    split at stepped
    · next p deliveryID found mine =>
        split_ifs at stepped with other
        obtain ⟨d, -, ended⟩ := bind_eq_some_iff.mp stepped
        exact tracks.finishWith mine ended
    · cases stepped
  | enforceRetention now spare =>
    simp only [RecordingNotifier.step] at stepped
    split_ifs at stepped
    cases stepped
    exact tracks.quiet rfl fun _ _ => rfl
  | clear =>
    simp only [RecordingNotifier.step] at stepped
    split_ifs at stepped
    cases stepped
    exact tracks.quiet rfl fun _ _ => rfl
  | replay index =>
    simp only [RecordingNotifier.step] at stepped
    split_ifs at stepped
    obtain ⟨entry, -, rfl⟩ := map_eq_some_iff.mp stepped
    have same : ∀ j, waitsAt { s.notifier with
        deadLetter := s.notifier.deadLetter.eraseIdx index } j = waitsAt s.notifier j := fun _ => rfl
    exact tracks.notifier same _
  | resend k receiver id now =>
    simp only [RecordingNotifier.step] at stepped
    split_ifs at stepped
    obtain ⟨task, -, resent⟩ := bind_eq_some_iff.mp stepped
    obtain ⟨sent, tried, rfl⟩ := map_eq_some_iff.mp resent
    cases sent with
    | none => exact tracks.notifier (waitsAt_moveToDeadLetter _ _ _ _ _) _
    | some n' => exact tracks.notifier (waitsAt_sent (trySend_cases tried)) _

theorem tracks_start (notifierConfig : NotifierConfig) (retention : RetentionConfig) :
    Tracks (.start notifierConfig retention) where
  agrees := agrees_new retention
  ids := rfl
  nodup := nodup_nil
  current i p waits := by cases waits
  unique i j waits := by cases waits
  known id member := by cases member
  settled x member := by cases member

def Settled (s : RecordingNotifier) (task : UUID) : Prop :=
  (∀ c ∈ Notifier.copies s.notifier, c.task ≠ task) ∧ ∀ t ∈ s.replaying, t.ID ≠ task

def entriesOf (s : RecordingNotifier) (task : UUID) : List WebhookDelivery :=
  (s.history.listed.filterMap s.history.delivery?).filter fun d => (task, d.ID) ∈ s.recorded

theorem not_underway {task : UUID} (settled : Settled s task) : ¬ Underway s (task, id) := by
  rintro ⟨i, p, waits, rfl, -⟩
  obtain ⟨q, found, inside⟩ := bind_eq_some_iff.mp waits
  have current := (filter_eq_some_iff.mp inside).1
  exact settled.1 _ (Notifier.inHand_copies found current) rfl

theorem Tracks.isTerminal_iff {task : UUID} (tracks : Tracks s) (settled : Settled s task)
    (listed : d ∈ entriesOf s task) : d.Status.isTerminal ↔ d.ID ∉ s.short := by
  obtain ⟨stored, recorded⟩ := mem_filter.mp listed
  obtain ⟨entry, member, found⟩ := mem_filterMap.mp stored
  have shown := tracks.agrees.current entry member d found
  obtain ⟨reported, latest, ends⟩ := tracks.settled _ (of_decide_eq_true recorded)
  obtain rfl := mem_unique shown latest
  exact ends.resolve_left (not_underway settled)

theorem tracks_run (run : runSchedule (RecordingNotifier.step config render)
    (.start notifierConfig retention) actions = some s) : Tracks s :=
  runSchedule_invariant Tracks (fun _ _ _ tracks stepped => tracks_step tracks stepped) run
    (tracks_start notifierConfig retention)

theorem settled_terminal_iff (run : runSchedule (RecordingNotifier.step config render)
    (.start notifierConfig retention) actions = some s) (settled : Settled s taskID) :
    (∀ d ∈ entriesOf s taskID, d.Status.isTerminal) ↔ ∀ d ∈ entriesOf s taskID, d.ID ∉ s.short :=
  forall₂_congr fun _ listed => (tracks_run run).isTerminal_iff settled listed

instance (s : RecordingNotifier) (task : UUID) : Decidable (Settled s task) :=
  inferInstanceAs (Decidable (_ ∧ _))

def succeeding : DeliverEnv where
  exchange _ := .response 200 "" 0
  interrupted _ := none

def retriedOnce (maxRetries : Int) : Option RecordingNotifier :=
  runSchedule (RecordingNotifier.step defaultDeliveryConfig fun _ => "")
    (.start defaultNotifierConfig defaultRetentionConfig)
    [.other .start, .other (.notify 1 .zero ⟨9, "e", []⟩ [7] (some 0)),
      .send 0 21 .zero (Delivery.sampleWebhook maxRetries) [],
      .finish 0 Delivery.failing 4 (Delivery.sampleWebhook maxRetries) 31 .zero, .other (.leave 0),
      .other (.fire 0 (some 0) 32 .zero), .send 0 22 .zero (Delivery.sampleWebhook maxRetries) [],
      .finish 0 succeeding 1 (Delivery.sampleWebhook maxRetries) 33 .zero, .other (.leave 0)]

theorem settled_terminal_retried : ∃ s, retriedOnce 3 = some s ∧ Settled s 1 ∧
    (entriesOf s 1).length = 2 ∧ ∀ d ∈ entriesOf s 1, d.Status.isTerminal := by
  refine exists_reached (fun s => Settled s 1 ∧ (entriesOf s 1).length = 2 ∧
    ∀ d ∈ entriesOf s 1, d.ID ∉ s.short) (by decide +kernel) ?_
  rintro s run ⟨settled, count, full⟩
  exact ⟨settled, count, (settled_terminal_iff run settled).mpr full⟩

theorem replaced_stays_retrying : ∃ s, retriedOnce 5 = some s ∧ Settled s 1 ∧
    (entriesOf s 1).map (·.Status) = [.retrying, .success] := by
  exact exists_reached _ (by decide +kernel) fun _ _ seen => seen

end NexusPipe.Proof.Webhooks.Recording
