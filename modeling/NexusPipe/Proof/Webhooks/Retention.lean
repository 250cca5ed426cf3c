import NexusPipe.Proof.Webhooks.History

namespace NexusPipe.Proof.Webhooks.Retention
open Library NexusPipe.Webhooks History WebhookHistory List

variable {h : WebhookHistory} {entry : HistoryEntry} {now : Time} {s : WebhookHistory.Retained}

structure Recorded (h : WebhookHistory) : Prop where
  valid : h.entries.Valid h.arrays
  inOrder : h.listed.Pairwise fun a b => ∀ i ∈ a.Delivery, ∀ j ∈ b.Delivery, i < j
  exist : ∀ entry ∈ h.listed, ∃ place, entry.Delivery = some place ∧ place < h.deliveries.length

def cutoff (h : WebhookHistory) (now : Time) : Time :=
  now.add (toInt64 (-h.retention.RetentionDuration))

def young (h : WebhookHistory) (now : Time) (entry : HistoryEntry) : Bool :=
  (h.delivery? entry).any (·.CreatedAt.after (cutoff h now))

def newest {α : Type*} (k : Nat) (l : List α) : List α := l.drop (l.length - k)

theorem Recorded.nodup (recorded : Recorded h) : h.listed.Nodup := by
  apply recorded.inOrder.imp_of_mem
  intro a b member _ before same
  obtain ⟨place, pointer, -⟩ := recorded.exist a member
  exact lt_irrefl place (before place pointer place (same ▸ pointer))

theorem Recorded.exists_delivery (recorded : Recorded h) (member : entry ∈ h.listed) :
    ∃ delivery, h.delivery? entry = some delivery := by
  obtain ⟨place, pointer, inside⟩ := recorded.exist entry member
  exact ⟨h.deliveries[place], by simp [delivery?, pointer, inside]⟩

theorem take_filter_concat {α : Type*} (p : α → Bool) (k : Nat) (before : List α) (a : α) :
    ((before ++ [a]).filter p).take k =
      if p a ∧ ((before.filter p).take k).length < k then (before.filter p).take k ++ [a]
      else (before.filter p).take k := by
  rw [filter_append, take_append, length_take]
  by_cases accepted : p a
  · rw [filter_singleton, accepted, cond_true]
    by_cases room : (before.filter p).length < k
    · rw [if_pos ⟨rfl, by omega⟩, take_of_length_le room.le, take_of_length_le]
      rw [length_singleton]
      omega
    · rw [if_neg (by omega), Nat.sub_eq_zero_of_le (by omega), take_zero, append_nil]
  · simp [accepted]

structure Keeps (h : WebhookHistory) (now : Time) (before : List HistoryEntry)
    (s : WebhookHistory.Retained) : Prop where
  valid : s.retained.Valid s.arrays
  read : s.retained.read s.arrays = (before.filter (young h now)).take h.retention.MaxEntries.toNat

theorem keeps_retain (found : h.delivery? entry = some delivery) (spare : Nat → List HistoryEntry)
    (keeps : Keeps h now before s) :
    ∃ s', h.retain (cutoff h now) spare s entry = .ok s' ∧ Keeps h now (before ++ [entry]) s' := by
  have isYoung : young h now entry = delivery.CreatedAt.after (cutoff h now) := by
    rw [young, found, Option.any_some]
  have length : ((before.filter (young h now)).take h.retention.MaxEntries.toNat).length =
      s.retained.len := by
    rw [← keeps.read, Slice.length_read keeps.valid]
  have taken := take_filter_concat (young h now) h.retention.MaxEntries.toNat before entry
  rw [length, isYoung, ← keeps.read] at taken
  rw [retain_of_found found]
  split_ifs with kept
  · rw [if_pos ⟨kept.1, by omega⟩] at taken
    refine ⟨_, rfl, Slice.valid_appended keeps.valid entry _, ?_⟩
    rw [taken]
    exact Slice.read_append keeps.valid entry _
  · rw [if_neg fun both => kept ⟨both.1, by omega⟩] at taken
    exact ⟨s, rfl, keeps.valid, taken.symm⟩

theorem listed_enforceRetention (recorded : Recorded h) (now : Time)
    (spare : Nat → List HistoryEntry) :
    ∃ h', h.enforceRetention now spare = .ok h' ∧ h'.entries.Valid h'.arrays ∧
      h'.deliveries = h.deliveries ∧
      h'.listed = (h.listed.filter (young h now)).take h.retention.MaxEntries.toNat := by
  unfold enforceRetention
  split
  · next empty =>
      have : h.listed = [] := by
        rw [← length_eq_zero_iff, listed, Slice.length_read recorded.valid, empty]
      exact ⟨h, rfl, recorded.valid, rfl, by simp [this]⟩
  · have start : Keeps h now [] ⟨h.arrays, .nil, ∅⟩ := ⟨Slice.valid_nil h.arrays, by simp⟩
    obtain ⟨s, ended, keeps⟩ := exists_foldlM_eq_ok (Keeps h now)
      (fun before entry after s split keeps => by
        obtain ⟨delivery, found⟩ := recorded.exists_delivery
          (split ▸ mem_append_right before mem_cons_self)
        exact keeps_retain found spare keeps) start
    refine ⟨{ h with arrays := s.arrays, entries := s.retained, byID := s.newByID }, ?_,
      keeps.valid, rfl, keeps.read⟩
    simp only [cutoff] at ended
    simp only [ended]
    rfl

theorem take_eq_newest_iff {α : Type*} {l : List α} (nodup : l.Nodup) (k : Nat) :
    l.take k = newest k l ↔ l.length ≤ k ∨ k = 0 := by
  constructor
  · intro same
    by_contra! both
    obtain ⟨more, some⟩ := both
    have heads := congrArg (·[0]?) same
    simp only [newest, getElem?_take, getElem?_drop, if_pos (Nat.pos_of_ne_zero some)] at heads
    have := (nodup_iff_getElem?_ne_getElem?.mp nodup) 0 (l.length - k + 0) (by omega) (by omega)
    exact this heads
  · rintro (few | rfl)
    · rw [newest, take_of_length_le few, Nat.sub_eq_zero_of_le few, drop_zero]
    · rw [newest, take_zero, Nat.sub_zero, drop_length]

theorem recorded_of_nil (valid : h.entries.Valid h.arrays) (empty : h.listed = []) : Recorded h where
  valid := valid
  inOrder := by simp [empty]
  exist := by simp [empty]

theorem recorded_new (retention : RetentionConfig) : Recorded (newWebhookHistory retention) :=
  recorded_of_nil (Slice.valid_made [] _ _) (Slice.read_made [] _ _)

theorem recorded_recordDelivery (recorded : Recorded h) (created : WebhookDelivery)
    (webhookName webhookURL : String) (spare : List HistoryEntry) :
    ∃ h', h.call (.recordDelivery created webhookName webhookURL spare) = .ok h' ∧ Recorded h' := by
  let larger := { h with deliveries := h.deliveries ++ [created] }
  let entry : HistoryEntry := ⟨some h.deliveries.length, webhookName, webhookURL⟩
  have points : larger.delivery? entry = some created := by
    simp [larger, entry, delivery?]
  refine ⟨_, recordDelivery_eq points spare, Slice.valid_appended recorded.valid entry spare, ?_, ?_⟩
  · rw [listed, Slice.read_append recorded.valid, pairwise_append]
    refine ⟨recorded.inOrder, pairwise_singleton _ _, fun old member last isLast i first j second => ?_⟩
    obtain ⟨place, pointer, inside⟩ := recorded.exist old member
    obtain rfl := mem_singleton.mp isLast
    obtain rfl : place = i := Option.mem_unique pointer first
    obtain rfl : h.deliveries.length = j := Option.some.inj second
    exact inside
  · intro old member
    rw [listed, Slice.read_append recorded.valid, mem_append, mem_singleton] at member
    rcases member with member | rfl
    · obtain ⟨place, pointer, inside⟩ := recorded.exist old member
      exact ⟨place, pointer, by simp [larger]; omega⟩
    · exact ⟨h.deliveries.length, rfl, by simp [larger]⟩

theorem Recorded.update {id : UUID} (recorded : Recorded h) (updated : h.update id change = .ok h') :
    Recorded h' := by
  unfold WebhookHistory.update at updated
  split at updated
  · cases updated
    exact recorded
  · split at updated
    · cases updated
    · cases updated
      refine ⟨recorded.valid, recorded.inOrder, fun entry member => ?_⟩
      rw [length_modify]
      exact recorded.exist entry member

theorem recorded_call (recorded : Recorded h) (called : h.call c = .ok h') : Recorded h' := by
  cases c with
  | recordDelivery created webhookName webhookURL spare =>
    obtain ⟨h₁, ended, recorded⟩ :=
      recorded_recordDelivery recorded created webhookName webhookURL spare
    exact ok_unique ended called ▸ recorded
  | updateDeliveryStatus | updateDeliveryAttempt => exact recorded.update called
  | enforceRetention now spare =>
    obtain ⟨h₁, ended, valid, deliveries, listed⟩ := listed_enforceRetention recorded now spare
    obtain rfl := ok_unique ended called
    have sublist : h₁.listed.Sublist h.listed :=
      listed ▸ (take_sublist _ _).trans filter_sublist
    exact ⟨valid, recorded.inOrder.sublist sublist,
      fun entry member => deliveries ▸ recorded.exist entry (sublist.subset member)⟩
  | clear =>
    cases called
    exact recorded_of_nil (Slice.valid_made h.arrays _ _) (Slice.read_made h.arrays _ _)

theorem recorded_calls (retention : RetentionConfig) {calls : List HistoryCall}
    (run : calls.foldlM call (newWebhookHistory retention) = .ok h) : Recorded h :=
  foldlM_invariant Recorded (fun _ _ _ recorded called => recorded_call recorded called) run
    (recorded_new retention)

theorem recorded_first : ∃ h, [HistoryCall.recordDelivery (sampleDelivery 1) "ci" "https" []].foldlM
    call (newWebhookHistory defaultRetentionConfig) = .ok h ∧ Recorded h := by
  obtain ⟨h, called, -⟩ := recorded_recordDelivery (recorded_new defaultRetentionConfig)
    (sampleDelivery 1) "ci" "https" []
  refine ⟨h, (and_iff_left_of_imp (recorded_calls defaultRetentionConfig)).mpr ?_⟩
  exact bind_eq_ok.mpr ⟨h, called, rfl⟩

theorem keeps_newest_iff (recorded : Recorded h) (now : Time) (spare : Nat → List HistoryEntry) :
    ∃ h', h.enforceRetention now spare = .ok h' ∧
      (h'.listed = newest h.retention.MaxEntries.toNat (h.listed.filter (young h now)) ↔
        (h.listed.filter (young h now)).length ≤ h.retention.MaxEntries.toNat ∨
          h.retention.MaxEntries.toNat = 0) := by
  obtain ⟨h', ended, -, -, listed⟩ := listed_enforceRetention recorded now spare
  exact ⟨h', ended, listed ▸ take_eq_newest_iff (recorded.nodup.filter _) _⟩

def crowded : WebhookHistory :=
  { newWebhookHistory { defaultRetentionConfig with MaxEntries := 1 } with
    deliveries := [sampleDelivery 1, sampleDelivery 2]
    arrays := [[⟨some 0, "ci", "https"⟩, ⟨some 1, "ci", "https"⟩]]
    entries := ⟨0, 0, 2, 2⟩ }

theorem recorded_crowded : Recorded crowded where
  valid := by decide
  inOrder := by simp [listed, Slice.read, crowded]
  exist := by simp [listed, Slice.read, crowded]

theorem keeps_newest_crowded : ∃ h', crowded.enforceRetention .zero (fun _ => []) = .ok h' ∧
    (h'.listed = newest 1 (crowded.listed.filter (young crowded .zero)) ↔
      (crowded.listed.filter (young crowded .zero)).length ≤ 1 ∨ 1 = 0) :=
  keeps_newest_iff recorded_crowded .zero fun _ => []

theorem crowded_keeps_oldest : ∃ h', crowded.enforceRetention .zero (fun _ => []) = .ok h' ∧
    h'.listed = [⟨some 0, "ci", "https"⟩] ∧
    newest 1 (crowded.listed.filter (young crowded .zero)) = [⟨some 1, "ci", "https"⟩] :=
  ⟨_, rfl, by decide, by decide⟩

end NexusPipe.Proof.Webhooks.Retention
