import NexusPipe.Library.Except
import NexusPipe.Webhooks.History

namespace NexusPipe.Proof.Webhooks.History
open Library NexusPipe.Webhooks WebhookHistory List Option

structure Progress where
  status : DeliveryStatus
  attempt : Int
  durationMS : Int
  deriving DecidableEq, Repr

def progress (delivery : WebhookDelivery) : Progress :=
  ⟨delivery.Status, delivery.Attempt, delivery.DurationMS⟩

def follow (id : UUID) (reported : Option Progress) : HistoryCall → Option Progress
  | .recordDelivery delivery .. => if delivery.ID = id then some (progress delivery) else reported
  | .updateDeliveryStatus _ deliveryID status .. =>
    if deliveryID = id then reported.map ({ · with status }) else reported
  | .updateDeliveryAttempt _ deliveryID attempt durationMS =>
    if deliveryID = id then reported.map ({ · with attempt, durationMS }) else reported
  | .enforceRetention .. | .clear => reported

def latest (calls : List HistoryCall) (id : UUID) : Option Progress := calls.foldl (follow id) none

def recordedID : HistoryCall → Option UUID
  | .recordDelivery delivery .. => some delivery.ID
  | _ => none

variable {h : WebhookHistory} {calls : List HistoryCall} {entry : HistoryEntry}
  {delivery : WebhookDelivery}

def idOf (h : WebhookHistory) (entry : HistoryEntry) : Option UUID := (h.delivery? entry).map (·.ID)

def shown (h : WebhookHistory) (entry : HistoryEntry) : Option Progress :=
  (h.delivery? entry).map progress

theorem latest_concat (calls : List HistoryCall) (c : HistoryCall) (id : UUID) :
    latest (calls ++ [c]) id = follow id (latest calls id) c := by
  simp [latest]

structure Agrees (calls : List HistoryCall) (h : WebhookHistory) : Prop where
  recorded : h.deliveries.map (·.ID) = calls.filterMap recordedID
  indexed : Indexed (idOf h) h.arrays h.entries h.byID
  current : ∀ entry ∈ h.listed, ∀ delivery, h.delivery? entry = some delivery →
    latest calls delivery.ID = some (progress delivery)

theorem agrees_empty (empty : h.listed = []) (valid : h.entries.Valid h.arrays)
    (recorded : h.deliveries.map (·.ID) = calls.filterMap recordedID) (noIndex : h.byID = ∅) :
    Agrees calls h where
  recorded := recorded
  indexed := noIndex ▸ .of_read_nil valid empty
  current entry member := by simp [empty] at member

theorem agrees_new (retention : RetentionConfig) : Agrees [] (newWebhookHistory retention) :=
  agrees_empty (Slice.read_made [] _ _) (Slice.valid_made [] _ _) rfl rfl

theorem agrees_clear (agrees : Agrees calls h) : Agrees (calls ++ [.clear]) h.clear := by
  refine agrees_empty (Slice.read_made h.arrays _ _) (Slice.valid_made h.arrays _ _) ?_ rfl
  rw [filterMap_append]
  exact agrees.recorded.trans (append_nil _).symm

theorem exists_delivery (agrees : Agrees calls h) (member : entry ∈ h.listed) :
    ∃ delivery, h.delivery? entry = some delivery := by
  obtain ⟨id, -, keyed, -⟩ := agrees.indexed.complete entry member
  obtain ⟨delivery, found, -⟩ := map_eq_some_iff.mp keyed
  exact ⟨delivery, found⟩

theorem delivery_id_mem (found : h.delivery? entry = some delivery) :
    delivery.ID ∈ h.deliveries.map (·.ID) := by
  obtain ⟨_, -, located⟩ := bind_eq_some_iff.mp found
  exact mem_map_of_mem (mem_of_getElem? located)

theorem delivery?_created (found : h.delivery? entry = some delivery) (created : WebhookDelivery) :
    { h with deliveries := h.deliveries ++ [created] }.delivery? entry = some delivery := by
  obtain ⟨address, pointer, located⟩ := bind_eq_some_iff.mp found
  have inside : address < h.deliveries.length := (List.getElem?_eq_some_iff.mp located).1
  exact bind_eq_some_iff.mpr
    ⟨address, pointer, (getElem?_append_left inside).trans located⟩

theorem recordDelivery_eq (found : h.delivery? ⟨pointer, webhookName, webhookURL⟩ = some delivery)
    (spare : List HistoryEntry) :
    let appended := h.entries.append h.arrays ⟨pointer, webhookName, webhookURL⟩ spare
    h.recordDelivery pointer webhookName webhookURL spare = .ok { h with
      arrays := appended.1
      entries := appended.2
      byID := h.byID.insert delivery.ID appended.2.last
      webhooks := h.webhooks.insert delivery.WebhookID
        ⟨delivery.WebhookID, webhookName, webhookURL⟩ } := by
  simp only [recordDelivery, deref, found]
  rfl

theorem agrees_recordDelivery (agrees : Agrees calls h) (created : WebhookDelivery)
    (webhookName webhookURL : String) (spare : List HistoryEntry)
    (fresh : created.ID ∉ calls.filterMap recordedID) :
    ∃ h', h.call (.recordDelivery created webhookName webhookURL spare) = .ok h' ∧
      Agrees (calls ++ [.recordDelivery created webhookName webhookURL spare]) h' := by
  let larger := { h with deliveries := h.deliveries ++ [created] }
  let entry : HistoryEntry := ⟨some h.deliveries.length, webhookName, webhookURL⟩
  have points : larger.delivery? entry = some created := by
    simp [larger, entry, delivery?]
  have keyed : idOf larger entry = some created.ID := by rw [idOf, points, map_some]
  have before (old : HistoryEntry) (member : old ∈ h.listed) : ∃ delivery,
      h.delivery? old = some delivery ∧ larger.delivery? old = some delivery ∧
        created.ID ≠ delivery.ID := by
    obtain ⟨delivery, found⟩ := exists_delivery agrees member
    refine ⟨delivery, found, delivery?_created found created, fun same => fresh ?_⟩
    rw [same, ← agrees.recorded]
    exact delivery_id_mem found
  have indexed : Indexed (idOf larger) h.arrays h.entries h.byID := by
    refine agrees.indexed.congr fun old member => ?_
    obtain ⟨delivery, found, found', -⟩ := before old member
    rw [idOf, found', idOf, found]
  have unique (old : HistoryEntry) (member : old ∈ h.listed)
      (same : idOf larger old = some created.ID) : old = entry := by
    obtain ⟨delivery, -, found', different⟩ := before old member
    rw [idOf, found', map_some, some.injEq] at same
    exact absurd same.symm different
  refine ⟨_, recordDelivery_eq points spare, ?_, indexed.append keyed unique spare,
    fun old member delivery found => ?_⟩
  · simp [larger, agrees.recorded, recordedID]
  · rw [listed, Slice.read_append agrees.indexed.valid, mem_append, mem_singleton] at member
    rw [latest_concat]
    rcases member with member | rfl
    · obtain ⟨delivery', found', current, different⟩ := before old member
      obtain rfl : delivery' = delivery := mem_unique current found
      rw [follow, if_neg different]
      exact agrees.current old member delivery' found'
    · obtain rfl : created = delivery := mem_unique points found
      rw [follow, if_pos rfl]

theorem delivery?_modify (h : WebhookHistory) (entry : HistoryEntry) (address : Nat)
    (change : WebhookDelivery → WebhookDelivery) :
    { h with deliveries := h.deliveries.modify address change }.delivery? entry =
      if entry.Delivery = some address then (h.delivery? entry).map change else h.delivery? entry := by
  simp only [delivery?]
  cases entry.Delivery with
  | none => rfl
  | some other =>
    simp only [bind_some, getElem?_modify, some.injEq]
    by_cases same : other = address
    · simp [same]
    · simp [same, Ne.symm same]

theorem address_unique (distinct : (h.deliveries.map (·.ID)).Nodup) {j : Nat}
    {second : WebhookDelivery} (at_i : h.deliveries[i]? = some first)
    (at_j : h.deliveries[j]? = some second) (same : first.ID = second.ID) : i = j := by
  have inside : i < (h.deliveries.map (·.ID)).length := by
    rw [length_map]
    exact (List.getElem?_eq_some_iff.mp at_i).1
  refine (getElem?_inj inside distinct).mp ?_
  rw [getElem?_map, getElem?_map, at_i, at_j, map_some, map_some, same]

theorem agrees_update (agrees : Agrees calls h) (distinct : (calls.filterMap recordedID).Nodup)
    {id : UUID} (other : recordedID c = none)
    (keeps : ∀ delivery, (change delivery).ID = delivery.ID) (changes : ∀ delivery,
      follow id (some (progress delivery)) c = some (progress (change delivery)))
    (passes : ∀ id' ≠ id, ∀ reported, follow id' reported c = reported) :
    ∃ h', h.update id change = .ok h' ∧ Agrees (calls ++ [c]) h' := by
  have recorded : (calls ++ [c]).filterMap recordedID = calls.filterMap recordedID := by
    simp [other]
  unfold update
  cases lookup : h.byID.lookup id with
  | none =>
    refine ⟨h, rfl, recorded ▸ agrees.recorded, agrees.indexed,
      fun entry member delivery found => ?_⟩
    have unlisted : delivery.ID ≠ id := by
      rintro rfl
      have present := (agrees.indexed.isSome_lookup_iff delivery.ID).mpr
        ⟨entry, member, by rw [idOf, found, map_some]⟩
      rw [lookup] at present
      exact Bool.noConfusion present
    rw [latest_concat, passes _ unlisted]
    exact agrees.current entry member delivery found
  | some pointer =>
    obtain ⟨-, target, -, reads, keyed⟩ := agrees.indexed.found id pointer lookup
    obtain ⟨updated, found, rfl⟩ := map_eq_some_iff.mp keyed
    obtain ⟨address, points, located⟩ := bind_eq_some_iff.mp found
    simp only [reads, bind_some, points]
    refine ⟨_, rfl, ?_, agrees.indexed.congr fun entry _ => ?_,
      fun entry member delivery shows => ?_⟩
    · rw [recorded, ← agrees.recorded]
      refine ext_getElem? fun i => ?_
      simp only [getElem?_map, getElem?_modify]
      cases h.deliveries[i]? with
      | none => rfl
      | some delivery => by_cases same : address = i <;> simp [same, keeps]
    · -- the cells stay as they are: an entry points to its delivery, which keeps its ID
      simp only [idOf, delivery?_modify]
      split
      · cases h.delivery? entry <;> simp [keeps]
      · rfl
    · rw [delivery?_modify] at shows
      rw [latest_concat]
      split at shows
      · next same =>
          rw [delivery?, same, bind_some, located, map_some, some.injEq] at shows
          have before := agrees.current entry member updated
            (by rw [delivery?, same, bind_some, located])
          rw [← shows, keeps, before, changes]
      · next different =>
          -- another address holds another delivery, as IDs are recorded once
          obtain ⟨place, points', located'⟩ := bind_eq_some_iff.mp shows
          have apart : delivery.ID ≠ updated.ID := by
            intro same
            have := address_unique (agrees.recorded ▸ distinct) located' located same
            exact different (this ▸ points')
          rw [passes _ apart]
          exact agrees.current entry member delivery shows

structure Rebuilds (h : WebhookHistory) (s : WebhookHistory.Retained) : Prop where
  indexed : Indexed (idOf h) s.arrays s.retained s.newByID
  within : ∀ old ∈ s.retained.read s.arrays, old ∈ h.listed

theorem retain_of_found (found : h.delivery? entry = some delivery) (cutoff : Time)
    (spare : Nat → List HistoryEntry) (s : WebhookHistory.Retained) :
    h.retain cutoff spare s entry =
      if delivery.CreatedAt.after cutoff ∧ (s.retained.len : Int) < h.retention.MaxEntries then
        let appended := s.retained.append s.arrays entry (spare s.retained.len)
        .ok ⟨appended.1, appended.2, s.newByID.insert delivery.ID appended.2.last⟩
      else .ok s := by
  rw [retain, deref, found]
  rfl

theorem rebuilds_retain (agrees : Agrees calls h) (cutoff : Time) (spare : Nat → List HistoryEntry)
    (member : entry ∈ h.listed) (rebuilds : Rebuilds h s) :
    ∃ s', h.retain cutoff spare s entry = .ok s' ∧ Rebuilds h s' := by
  obtain ⟨delivery, found⟩ := exists_delivery agrees member
  have keyed : idOf h entry = some delivery.ID := by rw [idOf, found, map_some]
  rw [retain_of_found found]
  split
  · refine ⟨_, rfl, rebuilds.indexed.append keyed (fun old kept same => ?_) (spare s.retained.len), ?_⟩
    · exact agrees.indexed.key_unique (rebuilds.within old kept) member (same.trans keyed.symm)
    · intro old kept
      rw [Slice.read_append rebuilds.indexed.valid, mem_append, mem_singleton] at kept
      rcases kept with kept | rfl
      · exact rebuilds.within old kept
      · exact member
  · exact ⟨s, rfl, rebuilds⟩

theorem agrees_enforceRetention (agrees : Agrees calls h) (now : Time)
    (spare : Nat → List HistoryEntry) : ∃ h', h.enforceRetention now spare = .ok h' ∧
      Agrees (calls ++ [.enforceRetention now spare]) h' := by
  have recorded : (calls ++ [HistoryCall.enforceRetention now spare]).filterMap recordedID =
      calls.filterMap recordedID := by simp [recordedID]
  unfold enforceRetention
  split
  · refine ⟨h, rfl, recorded ▸ agrees.recorded, agrees.indexed, fun entry member delivery found => ?_⟩
    rw [latest_concat]
    exact agrees.current entry member delivery found
  · let cutoff := now.add (toInt64 (-h.retention.RetentionDuration))
    have start : Rebuilds h ⟨h.arrays, .nil, ∅⟩ :=
      ⟨.of_read_nil (Slice.valid_nil h.arrays) (Slice.read_nil h.arrays), by simp⟩
    obtain ⟨s, ended, indexed, within⟩ := exists_foldlM_eq_ok (fun _ => Rebuilds h)
      (fun before entry after s split holds => rebuilds_retain agrees cutoff spare
        (split ▸ mem_append_right before mem_cons_self) holds) start
    simp only [cutoff] at ended
    refine ⟨{ h with arrays := s.arrays, entries := s.retained, byID := s.newByID }, ?_,
      recorded ▸ agrees.recorded, indexed, fun entry member delivery found => ?_⟩
    · simp only [ended]
      rfl
    · rw [latest_concat]
      exact agrees.current entry (within entry member) delivery found

theorem agrees_call (agrees : Agrees calls h)
    (distinct : ((calls ++ [c]).filterMap recordedID).Nodup) :
    ∃ h', h.call c = .ok h' ∧ Agrees (calls ++ [c]) h' := by
  rw [filterMap_append, nodup_append] at distinct
  cases c with
  | recordDelivery delivery webhookName webhookURL spare =>
    exact agrees_recordDelivery agrees delivery webhookName webhookURL spare
      fun repeated => distinct.2.2 _ repeated delivery.ID mem_cons_self rfl
  | updateDeliveryStatus | updateDeliveryAttempt =>
    exact agrees_update agrees distinct.1 rfl (fun _ => rfl) (fun _ => if_pos rfl)
      fun id' different _ => if_neg (Ne.symm different)
  | enforceRetention now spare => exact agrees_enforceRetention agrees now spare
  | clear => exact ⟨h.clear, rfl, agrees_clear agrees⟩

theorem agrees_calls (retention : RetentionConfig) (calls : List HistoryCall)
    (distinct : (calls.filterMap recordedID).Nodup) :
    ∃ h, calls.foldlM call (newWebhookHistory retention) = .ok h ∧ Agrees calls h := by
  refine exists_foldlM_eq_ok Agrees (fun before c after h split agrees => ?_) (agrees_new retention)
  refine agrees_call agrees (distinct.sublist ?_)
  have first : (before ++ [c]).Sublist calls := by
    rw [split, append_cons before c after]
    exact sublist_append_left _ after
  exact first.filterMap recordedID

theorem index_matches_list (retention : RetentionConfig) (calls : List HistoryCall)
    (distinct : (calls.filterMap recordedID).Nodup) :
    ∃ h, calls.foldlM WebhookHistory.call (newWebhookHistory retention) = .ok h ∧ ∀ id,
      ((h.getDelivery id).isSome ↔ ∃ entry ∈ h.listed, idOf h entry = some id) ∧
      ∀ entry ∈ h.listed, idOf h entry = some id →
        (∃ reported, latest calls id = some reported ∧ shown h entry = some reported) ∧
        ∀ pointer, h.getDelivery id = some pointer → pointer.read h.arrays = some entry := by
  obtain ⟨h, ended, agrees⟩ := agrees_calls retention calls distinct
  refine ⟨h, ended, fun id => ⟨agrees.indexed.isSome_lookup_iff id, fun entry member keyed => ?_⟩⟩
  constructor
  · obtain ⟨delivery, found, rfl⟩ := map_eq_some_iff.mp keyed
    exact ⟨progress delivery, agrees.current entry member delivery found,
      by rw [shown, found, map_some]⟩
  · intro pointer lookup
    obtain ⟨-, entry', member', reads, keyed'⟩ := agrees.indexed.found id pointer lookup
    rw [reads, agrees.indexed.key_unique member' member (keyed'.trans keyed.symm)]

def sampleDelivery (id : UUID) : WebhookDelivery where
  ID := id
  WebhookID := 7
  EventType := "pipeline.failed"
  URL := "https"
  Status := .delivering
  StatusCode := 0
  RequestBody := []
  ResponseBody := ""
  DurationMS := 0
  Attempt := 1
  MaxRetries := 3
  Error := ""
  CreatedAt := .zero
  UpdatedAt := .zero

def sampleCalls : List HistoryCall :=
  [.recordDelivery (sampleDelivery 1) "ci" "https" [], .enforceRetention .zero fun _ => [],
    .recordDelivery (sampleDelivery 2) "ci" "https" [],
    .updateDeliveryStatus .zero 1 .success 200 "ok" "", .updateDeliveryAttempt .zero 1 2 35]

theorem index_matches_list_rebuilt :
    ∃ h, sampleCalls.foldlM WebhookHistory.call (newWebhookHistory defaultRetentionConfig) = .ok h ∧
      ∀ id, ((h.getDelivery id).isSome ↔ ∃ entry ∈ h.listed, idOf h entry = some id) ∧
      ∀ entry ∈ h.listed, idOf h entry = some id →
        (∃ reported, latest sampleCalls id = some reported ∧ shown h entry = some reported) ∧
        ∀ pointer, h.getDelivery id = some pointer → pointer.read h.arrays = some entry :=
  index_matches_list defaultRetentionConfig sampleCalls (by decide)

example : latest sampleCalls 1 = some ⟨.success, 2, 35⟩ := by decide

end NexusPipe.Proof.Webhooks.History
