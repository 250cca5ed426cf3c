import NexusPipe.Api.Handlers.Webhook
import NexusPipe.Proof.Paging
import NexusPipe.Proof.Webhooks.Retention

namespace NexusPipe.Proof.Webhooks.Query
open Library NexusPipe.Webhooks NexusPipe.Proof.Paging Retention WebhookHistory List

variable {h : WebhookHistory} {filter : HistoryFilter} {entry : HistoryEntry} {orderBy : String}

inductive Column
  | createdAt | durationMS | status
  deriving DecidableEq, Repr

def Column.name : Column → String
  | .createdAt => "created_at"
  | .durationMS => "duration_ms"
  | .status => "status"

def Column.less : Column → WebhookDelivery → WebhookDelivery → Bool
  | .createdAt, a, b => a.CreatedAt.instant < b.CreatedAt.instant
  | .durationMS, a, b => a.DurationMS < b.DurationMS
  | .status, a, b => a.Status.text < b.Status.text

structure Order where
  column : Column
  descending : Bool
  deriving DecidableEq, Repr

def Order.name (order : Order) : String :=
  order.column.name ++ if order.descending then " DESC" else " ASC"

def Order.less (order : Order) (a b : WebhookDelivery) : Bool :=
  if order.descending then order.column.less b a else order.column.less a b

def orders : List Order :=
  [⟨.createdAt, false⟩, ⟨.durationMS, false⟩, ⟨.durationMS, true⟩, ⟨.status, false⟩, ⟨.status, true⟩,
    ⟨.createdAt, true⟩]

def orderNamed (orderBy : String) : Order :=
  (orders.find? fun order => orderBy = order.name).getD ⟨.createdAt, true⟩

def meets (filter : HistoryFilter) (delivery : WebhookDelivery) : Bool :=
  filter.WebhookID.all (delivery.WebhookID = ·) &&
    (filter.Status.isEmpty || filter.Status.any (delivery.Status.text = ·.text)) &&
    (filter.EventType = "" || delivery.EventType = filter.EventType) &&
    filter.From.all (·.instant ≤ delivery.CreatedAt.instant) &&
    filter.To.all (delivery.CreatedAt.instant ≤ ·.instant)

def matching (h : WebhookHistory) (filter : HistoryFilter) : List HistoryEntry :=
  h.listed.filter fun entry => meets filter (h.resolve entry)

def Resolved (h : WebhookHistory) : Prop := ∀ entry ∈ h.listed, (h.delivery? entry).isSome

theorem Recorded.resolved (recorded : Recorded h) : Resolved h := by
  intro entry member
  obtain ⟨delivery, found⟩ := recorded.exists_delivery member
  rw [found, Option.isSome_some]

theorem less_eq (orderBy : String) (a b : WebhookDelivery) :
    less orderBy a b = (orderNamed orderBy).less a b := by
  unfold less
  split_ifs with first second third fourth fifth
  · subst first
    rfl
  · subst second
    rfl
  · subst third
    rfl
  · subst fourth
    rfl
  · subst fifth
    rfl
  · have newestFirst : orderNamed orderBy = ⟨.createdAt, true⟩ := by
      have passed : (orders.take 5).find? (fun order => orderBy = order.name) = none := by
        rw [find?_eq_none]
        simp only [orders, take_succ_cons, take_zero, forall_mem_cons, decide_eq_true_eq]
        exact ⟨first, second, third, fourth, fifth, by simp⟩
      rw [orderNamed, ← take_append_drop 5 orders, find?_append, passed, Option.none_or]
      simp only [orders, drop_succ_cons, drop_zero, find?_singleton]
      split <;> rfl
    rw [newestFirst]
    rfl

theorem keeps_eq (found : (h.delivery? entry).isSome) (filter : HistoryFilter) :
    h.keeps filter entry = .ok (meets filter (h.resolve entry)) := by
  obtain ⟨delivery, found⟩ := Option.isSome_iff_exists.mp found
  rw [keeps, resolve, deref, found]
  split_ifs with unset
  · obtain ⟨id, status, eventType, earliest, latest⟩ := unset
    simp [meets, id, status, eventType, earliest, latest]
  · -- each branch of the code is left by the negation of one condition
    have otherWebhook : filter.WebhookID.any (delivery.WebhookID ≠ ·) =
        !filter.WebhookID.all (delivery.WebhookID = ·) := by
      cases filter.WebhookID <;> simp
    have early : filter.From.any delivery.CreatedAt.before =
        !filter.From.all (·.instant ≤ delivery.CreatedAt.instant) := by
      cases filter.From <;> simp [Time.before, ← decide_not]
    have late : filter.To.any delivery.CreatedAt.after =
        !filter.To.all (delivery.CreatedAt.instant ≤ ·.instant) := by
      cases filter.To <;> simp [Time.after, ← decide_not]
    simp only [Except.map, Option.getD_some, otherWebhook, early, late]
    congr 1
    simp only [meets]
    split_ifs <;> simp_all [or_iff_not_imp_left]

theorem strictWeak_column (column : Column) : StrictWeak column.less := by
  cases column with
  | createdAt =>
    exact strictWeak_of_lt (fun d : WebhookDelivery => d.CreatedAt.instant)
      fun a b => by rw [Column.less, decide_eq_true_iff]
  | durationMS =>
    exact strictWeak_of_lt (fun d : WebhookDelivery => d.DurationMS)
      fun a b => by rw [Column.less, decide_eq_true_iff]
  | status =>
    exact strictWeak_of_lt (fun d : WebhookDelivery => d.Status.text)
      fun a b => by rw [Column.less, decide_eq_true_iff]

theorem strictWeak_order (order : Order) : StrictWeak order.less := by
  unfold Order.less
  cases order.descending with
  | false => exact strictWeak_column order.column
  | true => exact (strictWeak_column order.column).flip

def lessOf (h : WebhookHistory) (orderBy : String) (a b : HistoryEntry) : Bool :=
  (orderNamed orderBy).less (h.resolve a) (h.resolve b)

theorem filtered_eq (resolved : Resolved h) (filter : HistoryFilter) :
    h.listed.foldlM
      (fun filtered entry => (h.keeps filter entry).map fun kept =>
        if kept then filtered ++ [entry] else filtered) [] = .ok (matching h filter) := by
  have ended : ∃ l, h.listed.foldlM
      (fun filtered entry => (h.keeps filter entry).map fun kept =>
        if kept then filtered ++ [entry] else filtered) [] = .ok l ∧ l = matching h filter := by
    refine exists_foldlM_eq_ok
      (fun before l => l = before.filter fun entry => meets filter (h.resolve entry)) ?_ rfl
    intro before entry after l split same
    have found := resolved entry (split ▸ mem_append_right before mem_cons_self)
    refine ⟨_, by rw [keeps_eq found]; rfl, ?_⟩
    subst same
    cases kept : meets filter (h.resolve entry) <;> simp [kept]
  obtain ⟨l, ended, rfl⟩ := ended
  exact ended

theorem applyFilter_eq (resolved : Resolved h) (filter : HistoryFilter) : h.applyFilter filter =
      .ok (stableSort (lessOf h filter.OrderBy) (matching h filter)) := by
  rw [applyFilter, filtered_eq resolved]
  change h.sortEntries (matching h filter) filter.OrderBy = _
  rw [sortEntries, if_neg]
  · simp only [less_eq]
    rfl
  · rintro ⟨-, entry, member, missing⟩
    have found := resolved entry (mem_of_mem_filter member)
    rw [missing] at found
    cases found

theorem stablySorted (h : WebhookHistory) (filter : HistoryFilter) :
    StablySorted (lessOf h filter.OrderBy) (matching h filter)
      (stableSort (lessOf h filter.OrderBy) (matching h filter)) :=
  stablySorted_stableSort ((strictWeak_order _).comap h.resolve) _

theorem getHistory_eq (filtered_eq : h.applyFilter filter = .ok filtered) : h.getHistory filter =
      (Paging.copied filtered (Paging.page filter.Page) (Paging.perPage filter.PerPage)).map
        fun entries => ⟨entries, filtered.length, Paging.page filter.Page,
          Paging.perPage filter.PerPage,
          Paging.totalPages filtered.length (Paging.perPage filter.PerPage)⟩ := by
  rw [getHistory, filtered_eq]
  rfl

/-- A slice lies in the address space, in which an entry takes 40 bytes. -/
def Addressable (h : WebhookHistory) : Prop := 40 * h.listed.length < 2 ^ 63

def answer (k : Nat) (sorted : List HistoryEntry) (i : Nat) : PaginatedResult where
  Entries := page k sorted i
  Total := sorted.length
  Page := i + 1
  PerPage := k
  TotalPages := pageCount k sorted.length

theorem getHistory_page {i k : Nat}
    (filtered_eq : h.applyFilter { filter with Page := i + 1 } = .ok filtered)
    (k_eq : Paging.perPage filter.PerPage = k) (fits : i * k + k < 2 ^ 63) :
    h.getHistory { filter with Page := i + 1 } = .ok (answer k filtered i) := by
  have ok := corrected (i + 1) filter.PerPage
  have page_eq : Paging.page (i + 1) = i + 1 := if_neg (by omega)
  rw [page_eq, k_eq] at ok
  have cut := (cut_copied ok filtered).eq_page fits
  rw [getHistory_eq filtered_eq]
  simp only [page_eq, k_eq, cut, totalPages_eq]
  rfl

theorem pages_partition (resolved : Resolved h) (addressable : Addressable h)
    (filter : HistoryFilter) :
    ∃ (sorted : List HistoryEntry) (pages : Nat) (answers : Nat → PaginatedResult),
      StablySorted (lessOf h filter.OrderBy) (matching h filter) sorted ∧
      (∀ page result, h.getHistory { filter with Page := page } = .ok result →
        result.Total = sorted.length ∧ result.TotalPages = pages) ∧
      (∀ i < max 1 pages, h.getHistory { filter with Page := i + 1 } = .ok (answers i)) ∧
      (List.range pages).flatMap (fun i => (answers i).Entries) = sorted := by
  let sorted := stableSort (lessOf h filter.OrderBy) (matching h filter)
  have stable : StablySorted (lessOf h filter.OrderBy) (matching h filter) sorted :=
    stablySorted h filter
  have filtered_eq (number : Int) : h.applyFilter { filter with Page := number } = .ok sorted :=
    applyFilter_eq resolved { filter with Page := number }
  have ok := corrected 1 filter.PerPage
  obtain ⟨k, k_eq⟩ := Int.eq_ofNat_of_zero_le (show 0 ≤ Paging.perPage filter.PerPage by
    have := ok.perPage_pos
    omega)
  have positive : 0 < k := by
    have := ok.perPage_pos
    omega
  refine ⟨sorted, pageCount k sorted.length, answer k sorted, stable, ?_, ?_,
    flatMap_pages positive sorted⟩
  · intro number result returned
    rw [getHistory_eq (filtered_eq number), map_eq_ok] at returned
    obtain ⟨entries, -, rfl⟩ := returned
    simp only [k_eq, totalPages_eq, and_self]
  · intro i inside
    refine getHistory_page (filtered_eq (i + 1)) k_eq ?_
    have few : sorted.length ≤ h.listed.length := by
      rw [stable.perm.length_eq]
      exact length_filter_le _ _
    have := ok.perPage_le
    rw [Addressable] at addressable
    rcases lt_max_iff.mp inside with first | inside
    · obtain rfl : i = 0 := by omega
      omega
    · have := (lt_pageCount_iff positive).mp inside
      omega

theorem pages_partition_crowded :
    ∃ (sorted : List HistoryEntry) (pages : Nat) (answers : Nat → PaginatedResult),
      StablySorted (lessOf crowded "created_at DESC") (matching crowded defaultHistoryFilter) sorted ∧
      (∀ page result, crowded.getHistory { defaultHistoryFilter with Page := page } = .ok result →
        result.Total = sorted.length ∧ result.TotalPages = pages) ∧
      (∀ i < max 1 pages,
        crowded.getHistory { defaultHistoryFilter with Page := i + 1 } = .ok (answers i)) ∧
      (List.range pages).flatMap (fun i => (answers i).Entries) = sorted :=
  pages_partition (Recorded.resolved recorded_crowded) (by unfold Addressable; decide)
    defaultHistoryFilter

theorem getHistory_safe_iff (filtered_eq : h.applyFilter filter = .ok filtered) :
    (∃ result, h.getHistory filter = .ok result ∧
        (result.TotalPages < result.Page → result.Entries = [])) ↔
      InRange filtered.length (Paging.page filter.Page) (Paging.perPage filter.PerPage) := by
  have ok := corrected filter.Page filter.PerPage
  rw [← (cut_copied ok filtered).safe_iff ok, getHistory_eq filtered_eq]
  constructor
  · rintro ⟨result, returned, empty⟩
    obtain ⟨entries, shown, rfl⟩ := map_eq_ok.mp returned
    exact ⟨entries, shown, empty⟩
  · rintro ⟨entries, shown, empty⟩
    exact ⟨_, by rw [shown]; rfl, empty⟩

section
open NexusPipe.Api.Handlers
variable {W D : Type} {handler : WebhookHandler W D} {id : String}

theorem deliveryHistory_eq (known : id ∈ handler.webhooks) (query : DeliveryHistoryQuery) :
    handler.deliveryHistory id (.ok query) =
      (Paging.sliced (handler.deliveries.get id) (Paging.page query.Page)
        (Paging.perPage query.PerPage)).map fun shown =>
          paginated shown (Paging.page query.Page) (Paging.perPage query.PerPage)
            (handler.deliveries.get id).length := by
  rw [WebhookHandler.deliveryHistory, if_neg (not_not.mpr known)]
  rfl

theorem deliveryHistory_safe_iff (known : id ∈ handler.webhooks) (query : DeliveryHistoryQuery) :
    (∃ data page, handler.deliveryHistory id (.ok query) = .ok (.paginated data page) ∧
        (page.TotalPages < page.Page → data = [])) ↔
      InRange (handler.deliveries.get id).length (Paging.page query.Page)
        (Paging.perPage query.PerPage) := by
  have ok := corrected query.Page query.PerPage
  rw [← (cut_sliced ok (handler.deliveries.get id)).safe_iff ok, deliveryHistory_eq known]
  constructor
  · rintro ⟨data, page, returned, empty⟩
    obtain ⟨shown, sliced, same⟩ := map_eq_ok.mp returned
    obtain ⟨rfl, rfl⟩ := HistoryResponse.paginated.inj same
    exact ⟨shown, sliced, empty⟩
  · rintro ⟨shown, sliced, empty⟩
    exact ⟨shown, _, by rw [sliced]; rfl, empty⟩

theorem listings_safe_iff (resolved : Resolved h) (filter : HistoryFilter)
    (known : id ∈ handler.webhooks) (query : DeliveryHistoryQuery) :
    ((∃ result, h.getHistory filter = .ok result ∧
        (result.TotalPages < result.Page → result.Entries = [])) ↔
      InRange (matching h filter).length (Paging.page filter.Page) (Paging.perPage filter.PerPage)) ∧
    ((∃ data page, handler.deliveryHistory id (.ok query) = .ok (.paginated data page) ∧
        (page.TotalPages < page.Page → data = [])) ↔
      InRange (handler.deliveries.get id).length (Paging.page query.Page)
        (Paging.perPage query.PerPage)) := by
  refine ⟨?_, deliveryHistory_safe_iff known query⟩
  rw [getHistory_safe_iff (applyFilter_eq resolved filter), (stablySorted h filter).perm.length_eq]

def sampleHandler : WebhookHandler Unit Nat where
  webhooks := (∅ : GoMap String Unit).insert "w" ()
  deliveries := (∅ : GoMap String (List Nat)).insert "w" [7]

theorem listings_safe_default : ((∃ result, crowded.getHistory defaultHistoryFilter = .ok result ∧
        (result.TotalPages < result.Page → result.Entries = [])) ↔
      InRange (matching crowded defaultHistoryFilter).length 1 20) ∧
    ((∃ data page, sampleHandler.deliveryHistory "w" (.ok ⟨1, 20⟩) = .ok (.paginated data page) ∧
        (page.TotalPages < page.Page → data = [])) ↔
      InRange (sampleHandler.deliveries.get "w").length 1 20) :=
  listings_safe_iff (Recorded.resolved recorded_crowded) defaultHistoryFilter (by decide) ⟨1, 20⟩

theorem listings_wrap :
    (∃ fault, (newWebhookHistory defaultRetentionConfig).getHistory
      { defaultHistoryFilter with Page := 2 ^ 62 + 1, PerPage := 2 } = .error fault) ∧
    sampleHandler.deliveryHistory "w" (.ok ⟨2 ^ 62 + 1, 4⟩) =
      .ok (.paginated [7] ⟨2 ^ 62 + 1, 4, 1, 1⟩) := by
  constructor
  · have resolved : Resolved (newWebhookHistory defaultRetentionConfig) :=
      Recorded.resolved (recorded_new defaultRetentionConfig)
    have empty : matching (newWebhookHistory defaultRetentionConfig)
        { defaultHistoryFilter with Page := 2 ^ 62 + 1, PerPage := 2 } = [] := rfl
    rw [getHistory_eq (applyFilter_eq resolved _), empty, stableSort, mergeSort_nil]
    exact ⟨_, rfl⟩
  · rfl

end

end NexusPipe.Proof.Webhooks.Query
