import Mathlib.Data.String.Basic
import NexusPipe.Cron
import NexusPipe.Library.Cell
import NexusPipe.Library.StableSort
import NexusPipe.Paging

namespace NexusPipe.Webhooks
open Library

inductive DeliveryStatus
  | pending | delivering | success | failed | retrying | cancelled
  | other (text : String)
  deriving DecidableEq, Repr, Inhabited

def DeliveryStatus.text : DeliveryStatus → String
  | .pending => "pending"
  | .delivering => "delivering"
  | .success => "success"
  | .failed => "failed"
  | .retrying => "retrying"
  | .cancelled => "cancelled"
  | .other text => text

def DeliveryStatus.isTerminal (s : DeliveryStatus) : Bool :=
  s.text = "success" ∨ s.text = "failed" ∨ s.text = "cancelled"

structure WebhookDelivery where
  ID : UUID
  WebhookID : UUID
  EventType : String
  URL : String
  Status : DeliveryStatus
  StatusCode : Int
  RequestBody : List UInt8
  ResponseBody : String
  DurationMS : Int
  Attempt : Int
  MaxRetries : Int
  Error : String
  CreatedAt : Time
  UpdatedAt : Time
  deriving DecidableEq, Repr, Inhabited

structure HistoryEntry where
  Delivery : Option Nat
  WebhookName : String
  WebhookURL : String
  deriving DecidableEq, Repr

structure HistoryFilter where
  WebhookID : Option UUID
  Status : List DeliveryStatus
  EventType : String
  From : Option Time
  To : Option Time
  Page : Int
  PerPage : Int
  OrderBy : String
  deriving DecidableEq, Repr

def defaultHistoryFilter : HistoryFilter where
  WebhookID := none
  Status := []
  EventType := ""
  From := none
  To := none
  Page := 1
  PerPage := 20
  OrderBy := "created_at DESC"

structure PaginatedResult where
  Entries : List HistoryEntry
  Total : Int
  Page : Int
  PerPage : Int
  TotalPages : Int
  deriving DecidableEq, Repr

structure RetentionConfig where
  MaxEntries : Int
  RetentionDuration : Int
  CleanupInterval : Int
  deriving DecidableEq, Repr

def defaultRetentionConfig : RetentionConfig where
  MaxEntries := 10000
  RetentionDuration := 7 * 24 * hour
  CleanupInterval := 1 * hour

structure WebhookSummary where
  ID : UUID
  Name : String
  URL : String
  deriving DecidableEq, Repr

structure WebhookHistory where
  entries : Slice
  byID : GoMap UUID Cell
  webhooks : GoMap UUID WebhookSummary
  retention : RetentionConfig
  -- what its pointers and slices lead to
  deliveries : List WebhookDelivery
  arrays : Arrays HistoryEntry

def makeEntries (arrays : Arrays HistoryEntry) : Arrays HistoryEntry × Slice :=
  Slice.make arrays [] (List.replicate 1024 ⟨none, "", ""⟩)

def newWebhookHistory (retention : RetentionConfig) : WebhookHistory :=
  let (arrays, entries) := makeEntries []
  { entries, byID := ∅, webhooks := ∅, retention, deliveries := [], arrays }

namespace WebhookHistory
variable (h : WebhookHistory)

def listed : List HistoryEntry := h.entries.read h.arrays

def delivery? (entry : HistoryEntry) : Option WebhookDelivery := entry.Delivery.bind (h.deliveries[·]?)

def nilDereference : Fault := .panic "invalid memory address or nil pointer dereference"

def deref (entry : HistoryEntry) : Except Fault WebhookDelivery :=
  match h.delivery? entry with
  | some delivery => .ok delivery
  | none => .error nilDereference

/-- `spare` is what the runtime adds to a new array when `append` needs one. -/
def recordDelivery (delivery : Option Nat) (webhookName webhookURL : String)
    (spare : List HistoryEntry) : Except Fault WebhookHistory := do
  let entry : HistoryEntry := ⟨delivery, webhookName, webhookURL⟩
  let appended := h.entries.append h.arrays entry spare
  let delivery ← h.deref entry
  return { h with
    arrays := appended.1
    entries := appended.2
    byID := h.byID.insert delivery.ID appended.2.last
    webhooks := h.webhooks.insert delivery.WebhookID ⟨delivery.WebhookID, webhookName, webhookURL⟩ }

def getDelivery (deliveryID : UUID) : Option Cell := h.byID.lookup deliveryID

def update (deliveryID : UUID) (change : WebhookDelivery → WebhookDelivery) :
    Except Fault WebhookHistory :=
  match h.byID.lookup deliveryID with
  | none => .ok h
  | some entry =>
    match (entry.read h.arrays).bind (·.Delivery) with
    | none => .error nilDereference
    | some delivery => .ok { h with deliveries := h.deliveries.modify delivery change }

def updateDeliveryStatus (now : Time) (deliveryID : UUID) (status : DeliveryStatus) (statusCode : Int)
    (responseBody errMsg : String) : Except Fault WebhookHistory :=
  h.update deliveryID fun delivery =>
    { delivery with
      Status := status
      StatusCode := statusCode
      ResponseBody := responseBody
      Error := if errMsg ≠ "" then errMsg else delivery.Error
      UpdatedAt := now }

def updateDeliveryAttempt (now : Time) (deliveryID : UUID) (attempt durationMS : Int) :
    Except Fault WebhookHistory :=
  h.update deliveryID fun delivery =>
    { delivery with Attempt := attempt, DurationMS := durationMS, UpdatedAt := now }

structure Retained where
  arrays : Arrays HistoryEntry
  retained : Slice
  newByID : GoMap UUID Cell

def retain (cutoff : Time) (spare : Nat → List HistoryEntry) (s : Retained) (entry : HistoryEntry) :
    Except Fault Retained := do
  let delivery ← h.deref entry
  let keepByAge := delivery.CreatedAt.after cutoff
  let keepByCount := (s.retained.len : Int) < h.retention.MaxEntries
  if keepByAge ∧ keepByCount then
    let appended := s.retained.append s.arrays entry (spare s.retained.len)
    return ⟨appended.1, appended.2, s.newByID.insert delivery.ID appended.2.last⟩
  else return s

def enforceRetention (now : Time) (spare : Nat → List HistoryEntry) : Except Fault WebhookHistory :=
  if h.entries.len = 0 then .ok h
  else do
    let cutoff := now.add (toInt64 (-h.retention.RetentionDuration))
    let s ← h.listed.foldlM (h.retain cutoff spare) ⟨h.arrays, .nil, ∅⟩
    return { h with arrays := s.arrays, entries := s.retained, byID := s.newByID }

def keeps (filter : HistoryFilter) (entry : HistoryEntry) : Except Fault Bool :=
  if filter.WebhookID = none ∧ filter.Status = [] ∧ filter.EventType = "" ∧ filter.From = none ∧
      filter.To = none then .ok true
  else
    (h.deref entry).map fun delivery =>
      if filter.WebhookID.any (delivery.WebhookID ≠ ·) then false
      else if filter.Status ≠ [] ∧ ¬ filter.Status.any (delivery.Status.text = ·.text) then false
      else if filter.EventType ≠ "" ∧ delivery.EventType ≠ filter.EventType then false
      else if filter.From.any delivery.CreatedAt.before then false
      else if filter.To.any delivery.CreatedAt.after then false
      else true

def less (orderBy : String) (a b : WebhookDelivery) : Bool :=
  if orderBy = "created_at ASC" then a.CreatedAt.before b.CreatedAt
  else if orderBy = "duration_ms ASC" then a.DurationMS < b.DurationMS
  else if orderBy = "duration_ms DESC" then a.DurationMS > b.DurationMS
  else if orderBy = "status ASC" then a.Status.text < b.Status.text
  else if orderBy = "status DESC" then a.Status.text > b.Status.text
  else a.CreatedAt.after b.CreatedAt

def resolve (entry : HistoryEntry) : WebhookDelivery := (h.delivery? entry).getD default

def sortEntries (entries : List HistoryEntry) (orderBy : String) : Except Fault (List HistoryEntry) :=
  if 1 < entries.length ∧ ∃ entry ∈ entries, h.delivery? entry = none then .error nilDereference
  else .ok (stableSort (fun a b => less orderBy (h.resolve a) (h.resolve b)) entries)

def applyFilter (filter : HistoryFilter) : Except Fault (List HistoryEntry) := do
  let filtered ← h.listed.foldlM
    (fun filtered entry => (h.keeps filter entry).map fun kept =>
      if kept then filtered ++ [entry] else filtered) []
  h.sortEntries filtered filter.OrderBy

def getHistory (filter : HistoryFilter) : Except Fault PaginatedResult := do
  let filtered ← h.applyFilter filter
  let page := Paging.page filter.Page
  let perPage := Paging.perPage filter.PerPage
  let entries ← Paging.copied filtered page perPage
  return ⟨entries, filtered.length, page, perPage, Paging.totalPages filtered.length perPage⟩

def clear : WebhookHistory :=
  let (arrays, entries) := makeEntries h.arrays
  { h with arrays, entries, byID := ∅ }

end WebhookHistory

/-- A call from outside; what is recorded is a delivery that the caller has just created. -/
inductive HistoryCall
  | recordDelivery (delivery : WebhookDelivery) (webhookName webhookURL : String)
      (spare : List HistoryEntry)
  | updateDeliveryStatus (now : Time) (deliveryID : UUID) (status : DeliveryStatus) (statusCode : Int)
      (responseBody errMsg : String)
  | updateDeliveryAttempt (now : Time) (deliveryID : UUID) (attempt durationMS : Int)
  | enforceRetention (now : Time) (spare : Nat → List HistoryEntry)
  | clear

def WebhookHistory.call (h : WebhookHistory) : HistoryCall → Except Fault WebhookHistory
  | .recordDelivery delivery webhookName webhookURL spare =>
    { h with deliveries := h.deliveries ++ [delivery] }.recordDelivery (some h.deliveries.length)
      webhookName webhookURL spare
  | .updateDeliveryStatus now deliveryID status statusCode responseBody errMsg =>
    h.updateDeliveryStatus now deliveryID status statusCode responseBody errMsg
  | .updateDeliveryAttempt now deliveryID attempt durationMS =>
    h.updateDeliveryAttempt now deliveryID attempt durationMS
  | .enforceRetention now spare => h.enforceRetention now spare
  | .clear => .ok h.clear

end NexusPipe.Webhooks
