import NexusPipe.Cron
import NexusPipe.Library.Schedule
import NexusPipe.Library.Slice

namespace NexusPipe.Webhooks
open Library

inductive WebhookStatus
  | active | inactive | disabled
  | other (text : String)
  deriving DecidableEq, Repr

structure DeliveryConfig where
  TimeoutPerAttempt : Int
  MaxRetries : Int
  BaseBackoff : Int
  MaxBackoff : Int
  JitterFactor : Float64
  deriving DecidableEq

def defaultDeliveryConfig : DeliveryConfig where
  TimeoutPerAttempt := 30 * second
  MaxRetries := 3
  BaseBackoff := 1 * second
  MaxBackoff := 60 * second
  JitterFactor := .ofRat (1 / 5)

structure Webhook where
  ID : UUID
  Name : String
  URL : String
  Secret : String
  Status : WebhookStatus
  Events : Slice
  Headers : GoMap String String
  RetryConfig : DeliveryConfig
  CreatedAt : Time
  UpdatedAt : Time
  deriving DecidableEq

structure WebhookRegistration where
  Name : String
  URL : String
  Secret : String := ""
  Events : List String
  Headers : GoMap String String := ∅
  RetryConfig : Option DeliveryConfig := none

/-- A slice of events as a caller hands it over: one of an array that is new, or one of an array that
is already in use. -/
inductive EventsArg
  | own (events spare : List String)
  | shared (events : Slice)

structure WebhookUpdate where
  Name : Option String := none
  URL : Option String := none
  Secret : Option String := none
  Status : Option WebhookStatus := none
  Events : Option EventsArg := none
  Headers : Option (GoMap String String) := none
  RetryConfig : Option DeliveryConfig := none

structure EventRouter where
  webhookID : UUID
  active : Bool
  deriving DecidableEq, Repr

structure WebhookManager where
  webhooks : GoMap UUID Webhook
  eventRoutes : GoMap String (List EventRouter)
  arrays : Arrays String

def newWebhookManager : WebhookManager := ⟨∅, ∅, []⟩

def webhookNotFound (id : UUID) : Text := sprintf "webhook not found: %s" [.uuid id]

namespace WebhookManager
variable (m : WebhookManager)

def eventsOf (wh : Webhook) : List String := wh.Events.read m.arrays

def routers (eventType : String) : List EventRouter := (m.eventRoutes.lookup eventType).getD []

def indexEventRoutes (wh : Webhook) : WebhookManager :=
  let router : EventRouter := { webhookID := wh.ID, active := wh.Status = .active }
  { m with
    eventRoutes := (m.eventsOf wh).foldl
      (fun routes eventType =>
        routes.insert eventType ((routes.lookup eventType).getD [] ++ [router]))
      m.eventRoutes }

def rebuildEventRoutes (order : GoMap.RangeOrder UUID Webhook) : WebhookManager :=
  (order m.webhooks).entries.foldl (fun m x => m.indexEventRoutes x.2) { m with eventRoutes := ∅ }

def put (id : UUID) (wh : Webhook) : WebhookManager := { m with webhooks := m.webhooks.insert id wh }

def handOver : EventsArg → WebhookManager × Slice
  | .own events spare =>
    let (arrays, slice) := Slice.make m.arrays events spare
    ({ m with arrays }, slice)
  | .shared slice => (m, slice)

def registerWebhook (id : UUID) (now : Time) (reg : WebhookRegistration) :
    Except Text WebhookManager :=
  if reg.Name = "" then .error (.str "webhook name is required")
  else if reg.URL = "" then .error (.str "webhook URL is required")
  else if reg.Events = [] then .error (.str "at least one event type is required")
  else
    let (arrays, events) := Slice.make m.arrays reg.Events []
    let wh : Webhook :=
      { ID := id, Name := reg.Name, URL := reg.URL, Secret := reg.Secret, Status := .active,
        Events := events, Headers := reg.Headers,
        RetryConfig := reg.RetryConfig.getD defaultDeliveryConfig, CreatedAt := now, UpdatedAt := now }
    .ok (({ m with arrays }.put id wh).indexEventRoutes wh)

def updateWebhook (order : GoMap.RangeOrder UUID Webhook) (now : Time) (id : UUID)
    (update : WebhookUpdate) : Except Text WebhookManager :=
  match m.webhooks.lookup id with
  | none => .error (webhookNotFound id)
  | some wh =>
    let wh := { wh with
      Name := update.Name.getD wh.Name
      URL := update.URL.getD wh.URL
      Secret := update.Secret.getD wh.Secret
      Status := update.Status.getD wh.Status }
    let (m, wh) :=
      match update.Events with
      | none => (m, wh)
      | some events =>
        let (m, slice) := m.handOver events
        let wh := { wh with Events := slice }
        ((m.put id wh).rebuildEventRoutes order, wh)
    .ok (m.put id { wh with
      Headers := update.Headers.getD wh.Headers
      RetryConfig := update.RetryConfig.getD wh.RetryConfig
      UpdatedAt := now })

def deleteWebhook (order : GoMap.RangeOrder UUID Webhook) (id : UUID) : Except Text WebhookManager :=
  match m.webhooks.lookup id with
  | none => .error (webhookNotFound id)
  | some _ => .ok ({ m with webhooks := m.webhooks.erase id }.rebuildEventRoutes order)

def setWebhookStatus (now : Time) (id : UUID) (status : WebhookStatus) : Except Text WebhookManager :=
  match m.webhooks.lookup id with
  | none => .error (webhookNotFound id)
  | some wh => .ok (m.put id { wh with Status := status, UpdatedAt := now })

def activateWebhook (now : Time) (id : UUID) : Except Text WebhookManager :=
  m.setWebhookStatus now id .active

def deactivateWebhook (now : Time) (id : UUID) : Except Text WebhookManager :=
  m.setWebhookStatus now id .inactive

def getWebhooksForEvent (eventType : String) : List Webhook :=
  (m.routers eventType).filterMap fun router =>
    if router.active then (m.webhooks.lookup router.webhookID).filter (·.Status = .active) else none

def subscribeToEvents (order : GoMap.RangeOrder UUID Webhook) (id : UUID) (events : EventsArg) :
    Except Text WebhookManager :=
  match m.webhooks.lookup id with
  | none => .error (webhookNotFound id)
  | some wh =>
    let (m, slice) := m.handOver events
    .ok ((m.put id { wh with Events := slice }).rebuildEventRoutes order)

def addEventSubscription (order : GoMap.RangeOrder UUID Webhook) (spare : List String) (id : UUID)
    (eventType : String) : Except Text WebhookManager :=
  match m.webhooks.lookup id with
  | none => .error (webhookNotFound id)
  | some wh =>
    if eventType ∈ m.eventsOf wh then .ok m
    else
      let (arrays, slice) := wh.Events.append m.arrays eventType spare
      .ok (({ m with arrays }.put id { wh with Events := slice }).rebuildEventRoutes order)

def removeEventSubscription (order : GoMap.RangeOrder UUID Webhook) (id : UUID) (eventType : String) :
    Except Text WebhookManager :=
  match m.webhooks.lookup id with
  | none => .error (webhookNotFound id)
  | some wh =>
    let filtered := (m.eventsOf wh).filter (· ≠ eventType)
    let spare := List.replicate ((m.eventsOf wh).length - filtered.length) ""
    let (arrays, slice) := Slice.make m.arrays filtered spare
    .ok (({ m with arrays }.put id { wh with Events := slice }).rebuildEventRoutes order)

end WebhookManager

inductive ManagerCall
  | registerWebhook (id : UUID) (now : Time) (reg : WebhookRegistration)
  | updateWebhook (order : GoMap.RangeOrder UUID Webhook) (now : Time) (id : UUID)
      (update : WebhookUpdate)
  | deleteWebhook (order : GoMap.RangeOrder UUID Webhook) (id : UUID)
  | activateWebhook (now : Time) (id : UUID)
  | deactivateWebhook (now : Time) (id : UUID)
  | subscribeToEvents (order : GoMap.RangeOrder UUID Webhook) (id : UUID) (events : EventsArg)
  | addEventSubscription (order : GoMap.RangeOrder UUID Webhook) (spare : List String) (id : UUID)
      (eventType : String)
  | removeEventSubscription (order : GoMap.RangeOrder UUID Webhook) (id : UUID) (eventType : String)

namespace WebhookManager
variable (m : WebhookManager)

def call : ManagerCall → Except Text WebhookManager
  | .registerWebhook id now reg => m.registerWebhook id now reg
  | .updateWebhook order now id update => m.updateWebhook order now id update
  | .deleteWebhook order id => m.deleteWebhook order id
  | .activateWebhook now id => m.activateWebhook now id
  | .deactivateWebhook now id => m.deactivateWebhook now id
  | .subscribeToEvents order id events => m.subscribeToEvents order id events
  | .addEventSubscription order spare id eventType => m.addEventSubscription order spare id eventType
  | .removeEventSubscription order id eventType => m.removeEventSubscription order id eventType

def arg (events : EventsArg) : Bool :=
  match events with
  | .own _ _ => true
  | .shared slice => slice.Valid m.arrays

/-- A call that can be made: `uuid.New` does not repeat an ID, and slices lie within their arrays. -/
def possible : ManagerCall → Bool
  | .registerWebhook id _ _ => (m.webhooks.lookup id).isNone
  | .updateWebhook _ _ _ update => update.Events.all m.arg
  | .subscribeToEvents _ _ events => m.arg events
  | _ => true

def step (c : ManagerCall) : Option WebhookManager :=
  if m.possible c then some ((m.call c).toOption.getD m) else none

end WebhookManager
end NexusPipe.Webhooks
