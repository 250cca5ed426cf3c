import NexusPipe.Library.Except
import NexusPipe.Library.Schedule
import NexusPipe.Pipeline.Events

namespace NexusPipe.Proof.Pipeline
open NexusPipe.Pipeline Library EventBus List

variable {H : Type}

theorem callHandlers_eq (behaviour : H → Event → Except String Unit) (event : Event)
    (handlers : List H) : callHandlers behaviour event handlers = .ok handlers := by
  induction handlers with
  | nil => rfl
  | cons handler handlers ih =>
    have recovered : recovering (behaviour handler event) = .ok () := by
      unfold recovering
      split <;> rfl
    rw [callHandlers, recovered, ih]
    rfl

theorem publish_eq (b : EventBus H) (behaviour : H → Event → Except String Unit) (event : Event) :
    b.publish behaviour event = .ok (b.handlers.get event.EventType) := by
  rw [publish, dispatch, GoMap.get]
  cases b.handlers.lookup event.EventType with
  | none => rfl
  | some handlers => exact callHandlers_eq behaviour event handlers

section
variable (b : EventBus H) (t : EventType)

theorem get_subscribe (eventType : EventType) (handler : H) :
    (b.subscribe eventType handler).handlers.get t =
      if t = eventType then b.handlers.get t ++ [handler] else b.handlers.get t := by
  rw [subscribe, GoMap.get_insert, Function.update_apply]
  split_ifs with same
  · rw [same]
  · rfl

theorem unsubscribe_eq (eventType : EventType) (handler : H) :
    b.unsubscribe eventType handler = b := by
  have absent : ((range (b.handlers.get eventType).length).find? fun i =>
      HandlerVariable.h i = .handler) = none := by
    simp
  rw [unsubscribe, absent]

theorem get_subscribeMany (handler : H) (types : List EventType) :
    (b.subscribeMany handler types).handlers.get t =
      b.handlers.get t ++ replicate (types.count t) handler := by
  rw [subscribeMany]
  induction types generalizing b with
  | nil => simp
  | cons first types ih =>
    rw [foldl_cons, ih, get_subscribe, count_cons]
    by_cases same : t = first
    · simp [same, replicate_succ]
    · simp [same, Ne.symm same]

theorem get_subscribeAll (order : GoMap.RangeOrder EventType (List H)) (handler : H) :
    (b.subscribeAll order handler).handlers.get t =
      if t ∈ b.handlers then b.handlers.get t ++ [handler] else b.handlers.get t := by
  have many : b.subscribeAll order handler =
      b.subscribeMany handler ((order b.handlers).entries.map Sigma.fst) := by
    rw [subscribeAll, subscribeMany, foldl_map]
  rw [many, get_subscribeMany, (order b.handlers).nodup_keys.count]
  simp only [(order b.handlers).mem_keys]
  split_ifs <;> simp

theorem get_clearHandlersForType (eventType : EventType) :
    (b.clearHandlersForType eventType).handlers.get t =
      if t = eventType then [] else b.handlers.get t := by
  rw [clearHandlersForType, GoMap.get, GoMap.lookup_erase_eq]
  split_ifs <;> rfl

end

def busAfter (order : GoMap.RangeOrder EventType (List H)) (calls : List (BusCall H)) :
    EventBus H :=
  calls.foldl (EventBus.apply order) (newEventBus H)

theorem busAfter_concat (order : GoMap.RangeOrder EventType (List H)) (calls : List (BusCall H))
    (call : BusCall H) :
    busAfter order (calls ++ [call]) = (busAfter order calls).apply order call := by
  simp [busAfter]

variable [DecidableEq H]

def coverStep (t : EventType) (handlers : List H) : BusCall H → List H
  | .subscribe eventType handler => if t = eventType then handlers ++ [handler] else handlers
  | .unsubscribe eventType handler => if t = eventType then handlers.erase handler else handlers
  | .subscribeAll handler => handlers ++ [handler]
  | .subscribeMany handler types => handlers ++ List.replicate (types.count t) handler
  | .clearHandlers => []
  | .clearHandlersForType eventType => if t = eventType then [] else handlers

def covering (t : EventType) (calls : List (BusCall H)) : List H := calls.foldl (coverStep t) []

/-- The call does on the type what it should: a catch-all subscription finds an entry of the type,
and a cancellation has nothing to remove. -/
def Honoured (t : EventType) (b : EventBus H) : BusCall H → Prop
  | .subscribeAll _ => t ∈ b.handlers
  | .unsubscribe eventType handler => t = eventType → handler ∉ b.handlers.get t
  | _ => True

theorem get_apply_eq_iff (order : GoMap.RangeOrder EventType (List H)) (t : EventType)
    (b : EventBus H) (call : BusCall H) :
    (b.apply order call).handlers.get t = coverStep t (b.handlers.get t) call ↔
      Honoured t b call := by
  cases call with
  | subscribe eventType handler =>
    simp only [apply, coverStep, Honoured, get_subscribe]
  | unsubscribe eventType handler =>
    simp only [apply, coverStep, Honoured, unsubscribe_eq]
    by_cases same : t = eventType
    · simp only [same, if_true, forall_const]
      rw [eq_comm, erase_eq_self_iff]
    · simp [same]
  | subscribeAll handler =>
    simp only [apply, coverStep, Honoured, get_subscribeAll]
    split_ifs with known <;> simp [known]
  | subscribeMany handler types =>
    simp only [apply, coverStep, Honoured, get_subscribeMany]
  | clearHandlers => exact ⟨fun _ => trivial, fun _ => rfl⟩
  | clearHandlersForType eventType =>
    simp only [apply, coverStep, Honoured, get_clearHandlersForType]

theorem covering_concat (t : EventType) (calls : List (BusCall H)) (call : BusCall H) :
    covering t (calls ++ [call]) = coverStep t (covering t calls) call := by
  simp [covering]

theorem publish_covering_iff (order : GoMap.RangeOrder EventType (List H))
    (behaviour : H → Event → Except String Unit) (t : EventType) (calls : List (BusCall H)) :
    (∀ before, before <+: calls → ∀ event : Event, event.EventType = t →
        (busAfter order before).publish behaviour event = .ok (covering t before)) ↔
      ∀ before call, before ++ [call] <+: calls → Honoured t (busAfter order before) call := by
  have published (before : List (BusCall H)) :
      (∀ event : Event, event.EventType = t →
        (busAfter order before).publish behaviour event = .ok (covering t before)) ↔
      (busAfter order before).handlers.get t = covering t before := by
    constructor
    · intro invoked
      have result := invoked ⟨t, 0, 0, "", .str ""⟩ rfl
      rwa [publish_eq, Except.ok.injEq] at result
    · rintro kept event rfl
      rw [publish_eq, kept]
  simp only [published]
  refine forall_prefix_iff ?_ ?_ calls
  · intro before call kept
    rw [busAfter_concat, covering_concat, ← kept]
    exact get_apply_eq_iff order t _ call
  · rfl

def startedEvent : Event := { EventType := .pipelineStarted, PipelineID := 1, RunID := 1 }

def quietHandler (_ : String) (_ : Event) : Except String Unit := .ok ()

theorem publish_not_covering :
    (busAfter GoMap.anyOrder [.subscribeAll "audit"]).publish quietHandler startedEvent = .ok [] ∧
      covering .pipelineStarted [.subscribeAll "audit"] = ["audit"] ∧
      (busAfter GoMap.anyOrder [.subscribe .pipelineStarted "audit",
        .unsubscribe .pipelineStarted "audit"]).publish quietHandler startedEvent = .ok ["audit"] ∧
      covering .pipelineStarted [.subscribe .pipelineStarted "audit",
        .unsubscribe .pipelineStarted "audit"] = [] := by
  have missed : (busAfter GoMap.anyOrder [.subscribeAll "audit"]).handlers.get .pipelineStarted
      = [] := by
    simp only [busAfter, foldl_cons, foldl_nil, apply, get_subscribeAll]
    exact if_neg Finmap.notMem_empty
  have stays : (busAfter GoMap.anyOrder [.subscribe .pipelineStarted "audit",
      .unsubscribe .pipelineStarted "audit"]).handlers.get .pipelineStarted = ["audit"] := by
    simp only [busAfter, foldl_cons, foldl_nil, apply, unsubscribe_eq]
    rfl
  exact ⟨by rw [publish_eq, startedEvent, missed], rfl, by rw [publish_eq, startedEvent, stays], rfl⟩

end NexusPipe.Proof.Pipeline
