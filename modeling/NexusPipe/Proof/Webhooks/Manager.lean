import NexusPipe.Webhooks.Manager

namespace NexusPipe.Proof.Webhooks
open Library NexusPipe.Webhooks WebhookManager List Option

/-! ## Exact routes -/

/-- The webhooks that are sent an event are the active ones registered for it, each of them once. -/
def RoutesExact (m : WebhookManager) : Prop :=
  ∀ e, (m.getWebhooksForEvent e).Nodup ∧ ∀ wh, wh ∈ m.getWebhooksForEvent e ↔
    m.webhooks.lookup wh.ID = some wh ∧ wh.Status = .active ∧ e ∈ m.eventsOf wh

def Distinct (m : WebhookManager) : Prop :=
  ∀ id wh, m.webhooks.lookup id = some wh → wh.Status = .active → (m.eventsOf wh).Nodup

def RoutesActive (m : WebhookManager) (id : UUID) : Prop :=
  ∀ e, ∀ router ∈ m.routers e, router.webhookID = id → router.active

def activates : ManagerCall → Option UUID
  | .activateWebhook _ id => some id
  | .updateWebhook _ _ id update =>
    if update.Events.isNone ∧ update.Status = some .active then some id else none
  | _ => none

/-- No active webhook is left with an event twice, and none is activated whose routes were built while
it was not active. -/
def Careful (m : WebhookManager) (c : ManagerCall) : Prop :=
  (∀ m', m.step c = some m' → Distinct m') ∧ ∀ id ∈ activates c, RoutesActive m id

def subscriptions (m : WebhookManager) (id : UUID) (e : String) : Nat :=
  ((m.webhooks.lookup id).map fun wh => (m.eventsOf wh).count e).getD 0

structure Registered (m : WebhookManager) : Prop where
  ids : ∀ id wh, m.webhooks.lookup id = some wh → wh.ID = id
  valid : ∀ id wh, m.webhooks.lookup id = some wh → wh.Events.Valid m.arrays

structure Indexed (m : WebhookManager) : Prop extends Registered m where
  counted : ∀ e id, (m.routers e).countP (·.webhookID = id) = subscriptions m id e
  -- routes to one webhook for one event are built together
  uniform : ∀ e, ∀ r ∈ m.routers e, ∀ r' ∈ m.routers e, r.webhookID = r'.webhookID →
    r.active = r'.active

section
variable {m : WebhookManager} {id : UUID} {wh : Webhook}

theorem routed_iff {router : EventRouter} :
    (if router.active then (m.webhooks.lookup router.webhookID).filter (·.Status = .active) else none) =
      some wh ↔
      router.active ∧ m.webhooks.lookup router.webhookID = some wh ∧ wh.Status = .active := by
  cases router.active <;> simp [filter_eq_some_iff]

theorem mem_getWebhooksForEvent :
    wh ∈ m.getWebhooksForEvent e ↔ ∃ router ∈ m.routers e, router.active ∧
      m.webhooks.lookup router.webhookID = some wh ∧ wh.Status = .active := by
  simp only [getWebhooksForEvent, mem_filterMap, routed_iff]

variable (indexed : Indexed m)
include indexed

section
variable (found : m.webhooks.lookup id = some wh)
include found

theorem count_getWebhooksForEvent (active : wh.Status = .active) :
    (m.getWebhooksForEvent e).count wh =
      (m.routers e).countP fun router => router.webhookID = id ∧ router.active := by
  have equal {o : Option Webhook} : (o.map (· == wh)).getD false = true ↔ o = some wh := by
    cases o <;> simp
  rw [getWebhooksForEvent, count, countP_filterMap]
  refine countP_congr fun router _ => ?_
  rw [equal, routed_iff, decide_eq_true_eq]
  constructor
  · rintro ⟨marked, found', -⟩
    exact ⟨(indexed.ids _ wh found').symm.trans (indexed.ids id wh found), marked⟩
  · rintro ⟨rfl, marked⟩
    exact ⟨marked, found, active⟩

theorem count_eventsOf : (m.routers e).countP (·.webhookID = id) = (m.eventsOf wh).count e := by
  rw [indexed.counted, subscriptions, found, map_some, getD_some]

theorem exists_router_iff : (∃ router ∈ m.routers e, router.webhookID = id) ↔ e ∈ m.eventsOf wh := by
  rw [← count_pos_iff, ← count_eventsOf indexed found, countP_pos_iff]
  simp

theorem routesActive_of_exact (exact : RoutesExact m) (active : wh.Status = .active) :
    RoutesActive m id := by
  intro e router member same
  have subscribed : e ∈ m.eventsOf wh := (exists_router_iff indexed found).mp ⟨router, member, same⟩
  have registered : m.webhooks.lookup wh.ID = some wh := by rw [indexed.ids id wh found, found]
  obtain ⟨other, member', marked, found', -⟩ :=
    mem_getWebhooksForEvent.mp (((exact e).2 wh).mpr ⟨registered, active, subscribed⟩)
  have same' : router.webhookID = other.webhookID := by
    rw [same, ← indexed.ids id wh found, indexed.ids _ wh found']
  rw [indexed.uniform e router member other member' same', marked]

end

theorem routesExact_iff : RoutesExact m ↔ Distinct m ∧
      ∀ id wh, m.webhooks.lookup id = some wh → wh.Status = .active → RoutesActive m id := by
  constructor
  · intro exact
    refine ⟨fun id wh found active => ?_, fun id wh found => routesActive_of_exact indexed found exact⟩
    rw [nodup_iff_count_le_one]
    intro e
    have marked := routesActive_of_exact indexed found exact active
    have once := nodup_iff_count_le_one.mp (exact e).1 wh
    rw [count_getWebhooksForEvent indexed found active] at once
    rw [← count_eventsOf indexed found]
    refine le_trans (countP_mono_left fun router member same => ?_) once
    simp only [decide_eq_true_eq] at same ⊢
    exact ⟨same, marked e router member same⟩
  · rintro ⟨distinct, marked⟩ e
    have registered : ∀ wh ∈ m.getWebhooksForEvent e,
        m.webhooks.lookup wh.ID = some wh ∧ wh.Status = .active ∧ e ∈ m.eventsOf wh := by
      intro wh member
      obtain ⟨router, member, -, found, active⟩ := mem_getWebhooksForEvent.mp member
      exact ⟨by rw [indexed.ids _ wh found, found], active,
        (exists_router_iff indexed found).mp ⟨router, member, rfl⟩⟩
    refine ⟨?_, fun wh => ⟨registered wh, ?_⟩⟩
    · rw [nodup_iff_count_le_one]
      intro wh
      by_cases member : wh ∈ m.getWebhooksForEvent e
      · obtain ⟨found, active, -⟩ := registered wh member
        rw [count_getWebhooksForEvent indexed found active]
        have once := nodup_iff_count_le_one.mp (distinct _ wh found active) e
        rw [← count_eventsOf indexed found] at once
        refine le_trans (countP_mono_left fun router _ both => ?_) once
        simp only [decide_eq_true_eq] at both ⊢
        exact both.1
      · rw [count_eq_zero.mpr member]
        exact Nat.zero_le 1
    · rintro ⟨found, active, subscribed⟩
      obtain ⟨router, member, same⟩ := (exists_router_iff indexed found).mpr subscribed
      exact mem_getWebhooksForEvent.mpr
        ⟨router, member, marked _ wh found active e router member same, by rw [same, found], active⟩

end

/-! ## Building the routes -/

section
variable {m : WebhookManager} {e : String}

theorem lookup_foldl_route (router : EventRouter) (events : List String)
    (routes : GoMap String (List EventRouter)) : ((events.foldl (fun routes eventType =>
        routes.insert eventType ((routes.lookup eventType).getD [] ++ [router])) routes).lookup e).getD [] =
      (routes.lookup e).getD [] ++ replicate (events.count e) router := by
  induction events generalizing routes with
  | nil => simp
  | cons event events ih =>
    rw [foldl_cons, ih, GoMap.lookup_insert_eq, count_cons]
    by_cases same : e = event
    · subst same
      simp [replicate_succ]
    · simp [same, Ne.symm same]

def routerOf (wh : Webhook) : EventRouter := { webhookID := wh.ID, active := wh.Status = .active }

theorem routers_indexEventRoutes (wh : Webhook) : (m.indexEventRoutes wh).routers e =
      m.routers e ++ replicate ((m.eventsOf wh).count e) (routerOf wh) :=
  lookup_foldl_route _ _ _

theorem foldl_indexEventRoutes (entries : List ((_ : UUID) × Webhook)) :
    let m' := entries.foldl (fun m x => m.indexEventRoutes x.2) m
    m'.webhooks = m.webhooks ∧ m'.arrays = m.arrays ∧ ∀ e, m'.routers e = m.routers e ++
      entries.flatMap fun x => replicate ((m.eventsOf x.2).count e) (routerOf x.2) := by
  -- what the loop of `rebuildEventRoutes` has done
  induction entries generalizing m with
  | nil => simp
  | cons x entries ih =>
    obtain ⟨webhooks, arrays, routers⟩ := ih (m := m.indexEventRoutes x.2)
    refine ⟨webhooks, arrays, fun e => ?_⟩
    rw [foldl_cons, routers, routers_indexEventRoutes, flatMap_cons, append_assoc]
    rfl

theorem countP_flatMap_routers {entries : List ((_ : UUID) × Webhook)}
    (nodup : (entries.map Sigma.fst).Nodup) (ids : ∀ x ∈ entries, x.2.ID = x.1) (id : UUID) :
    (entries.flatMap fun x =>
        replicate ((m.eventsOf x.2).count e) (routerOf x.2)).countP (·.webhookID = id) =
      ((entries.dlookup id).map fun wh => (m.eventsOf wh).count e).getD 0 := by
  induction entries with
  | nil => rfl
  | cons x entries ih =>
    rw [map_cons, nodup_cons] at nodup
    have rest := ih nodup.2 fun y member => ids y (mem_cons_of_mem x member)
    rw [flatMap_cons, countP_append, rest, countP_replicate]
    have key : (routerOf x.2).webhookID = x.1 := ids x mem_cons_self
    by_cases same : id = x.1
    · subst same
      rw [dlookup_eq_none.mpr nodup.1, dlookup_cons_eq]
      simp [key]
    · rw [dlookup_cons_ne _ _ same]
      simp [key, Ne.symm same]

section
variable (m) (order : GoMap.RangeOrder UUID Webhook)

@[simp]
theorem webhooks_rebuildEventRoutes : (m.rebuildEventRoutes order).webhooks = m.webhooks :=
  (foldl_indexEventRoutes (m := { m with eventRoutes := ∅ }) _).1

@[simp]
theorem arrays_rebuildEventRoutes : (m.rebuildEventRoutes order).arrays = m.arrays :=
  (foldl_indexEventRoutes (m := { m with eventRoutes := ∅ }) _).2.1

theorem routers_rebuildEventRoutes :
    (m.rebuildEventRoutes order).routers e = (order m.webhooks).entries.flatMap fun x =>
      replicate ((m.eventsOf x.2).count e) (routerOf x.2) :=
  (foldl_indexEventRoutes (m := { m with eventRoutes := ∅ }) _).2.2 e

end

structure Fresh (m : WebhookManager) : Prop where
  counted : ∀ e id, (m.routers e).countP (·.webhookID = id) = subscriptions m id e
  marked : ∀ e, ∀ router ∈ m.routers e, ∃ wh, m.webhooks.lookup router.webhookID = some wh ∧
    router.active = decide (wh.Status = .active)

theorem fresh_rebuild (registered : Registered m) (order : GoMap.RangeOrder UUID Webhook) :
    Fresh (m.rebuildEventRoutes order) := by
  have named : ∀ x ∈ (order m.webhooks).entries, x.2.ID = x.1 := fun x member =>
    registered.ids x.1 x.2 ((order m.webhooks).mem_entries.mp member)
  refine ⟨fun e id => ?_, fun e router member => ?_⟩
  · rw [routers_rebuildEventRoutes, countP_flatMap_routers (order m.webhooks).nodup_keys named,
      (order m.webhooks).dlookup_entries]
    simp only [subscriptions, webhooks_rebuildEventRoutes, eventsOf, arrays_rebuildEventRoutes]
  · rw [routers_rebuildEventRoutes, mem_flatMap] at member
    obtain ⟨x, member, routed⟩ := member
    obtain rfl := eq_of_mem_replicate routed
    refine ⟨x.2, ?_, rfl⟩
    rw [webhooks_rebuildEventRoutes, routerOf, named x member]
    exact (order m.webhooks).mem_entries.mp member

theorem Fresh.routesActive (fresh : Fresh m) {id : UUID} (found : m.webhooks.lookup id = some wh)
    (active : wh.Status = .active) : RoutesActive m id := by
  rintro e router member rfl
  obtain ⟨wh', found', marked⟩ := fresh.marked e router member
  obtain rfl := mem_unique found' found
  simpa [active] using marked

theorem Fresh.indexed (fresh : Fresh m) (registered : Registered m) : Indexed m := by
  refine ⟨registered, fresh.counted, fun e r member r' member' same => ?_⟩
  obtain ⟨wh, found, marked⟩ := fresh.marked e r member
  obtain ⟨wh', found', marked'⟩ := fresh.marked e r' member'
  rw [same, found', some.injEq] at found
  rw [marked, marked', found]

theorem subscriptions_put {id : UUID} {wh' : Webhook} (found : m.webhooks.lookup id = some wh)
    (events : wh'.Events = wh.Events) (other : UUID) :
    subscriptions (m.put id wh') other e = subscriptions m other e := by
  rw [subscriptions, subscriptions, put, GoMap.lookup_insert_eq]
  split_ifs with same
  · rw [same, found, map_some, map_some, eventsOf, eventsOf, events]
  · rfl

theorem Fresh.put {id : UUID} {wh' : Webhook} (fresh : Fresh m)
    (found : m.webhooks.lookup id = some wh) (events : wh'.Events = wh.Events)
    (status : wh'.Status = wh.Status) : Fresh (m.put id wh') := by
  -- the fields that the routes depend on are written before they are built
  refine ⟨fun e other => ?_, fun e router member => ?_⟩
  · rw [subscriptions_put found events]
    exact fresh.counted e other
  · obtain ⟨wh₁, found₁, marked⟩ := fresh.marked e router member
    simp only [WebhookManager.put, GoMap.lookup_insert_eq]
    split_ifs with same
    · rw [same, found, some.injEq] at found₁
      exact ⟨wh', rfl, by rw [marked, status, found₁]⟩
    · exact ⟨wh₁, found₁, marked⟩

end

/-! ## Registered webhooks -/

section
variable {id : UUID} {wh : Webhook}

section
variable (registered : Registered m)
include registered

theorem Registered.put (named : wh.ID = id) (valid : wh.Events.Valid m.arrays) :
    Registered (m.put id wh) := by
  refine ⟨fun other wh' found => ?_, fun other wh' found => ?_⟩ <;>
    simp only [WebhookManager.put, GoMap.lookup_insert_eq] at found <;> split_ifs at found with same
  · cases found
    rw [named, same]
  · exact registered.ids other wh' found
  · cases found
    exact valid
  · exact registered.valid other wh' found

theorem Registered.arrays {arrays : Arrays String}
    (kept : ∀ s : Slice, s.Valid m.arrays → s.Valid arrays) : Registered { m with arrays } :=
  ⟨registered.ids, fun id wh found => kept wh.Events (registered.valid id wh found)⟩

theorem Registered.erase : Registered { m with webhooks := m.webhooks.erase id } := by
  have kept : ∀ other wh, (m.webhooks.erase id).lookup other = some wh →
      m.webhooks.lookup other = some wh := by
    intro other wh found
    rw [GoMap.lookup_erase_eq] at found
    split_ifs at found
    exact found
  exact ⟨fun other wh found => registered.ids other wh (kept other wh found),
    fun other wh found => registered.valid other wh (kept other wh found)⟩

theorem Registered.rebuild (order : GoMap.RangeOrder UUID Webhook) :
    Registered (m.rebuildEventRoutes order) := by
  refine ⟨?_, ?_⟩
  · simpa using registered.ids
  · simpa using registered.valid

theorem Registered.handOver {events : EventsArg} (possible : m.arg events) :
    Registered (m.handOver events).1 ∧ (m.handOver events).2.Valid (m.handOver events).1.arrays := by
  cases events with
  | own events spare =>
    exact ⟨registered.arrays fun s valid => Slice.valid_make valid events spare,
      Slice.valid_made m.arrays events spare⟩
  | shared slice => exact ⟨registered, of_decide_eq_true possible⟩

theorem put_rebuild (wh : Webhook) (named : wh.ID = id) (valid : wh.Events.Valid m.arrays)
    (order : GoMap.RangeOrder UUID Webhook) : let m' := (m.put id wh).rebuildEventRoutes order
    Fresh m' ∧ Registered m' ∧ m'.webhooks.lookup id = some wh ∧ m'.arrays = m.arrays := by
  have written := registered.put named valid
  exact ⟨fresh_rebuild written order, written.rebuild order, by simp [put],
    by simp [put]⟩

end

end

/-! ## What a call does -/

def registering (m : WebhookManager) (events : List String) (id : UUID) (wh : Webhook) :
    WebhookManager :=
  ({ m with arrays := (Slice.make m.arrays events []).1 }.put id wh).indexEventRoutes wh

inductive Effect (m : WebhookManager) (c : ManagerCall) : WebhookManager → Prop
  | unchanged (absent : ∀ id ∈ activates c, m.webhooks.lookup id = none) : Effect m c m
  | registered {id : UUID} (events : List String)
      (quiet : activates c = none) (new : m.webhooks.lookup id = none) (named : wh.ID = id)
      (active : wh.Status = .active) (made : wh.Events = (Slice.make m.arrays events []).2)
      (indexed : m' = registering m events id wh) : Effect m c m'
  | rebuilt (quiet : activates c = none) (fresh : Fresh m')
      (registered : Registered m') : Effect m c m'
  | touched {id : UUID} {wh wh' : Webhook} (found : m.webhooks.lookup id = some wh)
      (named : wh'.ID = wh.ID) (events : wh'.Events = wh.Events)
      (status : activates c = some id ∧ wh'.Status = .active ∨
        activates c = none ∧ (wh'.Status = wh.Status ∨ wh'.Status ≠ .active)) :
      Effect m c (m.put id wh')

section
variable {m : WebhookManager}

section
variable {id : UUID} (registered : Registered m)
include registered

theorem updateWebhook_effect {update : WebhookUpdate} (possible : update.Events.all m.arg)
    (ended : m.updateWebhook order now id update = .ok m') :
    Effect m (.updateWebhook order now id update) m' := by
  unfold updateWebhook at ended
  cases found : m.webhooks.lookup id with
  | none => simp [found] at ended
  | some wh =>
    have named := registered.ids id wh found
    simp only [found] at ended
    cases given : update.Events with
    | none =>
      simp only [given] at ended
      cases ended
      refine .touched found rfl rfl ?_
      simp only [activates, given]
      cases update.Status with
      | none => simp
      | some status => by_cases active : status = .active <;> simp [active]
    | some events =>
      rw [given, all_some] at possible
      obtain ⟨registered', valid⟩ := registered.handOver possible
      simp only [given] at ended
      cases ended
      obtain ⟨fresh, written, found', arrays⟩ := put_rebuild registered'
        { wh with
          Name := update.Name.getD wh.Name, URL := update.URL.getD wh.URL
          Secret := update.Secret.getD wh.Secret, Status := update.Status.getD wh.Status
          Events := (m.handOver events).2 } named valid order
      refine .rebuilt (by simp [activates, given]) ?_ ?_
      · exact fresh.put found' rfl rfl
      · exact written.put named (arrays ▸ valid)

theorem deleteWebhook_effect (ended : m.deleteWebhook order id = .ok m') :
    Effect m (.deleteWebhook order id) m' := by
  unfold deleteWebhook at ended
  split at ended
  · cases ended
  · next wh found =>
    cases ended
    have erased : Registered { m with webhooks := m.webhooks.erase id } := registered.erase
    exact .rebuilt rfl (fresh_rebuild erased order) (erased.rebuild order)

theorem handOver_effect (found : m.webhooks.lookup id = some wh) (possible : m.arg events)
    (quiet : activates c = none) :
    Effect m c (((m.handOver events).1.put id
      { wh with Events := (m.handOver events).2 }).rebuildEventRoutes order) := by
  obtain ⟨registered', valid⟩ := registered.handOver possible
  obtain ⟨fresh, written, -⟩ := put_rebuild registered' { wh with Events := (m.handOver events).2 }
    (registered.ids id wh found) valid order
  exact .rebuilt quiet fresh written

theorem subscribeToEvents_effect (possible : m.arg events)
    (ended : m.subscribeToEvents order id events = .ok m') :
    Effect m (.subscribeToEvents order id events) m' := by
  unfold subscribeToEvents at ended
  split at ended
  · cases ended
  · next wh found =>
    cases ended
    exact handOver_effect registered found possible rfl

theorem addEventSubscription_effect {spare : List String}
    (ended : m.addEventSubscription order spare id eventType = .ok m') :
    Effect m (.addEventSubscription order spare id eventType) m' := by
  unfold addEventSubscription at ended
  cases found : m.webhooks.lookup id with
  | none => simp [found] at ended
  | some wh =>
    simp only [found] at ended
    split_ifs at ended <;> cases ended
    · exact .unchanged (by simp [activates])
    · have valid := registered.valid id wh found
      have kept := registered.arrays fun s other => Slice.valid_append other wh.Events eventType spare
      obtain ⟨fresh, written, -⟩ := put_rebuild kept
        { wh with Events := (wh.Events.append m.arrays eventType spare).2 }
        (registered.ids id wh found) (Slice.valid_appended valid eventType spare) order
      exact .rebuilt rfl fresh written

theorem removeEventSubscription_effect
    (ended : m.removeEventSubscription order id eventType = .ok m') :
    Effect m (.removeEventSubscription order id eventType) m' := by
  unfold removeEventSubscription at ended
  split at ended
  · cases ended
  · next wh found =>
    cases ended
    -- the filtered events are handed over like those of a caller
    have owned : ∀ events spare, m.arg (.own events spare) := fun _ _ => rfl
    exact handOver_effect registered found (owned _ _) rfl

end

variable {id : UUID}

theorem setWebhookStatus_effect (kind : activates c = if status = .active then some id else none)
    (ended : m.setWebhookStatus now id status = .ok m') : Effect m c m' := by
  unfold setWebhookStatus at ended
  split at ended
  · cases ended
  · next wh found =>
    cases ended
    refine .touched found rfl rfl ?_
    split_ifs at kind with active
    · exact .inl ⟨kind, active⟩
    · exact .inr ⟨kind, .inr active⟩

theorem registerWebhook_effect (new : m.webhooks.lookup id = none)
    (ended : m.registerWebhook id now reg = .ok m') :
    Effect m (.registerWebhook id now reg) m' := by
  unfold registerWebhook at ended
  split_ifs at ended
  cases ended
  refine .registered reg.Events ?_ new ?_ ?_ ?_ rfl
  all_goals rfl

theorem absent_of_error (failed : m.call c = .error err) :
    ∀ id ∈ activates c, m.webhooks.lookup id = none := by
  intro id member
  cases c with
  | activateWebhook now other =>
    obtain rfl : other = id := some.inj member
    simp only [call, activateWebhook, setWebhookStatus] at failed
    cases found : m.webhooks.lookup other with
    | none => rfl
    | some wh => simp [found] at failed
  | updateWebhook order now other update =>
    simp only [activates, mem_def] at member
    split_ifs at member
    obtain rfl : other = id := some.inj member
    simp only [call, updateWebhook] at failed
    cases found : m.webhooks.lookup other with
    | none => rfl
    | some wh => simp [found] at failed
  | _ => simp [activates] at member

theorem step_effect (registered : Registered m) (stepped : m.step c = some m') : Effect m c m' := by
  unfold step at stepped
  split_ifs at stepped with possible
  cases ended : m.call c with
  | error err =>
    simp only [ended, Except.toOption, getD_none] at stepped
    cases stepped
    exact .unchanged (absent_of_error ended)
  | ok after =>
    simp only [ended, Except.toOption, getD_some] at stepped
    cases stepped
    cases c with
    | registerWebhook => exact registerWebhook_effect (isNone_iff_eq_none.mp possible) ended
    | updateWebhook => exact updateWebhook_effect registered possible ended
    | deleteWebhook => exact deleteWebhook_effect registered ended
    | activateWebhook | deactivateWebhook => exact setWebhookStatus_effect rfl ended
    | subscribeToEvents => exact subscribeToEvents_effect registered possible ended
    | addEventSubscription => exact addEventSubscription_effect registered ended
    | removeEventSubscription => exact removeEventSubscription_effect registered ended

theorem no_router_of_absent (indexed : Indexed m) {id : UUID} (absent : m.webhooks.lookup id = none)
    (member : router ∈ m.routers e) : router.webhookID ≠ id := by
  have count := indexed.counted e id
  rw [subscriptions, absent, map_none, getD_none, countP_eq_zero] at count
  simpa using count router member

theorem Indexed.put {id : UUID} {wh' : Webhook} (indexed : Indexed m)
    (found : m.webhooks.lookup id = some wh) (named : wh'.ID = wh.ID)
    (events : wh'.Events = wh.Events) : Indexed (m.put id wh') := by
  have registered : Registered (m.put id wh') :=
    indexed.toRegistered.put (named.trans (indexed.ids id wh found))
      (events ▸ indexed.valid id wh found)
  refine ⟨registered, fun e other => ?_, indexed.uniform⟩
  rw [subscriptions_put found events]
  exact indexed.counted e other

section
variable {id : UUID} {wh : Webhook}

theorem routers_registering : (registering m events id wh).routers e = m.routers e ++
      replicate (((registering m events id wh).eventsOf wh).count e) (routerOf wh) :=
  routers_indexEventRoutes wh

theorem lookup_registering (other : UUID) :
    (registering m events id wh).webhooks.lookup other =
      if other = id then some wh else m.webhooks.lookup other :=
  GoMap.lookup_insert_eq m.webhooks id other wh

theorem subscriptions_registering (indexed : Indexed m) (different : other ≠ id) (e : String) :
    subscriptions (registering m events id wh) other e = subscriptions m other e := by
  rw [subscriptions, subscriptions, lookup_registering, if_neg different]
  cases found : m.webhooks.lookup other with
  | none => rfl
  | some wh' =>
    have read := Slice.read_make (indexed.valid other wh' found) events []
    exact congrArg (count e) read

theorem indexed_registering (indexed : Indexed m) (new : m.webhooks.lookup id = none)
    (named : wh.ID = id) (made : wh.Events = (Slice.make m.arrays events []).2) :
    Indexed (registering m events id wh) := by
  have registered := (indexed.toRegistered.arrays fun s valid =>
    Slice.valid_make valid events []).put named (made ▸ Slice.valid_made m.arrays events [])
  refine ⟨⟨registered.ids, registered.valid⟩, fun e other => ?_, fun e r member r' member' same => ?_⟩
  · rw [routers_registering, countP_append, countP_replicate, indexed.counted]
    by_cases different : other = id
    · subst different
      rw [subscriptions, subscriptions, new, lookup_registering, if_pos rfl]
      simp [routerOf, named]
    · rw [subscriptions_registering indexed different]
      simp [routerOf, named, Ne.symm different]
  · rw [routers_registering, mem_append] at member member'
    have apart : ∀ r ∈ m.routers e, r.webhookID ≠ (routerOf wh).webhookID := fun r member same =>
      no_router_of_absent indexed new member (same.trans named)
    rcases member with old | added <;> rcases member' with old' | added'
    · exact indexed.uniform e r old r' old' same
    · exact absurd (eq_of_mem_replicate added' ▸ same) (apart r old)
    · exact absurd (eq_of_mem_replicate added ▸ same.symm) (apart r' old')
    · rw [eq_of_mem_replicate added, eq_of_mem_replicate added']

theorem routesActive_registering (indexed : Indexed m) (new : m.webhooks.lookup id = none)
    (active : wh.Status = .active) (before : other ≠ id → RoutesActive m other) :
    RoutesActive (registering m events id wh) other := by
  intro e router member same
  rw [routers_registering, mem_append] at member
  rcases member with old | added
  · by_cases different : other = id
    · exact absurd (same.trans different) (no_router_of_absent indexed new old)
    · exact before different e router old same
  · rw [eq_of_mem_replicate added, routerOf, active]
    simp

end

theorem effect_indexed (indexed : Indexed m) (effect : Effect m c m') : Indexed m' := by
  cases effect with
  | unchanged => exact indexed
  | registered events quiet new named active made is =>
    rw [is]
    exact indexed_registering indexed new named made
  | rebuilt quiet fresh registered => exact fresh.indexed registered
  | touched found named events => exact indexed.put found named events

theorem routesActive_iff (indexed : Indexed m) (exact : RoutesExact m) (effect : Effect m c m') :
    (∀ id wh, m'.webhooks.lookup id = some wh → wh.Status = .active → RoutesActive m' id) ↔
      ∀ id ∈ activates c, RoutesActive m id := by
  have marked : ∀ id wh, m.webhooks.lookup id = some wh → wh.Status = .active → RoutesActive m id :=
    fun id wh found => routesActive_of_exact indexed found exact
  cases effect with
  | unchanged absent =>
    refine iff_of_true marked fun id member e router routed same => ?_
    exact absurd same (no_router_of_absent indexed (absent id member) routed)
  | registered events quiet new named active made is =>
    refine iff_of_true (fun other wh' found on => ?_) (by simp [quiet])
    rw [is] at found ⊢
    refine routesActive_registering indexed new active fun different => ?_
    rw [lookup_registering, if_neg different] at found
    exact marked other wh' found on
  | rebuilt quiet fresh => exact iff_of_true (fun id wh => fresh.routesActive) (by simp [quiet])
  | @touched id wh wh' found named events status =>
    constructor
    · intro after other member
      rcases status with ⟨activated, on⟩ | ⟨quiet, -⟩
      · obtain rfl : id = other := mem_unique activated member
        exact after id wh' (by simp [put]) on
      · simp [quiet] at member
    · intro before other wh₁ found₁ on
      simp only [put, GoMap.lookup_insert_eq] at found₁
      split_ifs at found₁ with same
      · cases found₁
        subst same
        rcases status with ⟨activated, -⟩ | ⟨-, kept | off⟩
        · exact before other activated
        · exact marked other wh found (kept ▸ on)
        · exact absurd on off
      · exact marked other wh₁ found₁ on

theorem routesExact_step_iff (indexed : Indexed m) (exact : RoutesExact m)
    (stepped : m.step c = some m') : RoutesExact m' ↔ Careful m c := by
  have effect := step_effect indexed.toRegistered stepped
  rw [routesExact_iff (effect_indexed indexed effect), routesActive_iff indexed exact effect]
  simp [Careful, stepped]

end

theorem indexed_new : Indexed newWebhookManager :=
  ⟨⟨by simp [newWebhookManager], by simp [newWebhookManager]⟩, fun _ _ => rfl,
    by simp [newWebhookManager, routers]⟩

theorem routesExact_new : RoutesExact newWebhookManager := by
  simp [RoutesExact, newWebhookManager, getWebhooksForEvent, routers]

theorem routes_exact_iff_careful {calls : List ManagerCall} {m : WebhookManager}
    (ran : runSchedule WebhookManager.step newWebhookManager calls = some m) :
    (∀ before after middle, calls = before ++ after →
        runSchedule WebhookManager.step newWebhookManager before = some middle →
        RoutesExact middle) ↔ Along WebhookManager.step Careful newWebhookManager calls :=
  throughout_iff_along Indexed RoutesExact
    (fun _ _ _ indexed stepped => effect_indexed indexed (step_effect indexed.toRegistered stepped))
    (fun _ _ _ indexed exact stepped => routesExact_step_iff indexed exact stepped)
    ran indexed_new routesExact_new

def sampleRegistration (events : List String) : WebhookRegistration where
  Name := "billing"
  URL := "/billing"
  Events := events

theorem toNat_injective : Function.Injective (BitVec.toNat : UUID → Nat) :=
  fun _ _ => BitVec.eq_of_toNat_eq

def sampleOrder : GoMap.RangeOrder UUID Webhook := GoMap.ascending BitVec.toNat toNat_injective

def Only (m : WebhookManager) (id : UUID) (wh : Webhook) : Prop :=
  ∀ other, m.webhooks.lookup other = if other = id then some wh else none

theorem Only.put {id : UUID} (only : Only m id wh) (wh' : Webhook) :
    Only (m.put id wh') id wh' := by
  intro other
  rw [WebhookManager.put, GoMap.lookup_insert_eq, only]
  split_ifs <;> rfl

theorem Only.distinct {id : UUID} (only : Only m id wh) (nodup : (m.eventsOf wh).Nodup) :
    Distinct m := by
  intro other wh' found _
  rw [only] at found
  split_ifs at found
  cases found
  exact nodup

def pausedAndResumed : List ManagerCall :=
  [.registerWebhook 1 .zero (sampleRegistration ["task.done"]), .deactivateWebhook .zero 1,
    .activateWebhook .zero 1]

theorem routes_exact_of_one_event :
    ∃ m, runSchedule WebhookManager.step newWebhookManager pausedAndResumed = some m ∧
      ∀ before after middle, pausedAndResumed = before ++ after →
        runSchedule WebhookManager.step newWebhookManager before = some middle →
        RoutesExact middle := by
  refine ⟨_, rfl, (routes_exact_iff_careful rfl).mpr ?_⟩
  refine ⟨⟨?_, by simp [activates]⟩, ?_⟩
  · rintro m ⟨⟩
    exact Only.distinct (fun other => lookup_registering other) (by decide)
  rintro m ⟨⟩
  refine ⟨⟨?_, by simp [activates]⟩, ?_⟩
  · rintro m ⟨⟩
    exact Only.distinct (Only.put (fun other => lookup_registering other) _) (by decide)
  rintro m ⟨⟩
  refine ⟨⟨?_, ?_⟩, fun _ _ => trivial⟩
  · rintro m ⟨⟩
    exact Only.distinct (Only.put (Only.put (fun other => lookup_registering other) _) _) (by decide)
  · rintro id ⟨⟩
    exact routesActive_registering indexed_new rfl rfl fun different => absurd rfl different

theorem routes_repeated_or_missing : (runSchedule WebhookManager.step newWebhookManager
      [.registerWebhook 1 .zero (sampleRegistration ["task.done", "task.done"])]).map
      (fun m => (m.getWebhooksForEvent "task.done").map (·.ID)) = some [1, 1] ∧
    (runSchedule WebhookManager.step newWebhookManager
      [.registerWebhook 1 .zero (sampleRegistration ["task.done"]), .deactivateWebhook .zero 1,
        .addEventSubscription sampleOrder [] 1 "task.failed", .activateWebhook .zero 1]).map
      (fun m => (m.getWebhooksForEvent "task.done", (m.webhooks.lookup 1).map fun wh =>
        (wh.Status, m.eventsOf wh))) = some ([], some (.active, ["task.done", "task.failed"])) := by
  decide +kernel

end NexusPipe.Proof.Webhooks
