import NexusPipe.Library.Except
import NexusPipe.Queue.Topology

namespace NexusPipe.Proof.Queue
open Library NexusPipe.Queue

def withExchange (b : Broker) (cfg : ExchangeConfig) : Broker :=
  { b with exchanges := b.exchanges.insert cfg.Name cfg }

def withQueue (b : Broker) (cfg : QueueConfig) : Broker :=
  { b with
    queues := b.queues.insert cfg.Name
      ⟨cfg.Durable, cfg.AutoDelete, cfg.Exclusive, cfg.Args ∪ defaultQueueArgs cfg⟩ }

def withBinding (b : Broker) (cfg : BindingConfig) : Broker :=
  { b with bindings := b.bindings ++ [cfg] }

def declared (tb : TopologyBuilder) (b : Broker) : Broker :=
  tb.bindings.foldl withBinding (tb.queues.foldl withQueue (tb.exchanges.foldl withExchange b))

variable {b : Broker}

theorem declareExchange_eq_ok (done : declareExchange ch b cfg = .ok b') :
    b' = withExchange b cfg := by
  rw [declareExchange] at done
  split at done
  · cases done
  · exact (Except.ok.inj done).symm

theorem declareQueue_eq_ok (done : declareQueue ch b cfg = .ok b') : b' = withQueue b cfg := by
  simp only [declareQueue] at done
  split at done
  · cases done
  · exact (Except.ok.inj done).symm

theorem bindQueue_eq_ok (done : bindQueue ch b cfg = .ok b') : b' = withBinding b cfg := by
  rw [bindQueue] at done
  split at done
  · cases done
  · exact (Except.ok.inj done).symm

theorem declareAll_eq_ok {tb : TopologyBuilder} (done : tb.declareAll ch b = .ok b') :
    b' = declared tb b := by
  rw [TopologyBuilder.declareAll] at done
  obtain ⟨b₁, exchanges, done⟩ := bind_eq_ok.mp done
  obtain ⟨b₂, queues, bindings⟩ := bind_eq_ok.mp done
  have exchanged := foldl_of_foldlM_eq_ok
    (fun _ _ _ step => declareExchange_eq_ok (mapError_eq_ok.mp step)) exchanges
  have queued := foldl_of_foldlM_eq_ok
    (fun _ _ _ step => declareQueue_eq_ok (mapError_eq_ok.mp step)) queues
  have bound := foldl_of_foldlM_eq_ok
    (fun _ _ _ step => bindQueue_eq_ok (mapError_eq_ok.mp step)) bindings
  rw [declared, ← exchanged, ← queued, bound]

theorem declareTopology_eq_ok (done : declareTopology acquired b = .ok b') :
    b' = declared nexusTopology b := by
  rw [declareTopology] at done
  obtain ⟨ch, -, done⟩ := bind_eq_ok.mp done
  exact declareAll_eq_ok (mapError_eq_ok.mp done)

theorem lookup_setPositive (other : key' ≠ key) :
    (setPositive args key value).lookup key' = args.lookup key' := by
  rw [setPositive]
  split_ifs
  · rw [GoMap.lookup_insert_eq, if_neg other]
  · rfl

theorem lookup_deadLetterExchange (qc : QueueConfig) :
    (defaultQueueArgs qc).lookup "x-dead-letter-exchange" =
      if qc.DLX ≠ "" then some (.string qc.DLX) else none := by
  simp only [defaultQueueArgs]
  repeat rw [lookup_setPositive (by decide)]
  split_ifs <;> simp

theorem lookup_deadLetterRoutingKey (qc : QueueConfig) :
    (defaultQueueArgs qc).lookup "x-dead-letter-routing-key" =
      if qc.DLQ ≠ "" then some (.string qc.DLXRouting) else none := by
  simp only [defaultQueueArgs]
  repeat rw [lookup_setPositive (by decide)]
  split_ifs <;> simp

theorem deadLetter_of_lookup
    (found : b.queues.lookup queue = some ⟨durable, autoDelete, exclusive, ∅ ∪ defaultQueueArgs qc⟩)
    (exchange : qc.DLX ≠ "") (key : String) :
    b.deadLetter queue key = b.route qc.DLX (if qc.DLQ ≠ "" then qc.DLXRouting else key) := by
  rw [Broker.deadLetter, found]
  simp only [Finmap.empty_union, lookup_deadLetterExchange, lookup_deadLetterRoutingKey, if_pos exchange]
  by_cases named : qc.DLQ = "" <;> simp [named]

abbrev nexusBroker : Broker := declared nexusTopology {}

theorem nexusBroker_bindings : nexusBroker.bindings =
      [⟨"nexuspipe.dlq", "nexuspipe.dlx", "dead-letter"⟩,
        ⟨"nexuspipe.events", "nexuspipe.topic", "event.#"⟩,
        ⟨"nexuspipe.notifications", "nexuspipe.topic", "notification.#"⟩] :=
  rfl

theorem route_dlx (key : String) :
    nexusBroker.route "nexuspipe.dlx" key = if key = "dead-letter" then ["nexuspipe.dlq"] else [] := by
  have found : nexusBroker.exchanges.lookup "nexuspipe.dlx" =
      some { Name := "nexuspipe.dlx", ExchangeType := .direct, Durable := true } := by decide
  rw [Broker.route, if_neg (by decide), found, nexusBroker_bindings]
  by_cases dead : key = "dead-letter"
  · simp [ExchangeType.delivers, dead]
  · simp [ExchangeType.delivers, dead, Ne.symm dead]

def workQueues : List String := ["nexuspipe.events", "nexuspipe.notifications"]

theorem lookup_workQueue (work : queue ∈ workQueues) :
    nexusBroker.queues.lookup queue = some ⟨true, false, false, ∅ ∪ defaultQueueArgs {
      Name := queue, Durable := true, DLX := "nexuspipe.dlx", DLXRouting := "dead-letter" }⟩ := by
  rcases List.mem_pair.mp work with rfl | rfl <;> rfl

theorem deadLetter_workQueue (work : queue ∈ workQueues) (key : String) :
    nexusBroker.deadLetter queue key = if key = "dead-letter" then ["nexuspipe.dlq"] else [] := by
  rw [deadLetter_of_lookup (lookup_workQueue work) (by simp), if_neg (by simp), route_dlx]

theorem lookup_topicExchange :
    nexusBroker.exchanges.lookup "nexuspipe.topic" =
      some { Name := "nexuspipe.topic", ExchangeType := .topic, Durable := true } := by
  decide

theorem ne_deadLetter_of_route (work : queue ∈ workQueues)
    (routed : queue ∈ nexusBroker.route exchange key) : key ≠ "dead-letter" := by
  rintro rfl
  rw [Broker.route] at routed
  split_ifs at routed with unnamed known
  · rw [List.mem_singleton.mp routed] at work
    exact absurd work (by decide)
  · cases routed
  · cases found : nexusBroker.exchanges.lookup exchange with
    | none => simp [found] at routed
    | some cfg =>
      simp only [found, nexusBroker_bindings, List.mem_dedup, List.mem_map, List.mem_filter,
        decide_eq_true_eq] at routed
      obtain ⟨binding, ⟨member, rfl, delivers⟩, rfl⟩ := routed
      simp only [List.mem_cons, List.not_mem_nil, or_false] at member
      rcases member with rfl | rfl | rfl
      · exact absurd work (by decide)
      · cases lookup_topicExchange.symm.trans found
        exact absurd delivers (by decide)
      · cases lookup_topicExchange.symm.trans found
        exact absurd delivers (by decide)

theorem deadLetter_dlq_iff {acquired : Except Text Channel}
    (done : declareTopology acquired {} = .ok b) {queue : String} (work : queue ∈ workQueues) :
    (∀ key, "nexuspipe.dlq" ∈ b.deadLetter queue key ↔ key = "dead-letter") ∧
      ∀ exchange key, queue ∈ b.route exchange key →
        key ≠ "dead-letter" ∧ b.deadLetter queue key = [] := by
  obtain rfl := declareTopology_eq_ok done
  constructor
  · intro key
    rw [deadLetter_workQueue work]
    split_ifs with dead <;> simp [dead]
  · intro exchange key routed
    have live := ne_deadLetter_of_route work routed
    exact ⟨live, by rw [deadLetter_workQueue work, if_neg live]⟩

def acceptingChannel : Channel := fun _ _ => none

theorem declareTopology_accepting : declareTopology (.ok acceptingChannel) {} = .ok nexusBroker :=
  rfl

theorem deadLetter_dlq_iff_accepting : ∃ b, declareTopology (.ok acceptingChannel) {} = .ok b ∧
      "nexuspipe.dlq" ∈ b.deadLetter "nexuspipe.events" "dead-letter" :=
  ⟨nexusBroker, declareTopology_accepting,
    ((deadLetter_dlq_iff declareTopology_accepting (by decide)).1 "dead-letter").mpr rfl⟩

theorem rejected_event_vanishes : ∃ b, declareTopology (.ok acceptingChannel) {} = .ok b ∧
      "nexuspipe.events" ∈ b.route "nexuspipe.topic" "event.created" ∧
      b.deadLetter "nexuspipe.events" "event.created" = [] := by
  exact ⟨nexusBroker, declareTopology_accepting, by decide, by decide⟩

end NexusPipe.Proof.Queue
