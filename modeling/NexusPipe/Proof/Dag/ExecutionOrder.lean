import NexusPipe.Proof.Dag.Execution

namespace NexusPipe.Proof.Dag
open NexusPipe.Dag Library Relation

variable {W V : Type} {g : Graph} {s : Execution V}

def starts (id : UUID) : Event V → Bool
  | .started n _ _ => n.ID = id
  | _ => false

variable {a : Action W}

theorem levels_step (move : Move e order g s a s') : s'.levels = s.levels := by
  cases move with
  | join level phase here done => exact (joinLevel_frame e order g level s).1
  | _ => rfl

theorem run_levels (run : runSchedule (executeStep e order g) start schedule = some s) :
    s.levels = start.levels := by
  refine runSchedule_invariant (fun s => s.levels = start.levels) ?_ run rfl
  intro s a s' same next
  exact (levels_step (executeStep_move next)).trans same

theorem trace_step (move : Move e order g s a s') :
    s'.trace = s.trace ∨ ∃ event, s'.trace = s.trace ++ [event] := by
  cases move with
  | join level phase here done => exact .inl (joinLevel_frame e order g level s).2.2.2.1
  | @goroutine i world n pc pc' shown result nodeOutputs here moves =>
    cases shown with
    | none => exact .inl (List.append_nil _)
    | some event => exact .inr ⟨event, rfl⟩
  | _ => exact .inl rfl

variable {n : Node}

theorem Answered.starts_le (answer : Answered e n result log) (id : UUID) :
    log.countP (starts id) ≤ 1 := by
  cases answer with
  | unhandled unknown => simp
  | handled outcome => by_cases same : n.ID = id <;> simp [starts, same]

variable {result : Option (NodeResult V)}

theorem Logged.starts_le (logged : Logged e n pc log result) (id : UUID) :
    log.countP (starts id) ≤ 1 := by
  cases logged with
  | finished answer | stored answer => exact answer.starts_le id
  | done answer =>
    rw [List.countP_append]
    exact answer.starts_le id
  | invoked => by_cases same : n.ID = id <;> simp [starts, same]
  | _ => simp [starts]

theorem Answered.ran {result : NodeResult V} (answer : Answered e n result log) :
    result.Status = .completed ∨ result.Status = .failed := by
  cases answer with
  | unhandled unknown => exact .inl rfl
  | handled outcome =>
    rcases outcome with ⟨output, _ | err⟩
    · exact .inl rfl
    · exact .inr rfl

theorem Answered.no_end {result : NodeResult V} (answer : Answered e n result log) (m : Node)
    (r : NodeResult V) : .ended m r ∉ log := by
  cases answer <;> simp

variable {r : NodeResult V} {m : Node}

theorem Logged.ended (logged : Logged e n pc log result) (ended : .ended m r ∈ log) :
    pc = .done ∧ result = some r := by
  cases logged with
  | finished answer | stored answer => exact absurd ended (answer.no_end m r)
  | done answer =>
    rcases List.mem_append.mp ended with early | last
    · exact absurd early (answer.no_end m r)
    · cases List.mem_singleton.mp last
      exact ⟨rfl, rfl⟩
  | skipped =>
    cases List.mem_singleton.mp ended
    exact ⟨rfl, rfl⟩
  | _ => simp at ended

theorem Logged.status (logged : Logged e n pc log result) (ended : .ended m r ∈ log) :
    r.Status = .completed ∨ r.Status = .failed ∨ r.Status = .skipped := by
  obtain ⟨rfl, rfl⟩ := logged.ended ended
  cases logged with
  | done answer => exact answer.ran.imp_right .inl
  | skipped => exact .inr (.inr rfl)

theorem Logged.of_done (logged : Logged e n .done log result) :
    ∃ r, result = some r ∧ .ended n r ∈ log := by
  cases logged with
  | @done r log answer => exact ⟨r, rfl, by simp⟩
  | skipped => exact ⟨_, rfl, by simp⟩

theorem mem_history {id : UUID} :
    event ∈ history id trace ↔ event ∈ trace ∧ (eventNode event).ID = id := by
  simp [history]

namespace Consistent

theorem event_goroutine (c : Consistent e order g s) (member : event ∈ s.trace) :
    ∃ (i : Nat) (pc : Pc V), s.goroutines[i]? = some (eventNode event, pc) ∧
      Logged e (eventNode event) pc (history (eventNode event).ID s.trace)
        (recorded s (eventNode event).ID) ∧ event ∈ history (eventNode event).ID s.trace := by
  obtain ⟨⟨n, pc⟩, present, same⟩ := List.mem_map.mp (c.events event member)
  obtain ⟨i, here⟩ := List.mem_iff_getElem?.mp present
  dsimp only at same
  subst same
  exact ⟨i, pc, here, c.logged i _ pc here, mem_history.mpr ⟨member, rfl⟩⟩

theorem starts_le (c : Consistent e order g s) (id : UUID) : s.trace.countP (starts id) ≤ 1 := by
  have restrict : s.trace.countP (starts id) = (history id s.trace).countP (starts id) := by
    rw [history, List.countP_filter]
    apply List.countP_congr
    intro event _
    cases event with
    | started n timeout inputs => by_cases same : n.ID = id <;> simp [starts, eventNode, same]
    | _ => simp [starts]
  rw [restrict]
  by_cases silent : history id s.trace = []
  · simp [silent]
  · obtain ⟨event, member⟩ := List.exists_mem_of_ne_nil _ silent
    obtain ⟨inTrace, same⟩ := mem_history.mp member
    obtain ⟨i, pc, _, logged, _⟩ := c.event_goroutine inTrace
    rw [same] at logged
    exact logged.starts_le id

theorem past_spawned (c : Consistent e order g s) (member : n ∈ past s) :
    n ∈ s.goroutines.map Prod.fst := by
  obtain ⟨started, spawned, _⟩ := c.spawned
  rw [spawned]
  exact List.mem_append_left _ member

theorem past_done (c : Consistent e order g s) (atK : AtLevel s.levels k n) (less : k < s.joined) :
    ∃ i : Nat, s.goroutines[i]? = some (n, .done) := by
  have spawned := c.past_spawned (mem_flatten_take.mpr ⟨k, less, atK⟩)
  obtain ⟨⟨m, pc⟩, present, rfl⟩ := List.mem_map.mp spawned
  obtain ⟨i, here⟩ := List.mem_iff_getElem?.mp present
  cases c.joined i m pc k here atK less
  exact ⟨i, here⟩

theorem past_ended (c : Consistent e order g s) (atK : AtLevel s.levels k n) (less : k < s.joined) :
    ∃ r, .ended n r ∈ s.trace := by
  obtain ⟨i, here⟩ := c.past_done atK less
  obtain ⟨r, _, ended⟩ := (c.logged i n .done here).of_done
  exact ⟨r, (mem_history.mp ended).1⟩

theorem busy_inLevel (c : Consistent e order g s) {i : Nat} (here : s.goroutines[i]? = some (n, pc))
    (busy : pc ≠ .done) : InLevel s := by
  by_contra out
  obtain ⟨k, less, atK⟩ := c.past_level out (List.mem_map_of_mem (List.mem_of_getElem? here))
  exact busy (c.joined i n pc k here atK less)

end Consistent

variable {levels : List (List Node)}

theorem Leveled.exists_atLevel (leveled : Leveled g levels) (wf : WellFormed g) {id : UUID}
    (isNode : id ∈ g.nodes) : ∃ n k, n.ID = id ∧ AtLevel levels k n := by
  obtain ⟨n, found⟩ := Finmap.mem_iff.mp isNode
  have own := wf.key id n found
  have listed : n ∈ levels.flatten := (leveled.members n).mpr (by rw [Graph.node, own, found])
  obtain ⟨level, member, inside⟩ := List.mem_flatten.mp listed
  obtain ⟨k, here⟩ := List.mem_iff_getElem?.mp member
  exact ⟨n, k, own, level, here, inside⟩

theorem Leveled.ancestor_lt (leveled : Leveled g levels) {a : Node} (atI : AtLevel levels i a)
    (atJ : AtLevel levels j b) (path : TransGen g.Adjacent a.ID b.ID) : i < j := by
  obtain ⟨level, hereI, inI⟩ := atI
  obtain ⟨level', hereJ, inJ⟩ := atJ
  exact (leveled.height i level a hereI inI).lt_of_transGen
    (leveled.height j level' b hereJ inJ) path

def Skips (s : Execution V) (n : Node) : Prop :=
  (∃ i : Nat, s.goroutines[i]? = some (n, .skipping)) ∨
    ∃ r, .ended n r ∈ s.trace ∧ r.Status = .skipped

def SeesCancelled (s : Execution V) : Action W → Prop
  | .goroutine i _ => s.ctx ≠ none ∧ ∃ n inputs, s.goroutines[i]? = some (n, .collected inputs)
  | _ => False

theorem Logged.retired (logged : Logged e n (.stored r) log result) : r.Status ≠ .skipped := by
  cases logged with
  | stored answer => rcases answer.ran with ran | ran <;> rw [ran] <;> simp

theorem Skips.origin (c : Consistent e order g s) (move : Move e order g s a s')
    (skips : Skips s' n) : Skips s n ∨ SeesCancelled s a ∧ AtLevel s.levels s.joined n := by
  cases move with
  | spawn m todo phase =>
    rcases skips with ⟨i, found⟩ | ended
    · rcases getElem?_concat_cases found with old | ⟨_, new⟩
      · exact .inl (.inl ⟨i, old⟩)
      · cases new
    · exact .inl (.inr ended)
  | join level phase here done =>
    obtain ⟨_, goroutines, _, trace, _⟩ := joinLevel_frame e order g level s
    rw [Skips, goroutines, trace] at skips
    exact .inl skips
  | @goroutine i world m pc pc' shown result nodeOutputs here moves =>
    have atM := c.busy here moves.busy
    rcases skips with ⟨j, found⟩ | ⟨r, member, skipped⟩
    · rcases getElem?_set_cases found with ⟨_, replaced⟩ | ⟨_, old⟩
      · cases replaced
        cases moves with
        | skip inputs ended => exact .inr ⟨⟨ended, n, inputs, here⟩, atM⟩
      · exact .inl (.inl ⟨j, old⟩)
    · rcases List.mem_append.mp member with old | new
      · exact .inl (.inr ⟨r, old, skipped⟩)
      · cases moves with
        | abandon =>
          cases List.mem_singleton.mp new
          exact .inl (.inl ⟨i, here⟩)
        | retire result =>
          cases List.mem_singleton.mp new
          exact absurd skipped (c.logged i n _ here).retired
        | _ => simp at new
  | _ => exact .inl skips

theorem Skips.step (move : Move e order g s a s') (skips : Skips s n) : Skips s' n := by
  cases move with
  | spawn m todo phase =>
    exact skips.imp_left fun ⟨i, found⟩ => ⟨i, getElem?_concat_of_found found _⟩
  | join level phase here done =>
    obtain ⟨_, goroutines, _, trace, _⟩ := joinLevel_frame e order g level s
    rw [Skips, goroutines, trace]
    exact skips
  | @goroutine i world m pc pc' shown result nodeOutputs here moves =>
    rcases skips with ⟨j, found⟩ | ⟨r, ended, skipped⟩
    · by_cases same : i = j
      · subst same
        rw [here, Option.some.injEq, Prod.mk.injEq] at found
        obtain ⟨rfl, rfl⟩ := found
        cases moves with
        | abandon => exact .inr ⟨cancelledResult m, by simp, rfl⟩
      · exact .inl ⟨j, by rw [List.getElem?_set_ne same, found]⟩
    · exact .inr ⟨r, List.mem_append_left _ ended, skipped⟩
  | _ => exact skips

def SkipsLast (s : Execution V) : Prop :=
  ∀ n, Skips s n → s.ctx ≠ none ∧ (InLevel s → AtLevel s.levels s.joined n)

theorem SkipsLast.step (c : Consistent e order g s) (last : SkipsLast s)
    (move : Move e order g s a s') : SkipsLast s' := by
  intro n skips
  rcases skips.origin c move with old | ⟨sees, atN⟩
  · obtain ⟨cancelled, level⟩ := last n old
    cases move with
    | cancel err live => exact absurd live cancelled
    | finish | stop => exact ⟨cancelled, by simp [InLevel]⟩
    | enter level phase here live => exact absurd live cancelled
    | spawn m todo phase | wait phase => exact ⟨cancelled, fun _ => level (.inr ⟨_, phase⟩)⟩
    | join level phase here done =>
      obtain ⟨_, _, ctx, _, ended⟩ := joinLevel_frame e order g level s
      exact ⟨ctx ▸ cancelled, fun inLevel => absurd inLevel ended⟩
    | goroutine i world nodeOutputs here moves => exact ⟨cancelled, level⟩
  · cases move with
    | goroutine i world nodeOutputs here moves => exact ⟨sees.1, fun _ => atN⟩
    | _ => exact sees.elim

theorem run_skipsLast (wf : WellFormed g) (begins : executeStart order g = .ok start)
    (run : runSchedule (executeStep e order g) start schedule = some s) :
    Consistent e order g s ∧ SkipsLast s :=
  run_invariant wf SkipsLast (by simp [SkipsLast, Skips]) (fun _ _ _ c last => last.step c)
    begins run

variable {inputs : GoMap UUID V} {timeout : Int}

theorem run_at_start (wf : WellFormed g) (begins : executeStart order g = .ok start)
    (run : runSchedule (executeStep e order g) start schedule = some s) {before : List (Event V)}
    (split : s.trace = before ++ .started n timeout inputs :: after) :
    ∃ middle, Consistent e order g middle ∧ SkipsLast middle ∧ middle.trace = before ∧
      InLevel middle ∧ AtLevel middle.levels middle.joined n := by
  obtain ⟨taken, a, middle, next, reached, step, sofar, shows⟩ :=
    exists_step_of_event Execution.trace (fun s a s' next => trace_step (executeStep_move next)) run
      split (by obtain ⟨levels, _, rfl⟩ := executeStart_eq begins; simp)
  obtain ⟨c, last⟩ := run_skipsLast wf begins reached
  have fresh : next.trace ≠ middle.trace := by simp [shows, sofar]
  cases executeStep_move step with
  | @goroutine i world m pc pc' shown result nodeOutputs here moves =>
    have same : shown = some (.started n timeout inputs) := by
      rw [← sofar] at shows
      cases shown with
      | none => simp at fresh
      | some event => simpa using shows
    subst same
    cases moves with
    | call inputs known =>
      have atN := c.busy here (by simp)
      exact ⟨middle, c, last, sofar, c.busy_inLevel here (by simp), atN⟩
  | join level phase here done =>
    exact absurd (joinLevel_frame e order g level middle).2.2.2.1 fresh
  | _ => exact absurd rfl fresh

theorem Consistent.ancestor_ended (wf : WellFormed g) (c : Consistent e order g s)
    (atN : AtLevel s.levels s.joined n) {a : UUID} (path : TransGen g.Adjacent a n.ID) :
    ∃ m r k, m.ID = a ∧ AtLevel s.levels k m ∧ k < s.joined ∧ .ended m r ∈ s.trace := by
  obtain ⟨m, k, rfl, atK⟩ := c.leveled.exists_atLevel wf (wf.ancestor path)
  have less := c.leveled.ancestor_lt atK atN path
  obtain ⟨r, ended⟩ := c.past_ended atK less
  exact ⟨m, r, k, rfl, atK, less, ended⟩

theorem Returned.not_inLevel (returned : Returned s) : ¬ InLevel s := by
  obtain ⟨result, err, phase⟩ := returned
  simp [InLevel, phase]

theorem Consistent.failed_last (c : Consistent e order g s) (policy : e.policy = .failFast)
    (ended : .ended m r ∈ s.trace) (failed : r.Status = .failed)
    (started : .started n timeout inputs ∈ s.trace) :
    ∃ i j, AtLevel s.levels i m ∧ AtLevel s.levels j n ∧ j ≤ i := by
  have spawned := c.events _ started
  obtain ⟨i, _, atM⟩ := c.spawned_level (c.events _ ended)
  obtain ⟨_, _, _, logged, member⟩ := c.event_goroutine ended
  obtain ⟨_, found⟩ := logged.ended member
  rw [recorded, Option.or_eq_some_iff] at found
  rcases found with now | ⟨_, before⟩
  · obtain ⟨m', atM', same, _⟩ := c.levelResult_known now
    cases c.leveled.eq_of_ID atM' atM same
    obtain ⟨j, small, atJ⟩ := c.spawned_level spawned
    exact ⟨s.joined, j, atM', atJ, small⟩
  · obtain ⟨returned, m', k, atK, same, last⟩ := c.failFast policy _ r before failed
    cases c.leveled.eq_of_ID atK atM same
    obtain ⟨j, small, atJ⟩ := c.past_level returned.not_inLevel spawned
    exact ⟨k, j, atK, atJ, by omega⟩

structure OrderedStarts (g : Graph) (levels : List (List Node)) (policy : ExecutionPolicy)
    (trace : List (Event V)) : Prop where
  once : ∀ id, trace.countP (starts id) ≤ 1
  ancestors : ∀ before n timeout inputs after,
    trace = before ++ .started n timeout inputs :: after →
      ∀ a, TransGen g.Adjacent a n.ID → ∃ m r, m.ID = a ∧ .ended m r ∈ before ∧ r.Status ≠ .skipped
  failFast : policy = .failFast → ∀ m r n timeout inputs, .ended m r ∈ trace →
    r.Status = .failed → .started n timeout inputs ∈ trace →
      ∃ i j, AtLevel levels i m ∧ AtLevel levels j n ∧ j ≤ i

theorem execute_orderedStarts (ops : List GraphOp) (e : DAGExecutor W V) (order : ExecuteOrder V)
    (acyclic : Acyclic (graphAfter ops).Adjacent) :
    ∃ levels start, (graphAfter ops).levels order.levels = .ok levels ∧
      executeStart order (graphAfter ops) = .ok start ∧
      ∀ schedule s, runSchedule (executeStep e order (graphAfter ops)) start schedule = some s →
        OrderedStarts (graphAfter ops) levels e.policy s.trace := by
  have wf := wellFormed_graphAfter ops
  obtain ⟨levels, computed, leveled, begins⟩ := executeStart_ok wf order acyclic
  refine ⟨levels, _, computed, begins, fun schedule s run => ?_⟩
  have c := run_consistent wf begins run
  refine ⟨c.starts_le, ?_, ?_⟩
  · intro before n timeout inputs after split a path
    obtain ⟨middle, c, last, rfl, inLevel, atN⟩ := run_at_start wf begins run split
    obtain ⟨m, r, k, same, atK, less, ended⟩ := c.ancestor_ended wf atN path
    refine ⟨m, r, same, ended, fun skipped => ?_⟩
    exact c.not_lt ((last m (.inr ⟨r, ended, skipped⟩)).2 inLevel) atK less
  · intro policy m r n timeout inputs ended failed started
    have same : s.levels = levels := run_levels run
    rw [← same]
    exact c.failed_last policy ended failed started

def ascendingOrder (V : Type) : ExecuteOrder V where
  levels := ⟨⟨ascending, ascending⟩, ascending, ascending, ascending⟩
  graphName := ascending
  merge := ascending
  scan := ascending
  skipped := ascending
  success := ascending

def chainExecutor : DAGExecutor (Outcome Nat) Nat :=
  ((newDAGExecutor (Outcome Nat) Nat).registerHandler "extract" fun outcome _ _ _ => outcome)
    |>.registerHandler "load" fun outcome _ _ _ => outcome

def levelSchedule (i : Nat) (outcome : Outcome Nat) : List (Action (Outcome Nat)) :=
  .main :: .main :: .main :: List.replicate 6 (.goroutine i outcome) ++ [.main]

theorem chain_orderedStarts : ∃ levels start,
    (graphAfter chain).levels (ascendingOrder Nat).levels = .ok levels ∧
      executeStart (ascendingOrder Nat) (graphAfter chain) = .ok start ∧
      (runSchedule (executeStep chainExecutor (ascendingOrder Nat) (graphAfter chain)) start
        (levelSchedule 0 (some 7, none) ++ levelSchedule 1 (none, none))).isSome ∧
      ∀ schedule s, runSchedule (executeStep chainExecutor (ascendingOrder Nat) (graphAfter chain))
          start schedule = some s → OrderedStarts (graphAfter chain) levels .failFast s.trace := by
  obtain ⟨levels, start, computed, begins, ordered⟩ :=
    execute_orderedStarts chain chainExecutor (ascendingOrder Nat) chain_acyclic
  refine ⟨levels, start, computed, begins, ?_, ordered⟩
  have runs : (execute chainExecutor (ascendingOrder Nat) (graphAfter chain)
      (levelSchedule 0 (some 7, none) ++ levelSchedule 1 (none, none))).isSome := by
    decide +kernel
  rwa [execute, begins] at runs

end NexusPipe.Proof.Dag
