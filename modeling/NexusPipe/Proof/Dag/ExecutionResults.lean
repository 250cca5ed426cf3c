import NexusPipe.Proof.Dag.ExecutionOrder

namespace NexusPipe.Proof.Dag
open NexusPipe.Dag Library Relation List Option

variable {W V : Type} {g : Graph} {s : Execution V}

variable {result : Option (NodeResult V)} {m n : Node}

theorem Logged.started (logged : Logged e n pc log result)
    (called : .started m timeout inputs ∈ log) : inputs = ∅ := by
  have empty {r : NodeResult V} {log : List (Event V)} (answer : Answered e n r log)
      (called : .started m timeout inputs ∈ log) : inputs = ∅ := by
    cases answer <;> simp at called
    exact called.2.2
  cases logged with
  | finished answer | stored answer => exact empty answer called
  | done answer =>
    rcases mem_append.mp called with early | last
    · exact empty answer early
    · simp at last
  | invoked =>
    simp only [mem_singleton, Event.started.injEq] at called
    exact called.2.2
  | _ => simp at called

variable {r : NodeResult V}

theorem Logged.answered_of_output (logged : Logged e n pc log result) (ended : .ended m r ∈ log)
    (output : r.Output = some v) : .answered n (some v, none) ∈ log := by
  obtain ⟨rfl, rfl⟩ := logged.ended ended
  cases logged with
  | done answer =>
    cases answer with
    | unhandled unknown => cases output
    | handled outcome =>
      rcases outcome with ⟨_, _ | err⟩
      · cases output
        simp
      · cases output
  | skipped => cases output

theorem Logged.result_of_answered (logged : Logged e n .done log result)
    (answered : .answered m outcome ∈ log) : result = some (handledResult n outcome) := by
  cases logged with
  | done answer =>
    cases answer with
    | unhandled unknown => simp at answered
    | handled outcome' =>
      simp only [cons_append, nil_append, mem_cons, reduceCtorEq,
        Event.answered.injEq, not_mem_nil, or_false, false_or] at answered
      rw [answered.2]
  | skipped => simp at answered

theorem Consistent.answered_ended (c : Consistent e order g s)
    (answered : .answered n outcome ∈ s.trace) (atK : AtLevel s.levels k n) (less : k < s.joined) :
    .ended n (handledResult n outcome) ∈ s.trace := by
  obtain ⟨i, pc, here, logged, member⟩ := c.event_goroutine answered
  cases c.joined i n pc k here atK less
  obtain ⟨r, recorded, ended⟩ := logged.of_done
  rw [logged.result_of_answered member, some.injEq] at recorded
  exact recorded ▸ (mem_history.mp ended).1

def PassesInputs (g : Graph) (sofar : List (Event V)) (n : Node) (inputs : GoMap UUID V) : Prop :=
  ∀ id v, inputs.lookup id = some v ↔ g.Adjacent id n.ID ∧
    ∃ m r, m.ID = id ∧ .ended m r ∈ sofar ∧ r.Status = .completed ∧ r.Output = some v

theorem inputs_passed_iff (ops : List GraphOp) (e : DAGExecutor W V) (order : ExecuteOrder V)
    (acyclic : Acyclic (graphAfter ops).Adjacent) :
    ∃ start, executeStart order (graphAfter ops) = .ok start ∧
      ∀ schedule s, runSchedule (executeStep e order (graphAfter ops)) start schedule = some s →
        ∀ before n timeout inputs after, s.trace = before ++ .started n timeout inputs :: after →
            (PassesInputs (graphAfter ops) before n inputs ↔
              ∀ m outcome, .answered m outcome ∈ before →
                (graphAfter ops).Adjacent m.ID n.ID → outcome.2 = none → outcome.1 = none) := by
  have wf := wellFormed_graphAfter ops
  obtain ⟨levels, computed, leveled, begins⟩ := executeStart_ok wf order acyclic
  refine ⟨_, begins, fun schedule s run before n timeout inputs after split => ?_⟩
  have empty : inputs = ∅ := by
    have called : .started n timeout inputs ∈ s.trace := by simp [split]
    obtain ⟨_, _, _, logged, member⟩ := (run_consistent wf begins run).event_goroutine called
    exact logged.started member
  subst empty
  obtain ⟨middle, c, _, rfl, _, atN⟩ := run_at_start wf begins run split
  constructor
  · rintro passes m ⟨output, err⟩ answered edge rfl
    cases output with
    | none => rfl
    | some v =>
      obtain ⟨k, _, atM⟩ := c.spawned_level (c.events _ answered)
      have less := c.leveled.ancestor_lt atM atN (.single edge)
      have found := (passes m.ID v).mpr
        ⟨edge, m, _, rfl, c.answered_ended answered atM less, rfl, rfl⟩
      simp at found
  · intro silent id v
    simp only [Finmap.lookup_empty, reduceCtorEq, false_iff, not_and, not_exists]
    intro edge m r same ended completed output
    obtain ⟨_, _, _, logged, member⟩ := c.event_goroutine ended
    have answered := (mem_history.mp (logged.answered_of_output member output)).1
    have quiet := silent m (some v, none) answered (by rw [same]; exact edge) rfl
    cases quiet

theorem chain_edge : (graphAfter chain).Adjacent 1 2 := by
  unfold Graph.Adjacent
  decide +kernel

theorem chain_inputs_lost : ∃ s before n timeout,
    execute chainExecutor (ascendingOrder Nat) (graphAfter chain)
        (levelSchedule 0 (some 7, none) ++ (levelSchedule 1 (none, none)).take 6) = some s ∧
      s.trace = before ++ [.started n timeout ∅] ∧
      ¬ PassesInputs (graphAfter chain) before n ∅ := by
  let extract : Node := ⟨1, "extract", ∅⟩
  let load : Node := ⟨2, "load", ∅⟩
  let result : NodeResult Nat := ⟨1, "extract", .completed, .str "", some 7⟩
  have ran : (execute chainExecutor (ascendingOrder Nat) (graphAfter chain)
      (levelSchedule 0 (some 7, none) ++ (levelSchedule 1 (none, none)).take 6)).map
        Execution.trace =
      some ([.started extract (5 * minute) ∅, .answered extract (some 7, none),
        .ended extract result] ++ [.started load (5 * minute) ∅]) := by
    decide +kernel
  obtain ⟨s, run, trace⟩ := map_eq_some_iff.mp ran
  refine ⟨s, _, load, _, run, trace, fun passes => ?_⟩
  have found := (passes 1 7).mpr ⟨chain_edge, extract, result, rfl, by simp, rfl, rfl⟩
  simp at found

theorem chain_inputs_passed_iff : ∃ start,
    executeStart (ascendingOrder Nat) (graphAfter chain) = .ok start ∧
      ∀ schedule s, runSchedule (executeStep chainExecutor (ascendingOrder Nat) (graphAfter chain))
          start schedule = some s → ∀ before n timeout inputs after,
          s.trace = before ++ .started n timeout inputs :: after →
            (PassesInputs (graphAfter chain) before n inputs ↔
              ∀ m outcome, .answered m outcome ∈ before →
                (graphAfter chain).Adjacent m.ID n.ID → outcome.2 = none → outcome.1 = none) :=
  inputs_passed_iff chain chainExecutor (ascendingOrder Nat) chain_acyclic

namespace Consistent

theorem past_result (c : Consistent e order g s) (atK : AtLevel s.levels k n) (less : k < s.joined) :
    recorded s n.ID = s.results.lookup n.ID := by
  have absent : s.levelResults.lookup n.ID = none := by
    rw [Finmap.lookup_eq_none]
    intro written
    obtain ⟨m, _, atM, same⟩ := c.levelResults n.ID written
    cases c.leveled.eq_of_ID atM atK same
    exact c.not_lt atM atK less
  rw [recorded, absent]
  rfl

theorem returned_ended (c : Consistent e order g s) (returned : Returned s)
    (ended : .ended n r ∈ s.trace) : s.results.lookup n.ID = some r := by
  obtain ⟨k, less, atK⟩ := c.past_level returned.not_inLevel (c.events _ ended)
  obtain ⟨_, _, _, logged, member⟩ := c.event_goroutine ended
  exact (c.past_result (n := n) atK less).symm.trans (logged.ended member).2

end Consistent

theorem buildResult_success {results : GoMap UUID (NodeResult V)}
    (success : (buildResult order g results).Success = true) (id : UUID) (r : NodeResult V)
    (found : results.lookup id = some r) : r.Status ≠ .failed := by
  intro failed
  have fails : hasFailed order.success results = true :=
    hasFailed_iff.mpr ⟨id, r, found, failed⟩
  simp [buildResult, fails] at success

variable {schedule : List (Action W)}

theorem run_unskipped (wf : WellFormed g) (begins : executeStart order g = .ok start)
    (run : runSchedule (executeStep e order g) start schedule = some s)
    (along : Along (executeStep e order g) (fun s a => ¬ SeesCancelled s a) start schedule) :
    Consistent e order g s ∧ ∀ n, ¬ Skips s n := by
  refine run_invariant_along wf _ (fun s => ∀ n, ¬ Skips s n) (by simp [Skips]) ?_ begins run along
  intro s a s' c unskipped blind next n skips
  rcases skips.origin c (executeStep_move next) with old | ⟨sees, _⟩
  · exact unskipped n old
  · exact blind sees

theorem run_skips (run : runSchedule (executeStep e order g) start schedule = some s)
    (broken : ¬ Along (executeStep e order g) (fun s a => ¬ SeesCancelled s a) start schedule) :
    ∃ n, Skips s n := by
  obtain ⟨before, a, after, middle, next, _, _, sees, step, rest⟩ :=
    exists_step_of_not_along run broken
  rw [not_not] at sees
  have skips : ∃ n, Skips next n := by
    cases executeStep_move step with
    | @goroutine i world n pc pc' shown result nodeOutputs here moves =>
      obtain ⟨ended, m, inputs, there⟩ := sees
      rw [here, some.injEq, Prod.mk.injEq] at there
      obtain ⟨rfl, rfl⟩ := there
      cases moves with
      | proceed inputs live => exact absurd live ended
      | skip inputs ended => exact ⟨n, .inl ⟨i, getElem?_set_of_found here _⟩⟩
    | _ => exact sees.elim
  obtain ⟨n, skips⟩ := skips
  refine ⟨n, runSchedule_invariant (fun s => Skips s n) ?_ rest skips⟩
  exact fun s a s' skips next => skips.step (executeStep_move next)

def AllCompleted (g : Graph) (results : GoMap UUID (NodeResult V)) : Prop :=
  ∀ id ∈ g.nodes, ∃ r, results.lookup id = some r ∧ r.Status = .completed

theorem Consistent.allCompleted (wf : WellFormed g) (c : Consistent e order g s)
    (unskipped : ∀ n, ¬ Skips s n) {result : ExecutionResult V}
    (returned : s.phase = .returned result none) (success : result.Success = true) :
    AllCompleted g result.Results := by
  obtain ⟨rfl, complete⟩ := c.verdict result none returned
  have unfailed := buildResult_success success
  rcases complete rfl with all | ⟨_, id, r, found, failed⟩
  · intro id isNode
    obtain ⟨n, k, rfl, atK⟩ := c.leveled.exists_atLevel wf isNode
    obtain ⟨level, here, inside⟩ := atK
    have less : k < s.joined :=
      Nat.lt_of_lt_of_le (List.getElem?_eq_some_iff.mp here).1 all
    obtain ⟨r, ended⟩ := c.past_ended ⟨level, here, inside⟩ less
    have found := c.returned_ended ⟨_, _, returned⟩ ended
    obtain ⟨_, _, _, logged, member⟩ := c.event_goroutine ended
    refine ⟨r, found, ?_⟩
    rcases logged.status member with completed | failed | skipped
    · exact completed
    · exact absurd failed (unfailed n.ID r found)
    · exact absurd (.inr ⟨r, ended, skipped⟩) (unskipped n)
  · exact absurd failed (unfailed id r found)

theorem allCompleted_iff (ops : List GraphOp) (e : DAGExecutor W V) (order : ExecuteOrder V)
    (acyclic : Acyclic (graphAfter ops).Adjacent) :
    ∃ start, executeStart order (graphAfter ops) = .ok start ∧
      ∀ schedule s, runSchedule (executeStep e order (graphAfter ops)) start schedule = some s →
        ∀ result, s.phase = .returned result none → result.Success = true →
          (AllCompleted (graphAfter ops) result.Results ↔
            Along (executeStep e order (graphAfter ops)) (fun s a => ¬ SeesCancelled s a)
              start schedule) := by
  have wf := wellFormed_graphAfter ops
  obtain ⟨levels, computed, leveled, begins⟩ := executeStart_ok wf order acyclic
  refine ⟨_, begins, fun schedule s run result returned success => ⟨?_, ?_⟩⟩
  · intro completed
    by_contra broken
    obtain ⟨n, skips⟩ := run_skips run broken
    have c := run_consistent wf begins run
    rcases skips with ⟨i, here⟩ | ⟨r, ended, skipped⟩
    · exact Returned.not_inLevel ⟨_, _, returned⟩ (c.busy_inLevel here (by simp))
    · obtain ⟨rfl, _⟩ := c.verdict result none returned
      have found := c.returned_ended ⟨_, _, returned⟩ ended
      obtain ⟨k, _, atK⟩ := c.spawned_level (c.events _ ended)
      obtain ⟨r', found', ok⟩ := completed n.ID
        (Finmap.mem_of_lookup_eq_some (c.leveled.node_of_atLevel atK))
      rw [buildResult, found, some.injEq] at found'
      subst found'
      rw [skipped] at ok
      cases ok
  · intro along
    obtain ⟨c, unskipped⟩ := run_unskipped wf begins run along
    exact c.allCompleted wf unskipped returned success

def answer (s : Execution V) : Option (ExecutionResult V × Option ContextError) :=
  match s.phase with
  | .returned result err => some (result, err)
  | _ => none

theorem phase_of_answer {result : ExecutionResult V} (answered : answer s = some (result, err)) :
    s.phase = .returned result err := by
  unfold answer at answered
  split at answered
  · rename_i phase
    cases answered
    exact phase
  · cases answered

def single : List GraphOp := [.addNodeWithID 1 "extract"]

theorem single_acyclic : Acyclic (graphAfter single).Adjacent :=
  (hasCycle_eq_false_iff (wellFormed_graphAfter single) ⟨ascending, ascending⟩).mp (by decide +kernel)

theorem single_skipped : ∃ s result, execute chainExecutor (ascendingOrder Nat) (graphAfter single)
        (.main :: .main :: .main :: .cancel .canceled ::
          List.replicate 3 (.goroutine 0 (none, none)) ++ [.main, .main]) = some s ∧
      s.phase = .returned result none ∧ result.Success = true ∧
      ¬ AllCompleted (graphAfter single) result.Results := by
  have ran : ((execute chainExecutor (ascendingOrder Nat) (graphAfter single)
        (.main :: .main :: .main :: .cancel .canceled ::
          replicate 3 (.goroutine 0 (none, none)) ++ [.main, .main])).bind answer).map
        (fun r => (r.1.Success, r.1.Results.lookup 1, r.2)) =
      some (true, some (cancelledResult ⟨1, "extract", ∅⟩), none) := by
    decide +kernel
  obtain ⟨⟨result, err⟩, answered, values⟩ := map_eq_some_iff.mp ran
  obtain ⟨s, run, answered⟩ := bind_eq_some_iff.mp answered
  simp only [Prod.mk.injEq] at values
  obtain ⟨success, found, rfl⟩ := values
  refine ⟨s, result, run, phase_of_answer answered, success, fun completed => ?_⟩
  obtain ⟨r, found', ok⟩ := completed 1 (by decide +kernel)
  rw [found, some.injEq] at found'
  subst found'
  cases ok

theorem single_allCompleted_iff : ∃ start,
    executeStart (ascendingOrder Nat) (graphAfter single) = .ok start ∧
      ∀ schedule s, runSchedule (executeStep chainExecutor (ascendingOrder Nat) (graphAfter single))
          start schedule = some s →
        ∀ result, s.phase = .returned result none → result.Success = true →
          (AllCompleted (graphAfter single) result.Results ↔
            Along (executeStep chainExecutor (ascendingOrder Nat) (graphAfter single))
              (fun s a => ¬ SeesCancelled s a) start schedule) :=
  allCompleted_iff single chainExecutor (ascendingOrder Nat) single_acyclic

theorem run_uncancelled (wf : WellFormed g) (uncancelled : ∀ err, .cancel err ∉ schedule)
    (begins : executeStart order g = .ok start)
    (run : runSchedule (executeStep e order g) start schedule = some s) :
    Consistent e order g s ∧ s.ctx = none ∧ ∀ n, ¬ Skips s n := by
  have quiet : ∀ a ∈ schedule, ∀ err, a ≠ .cancel err := by
    rintro _ member err rfl
    exact uncancelled err member
  have live : s.ctx = none := by
    refine (run_invariant_along wf (fun _ a => ∀ err, a ≠ .cancel err) (fun s => s.ctx = none)
      (fun _ => rfl) ?_ begins run (along_of_forall (fun a member _ => quiet a member) start)).2
    intro s a s' c live quiet next
    cases executeStep_move next with
    | cancel err _ => exact absurd rfl (quiet err)
    | join level phase here done => exact (joinLevel_frame e order g level s).2.2.1.trans live
    | _ => exact live
  obtain ⟨c, last⟩ := run_skipsLast wf begins run
  exact ⟨c, live, fun n skips => (last n skips).1 live⟩

def Executed (trace : List (Event V)) (id : UUID) : Prop :=
  ∃ n r, n.ID = id ∧ .ended n r ∈ trace ∧ r.Status ≠ .skipped

/-- Besides the executed nodes, the results hold exactly the unexecuted descendants of failed
nodes, as skipped. -/
structure SkipsDescendants (g : Graph) (trace : List (Event V))
    (results : GoMap UUID (NodeResult V)) : Prop where
  executed : ∀ id, Executed trace id → id ∈ results
  skipped : ∀ id, (∃ r, results.lookup id = some r ∧ r.Status = .skipped) ↔
    id ∈ g.nodes ∧ ¬ Executed trace id ∧
      ∃ m r, results.lookup m = some r ∧ r.Status = .failed ∧ TransGen g.Adjacent m id

theorem Logged.answered_of_failed (logged : Logged e n pc log result) (ended : .ended m r ∈ log)
    (failed : r.Status = .failed) : ∃ outcome, .answered n outcome ∈ log ∧ outcome.2 ≠ none := by
  obtain ⟨rfl, rfl⟩ := logged.ended ended
  cases logged with
  | done answer =>
    cases answer with
    | unhandled unknown => cases failed
    | handled outcome =>
      refine ⟨outcome, by simp, fun clean => ?_⟩
      rcases outcome with ⟨output, _ | err⟩
      · cases failed
      · cases clean
  | skipped => cases failed

namespace Consistent

theorem result_ended (c : Consistent e order g s) {id : UUID} (found : s.results.lookup id = some r) :
    ∃ n, n.ID = id ∧ .ended n r ∈ s.trace := by
  obtain ⟨k, less, n, atK, rfl⟩ := c.results id (Finmap.mem_of_lookup_eq_some found)
  obtain ⟨i, here⟩ := c.past_done atK less
  obtain ⟨r', recorded, ended⟩ := (c.logged i n .done here).of_done
  rw [c.past_result atK less, found, some.injEq] at recorded
  exact ⟨n, rfl, recorded ▸ (mem_history.mp ended).1⟩

theorem child_not_executed (c : Consistent e order g s) (policy : e.policy = .failFast)
    (returned : Returned s) {id : UUID} (ended : .ended n r ∈ s.trace) (failed : r.Status = .failed)
    (edge : g.Adjacent n.ID id) : ¬ Executed s.trace id := by
  rintro ⟨m, r', rfl, endedM, _⟩
  obtain ⟨_, m', k, atK, same, last⟩ :=
    c.failFast policy n.ID r (c.returned_ended returned ended) failed
  obtain ⟨j, less, atJ⟩ := c.past_level returned.not_inLevel (c.events _ endedM)
  have := c.leveled.ancestor_lt atK atJ (by rw [same]; exact .single edge)
  omega

end Consistent

theorem skipsDescendants_iff (ops : List GraphOp) (e : DAGExecutor W V) (order : ExecuteOrder V)
    (acyclic : Acyclic (graphAfter ops).Adjacent) (policy : e.policy = .failFast) :
    ∃ start, executeStart order (graphAfter ops) = .ok start ∧
      ∀ schedule s, runSchedule (executeStep e order (graphAfter ops)) start schedule = some s →
        (∀ err, .cancel err ∉ schedule) → ∀ result err, s.phase = .returned result err →
          (∃ id r, result.Results.lookup id = some r ∧ r.Status = .failed) →
            (SkipsDescendants (graphAfter ops) s.trace result.Results ↔
              ∀ n outcome, .answered n outcome ∈ s.trace → outcome.2 ≠ none →
                ∀ id, ¬ (graphAfter ops).Adjacent n.ID id) := by
  have wf := wellFormed_graphAfter ops
  obtain ⟨levels, computed, leveled, begins⟩ := executeStart_ok wf order acyclic
  refine ⟨_, begins, fun schedule s run uncancelled result err phase _ => ?_⟩
  obtain ⟨c, _, unskipped⟩ := run_uncancelled wf uncancelled begins run
  have returned : Returned s := ⟨_, _, phase⟩
  obtain ⟨rfl, _⟩ := c.verdict result err phase
  -- nothing is ever recorded as skipped
  have noSkip (id : UUID) : ¬ ∃ r, s.results.lookup id = some r ∧ r.Status = .skipped := by
    rintro ⟨r, found, skipped⟩
    obtain ⟨n, _, ended⟩ := c.result_ended found
    exact unskipped n (.inr ⟨r, ended, skipped⟩)
  constructor
  · rintro ⟨_, skipped⟩ n outcome answered fails id edge
    obtain ⟨k, less, atK⟩ := c.past_level returned.not_inLevel (c.events _ answered)
    have ended := c.answered_ended answered atK less
    have failed : (handledResult n outcome).Status = .failed := by
      rcases outcome with ⟨output, _ | err⟩
      · exact absurd rfl fails
      · rfl
    exact noSkip id ((skipped id).mpr ⟨wf.target _ _ edge,
      c.child_not_executed policy returned ended failed edge,
      n.ID, _, c.returned_ended returned ended, failed, .single edge⟩)
  · intro leaf
    refine ⟨?_, fun id => ⟨fun skip => (noSkip id skip).elim, ?_⟩⟩
    · rintro id ⟨n, r, rfl, ended, _⟩
      exact Finmap.mem_of_lookup_eq_some (c.returned_ended returned ended)
    · rintro ⟨_, _, m, r, found, failed, path⟩
      obtain ⟨n, rfl, ended⟩ := c.result_ended found
      obtain ⟨_, _, _, logged, member⟩ := c.event_goroutine ended
      obtain ⟨outcome, answered, fails⟩ := logged.answered_of_failed member failed
      obtain ⟨child, edge, _⟩ := TransGen.head'_iff.mp path
      exact (leaf n outcome (mem_history.mp answered).1 fails child edge).elim

theorem chain_dependent_missing : ∃ s result,
    execute chainExecutor (ascendingOrder Nat) (graphAfter chain)
        (levelSchedule 0 (none, some (.str "no source"))) = some s ∧
      s.phase = .returned result none ∧
      (∃ id r, result.Results.lookup id = some r ∧ r.Status = .failed) ∧
      ¬ SkipsDescendants (graphAfter chain) s.trace result.Results := by
  let extract : Node := ⟨1, "extract", ∅⟩
  let failure : NodeResult Nat := ⟨1, "extract", .failed, .str "no source", none⟩
  have ran : (execute chainExecutor (ascendingOrder Nat) (graphAfter chain)
        (levelSchedule 0 (none, some (.str "no source")))).bind (fun s => (answer s).map fun r =>
          (s.trace, r.1.Results.lookup 1, r.1.Results.lookup 2, r.2)) =
      some ([.started extract (5 * minute) ∅, .answered extract (none, some (.str "no source")),
        .ended extract failure], some failure, none, none) := by
    decide +kernel
  obtain ⟨s, run, values⟩ := bind_eq_some_iff.mp ran
  obtain ⟨⟨result, err⟩, answered, values⟩ := map_eq_some_iff.mp values
  simp only [Prod.mk.injEq] at values
  obtain ⟨trace, found, absent, rfl⟩ := values
  refine ⟨s, result, run, phase_of_answer answered, ⟨1, failure, found, rfl⟩, fun skips => ?_⟩
  have unexecuted : ¬ Executed s.trace 2 := by
    rintro ⟨n, r, same, ended, _⟩
    rw [trace] at ended
    simp only [mem_cons, reduceCtorEq, Event.ended.injEq, not_mem_nil, or_false, false_or] at ended
    rw [ended.1] at same
    cases same
  obtain ⟨r, found', _⟩ := (skips.skipped 2).mpr
    ⟨by decide +kernel, unexecuted, 1, failure, found, rfl, .single chain_edge⟩
  rw [absent] at found'
  cases found'

theorem chain_skipsDescendants_iff : ∃ start,
    executeStart (ascendingOrder Nat) (graphAfter chain) = .ok start ∧
      ∀ schedule s, runSchedule (executeStep chainExecutor (ascendingOrder Nat) (graphAfter chain))
          start schedule = some s →
        (∀ err, .cancel err ∉ schedule) → ∀ result err, s.phase = .returned result err →
          (∃ id r, result.Results.lookup id = some r ∧ r.Status = .failed) →
            (SkipsDescendants (graphAfter chain) s.trace result.Results ↔
              ∀ n outcome, .answered n outcome ∈ s.trace → outcome.2 ≠ none →
                ∀ id, ¬ (graphAfter chain).Adjacent n.ID id) :=
  skipsDescendants_iff chain chainExecutor (ascendingOrder Nat) chain_acyclic rfl

end NexusPipe.Proof.Dag
