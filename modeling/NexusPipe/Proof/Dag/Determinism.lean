import NexusPipe.Library.List
import NexusPipe.Proof.Dag.ExecutionResults

namespace NexusPipe.Proof.Dag
open NexusPipe.Dag Library List

variable {W V : Type} {e : DAGExecutor W V} {order : ExecuteOrder V} {g : Graph} {s : Execution V}

def Deterministic (e : DAGExecutor W V) : Prop :=
  ∀ name handler, e.handlers.lookup name = some handler →
    ∀ world world' timeout n inputs,
      handler world timeout n inputs = handler world' timeout n inputs

inductive Yields (e : DAGExecutor W V) (n : Node) : NodeResult V → Prop
  | unhandled (unknown : n.Name ∉ e.handlers) : Yields e n (unhandledResult n)
  | handled (handler : NodeHandler W V) (world : W) (found : e.handlers.lookup n.Name = some handler) :
      Yields e n (handledResult n (handler world (e.resolveTimeout n) n ∅))

variable {n : Node} {r : NodeResult V}

theorem Yields.unique (deterministic : Deterministic e) (yields : Yields e n r)
    (yields' : Yields e n r') : r = r' := by
  cases yields with
  | unhandled unknown =>
    cases yields' with
    | unhandled _ => rfl
    | handled _ _ found => exact absurd (Finmap.mem_of_lookup_eq_some found) unknown
  | handled handler world found =>
    cases yields' with
    | unhandled unknown => exact absurd (Finmap.mem_of_lookup_eq_some found) unknown
    | handled handler' world' found' =>
      rw [found, Option.some.injEq] at found'
      subst found'
      rw [deterministic n.Name handler found world world']

structure Undisturbed (s : Execution V) : Prop where
  live : s.ctx = none
  clean : ∀ result err, s.phase = .returned result err → err = none
  level : InLevel s → s.joined < s.levels.length

variable {s' : Execution V}

theorem joinLevel_phase (e : DAGExecutor W V) (order : ExecuteOrder V) (g : Graph)
    (level : List Node) (s : Execution V) : (joinLevel e order g level s).joined = s.joined + 1 ∧
      ((joinLevel e order g level s).phase = .checking ∨
        ∃ result, (joinLevel e order g level s).phase = .returned result none) := by
  dsimp only [joinLevel]
  split_ifs
  · exact ⟨rfl, .inr ⟨_, rfl⟩⟩
  · exact ⟨rfl, .inr ⟨_, rfl⟩⟩
  · exact ⟨rfl, .inl rfl⟩

theorem Undisturbed.step (u : Undisturbed s) (move : Move e order g s a s')
    (quiet : ∀ err, a ≠ .cancel err) : Undisturbed s' := by
  cases move with
  | cancel err live => exact absurd rfl (quiet err)
  | finish phase ended =>
    refine ⟨u.live, fun _ _ returned => ?_, by simp [InLevel]⟩
    cases returned
    rfl
  | stop err phase cancelled =>
    rw [u.live] at cancelled
    cases cancelled
  | enter level phase here live =>
    exact ⟨u.live, by simp, fun _ => (List.getElem?_eq_some_iff.mp here).1⟩
  | spawn n todo phase | wait phase =>
    exact ⟨u.live, by simp, fun _ => u.level (.inr ⟨_, phase⟩)⟩
  | join level phase here done =>
    obtain ⟨_, _, ctx, _, outside⟩ := joinLevel_frame e order g level s
    refine ⟨ctx.trans u.live, fun result err returned => ?_, fun inside => absurd inside outside⟩
    rcases (joinLevel_phase e order g level s).2 with checking | ⟨result', ended⟩
    · rw [checking] at returned
      cases returned
    · rw [ended] at returned
      cases returned
      rfl
  | goroutine i world nodeOutputs here moves => exact ⟨u.live, u.clean, u.level⟩

theorem run_undisturbed (wf : WellFormed g) (uncancelled : ∀ err, .cancel err ∉ schedule)
    (begins : executeStart order g = .ok start)
    (run : runSchedule (executeStep e order g) start schedule = some s) :
    Consistent e order g s ∧ Undisturbed s := by
  have quiet : ∀ a ∈ schedule, ∀ err, a ≠ .cancel err := by
    rintro _ member err rfl
    exact uncancelled err member
  apply run_invariant_along wf (fun _ a => ∀ err, a ≠ .cancel err) Undisturbed ?_ ?_ begins run
    (along_of_forall (fun a member _ => quiet a member) start)
  · exact fun levels => ⟨rfl, by simp, by simp [InLevel]⟩
  · exact fun s a s' c u quiet next => u.step (executeStep_move next) quiet

def pcRank : Pc V → Nat
  | .spawned => 6
  | .collected _ => 5
  | .executing _ => 4
  | .invoked _ => 3
  | .finished _ => 2
  | .stored _ => 1
  | .skipping => 1
  | .done => 0

def ahead (s : Execution V) (k : Nat) : Nat :=
  ((s.levels.drop k).map fun level => 7 * level.length + 3).sum

def phaseRank (s : Execution V) : Nat :=
  match s.phase with
  | .checking => ahead s s.joined + 1
  | .spawning todo => 7 * todo.length + 3 + ahead s (s.joined + 1)
  | .waiting => ahead s (s.joined + 1) + 2
  | .returned _ _ => 0

def executionRank (s : Execution V) : Nat :=
  phaseRank s + (s.goroutines.map fun t => pcRank t.2).sum

theorem ahead_eq (here : s.levels[k]? = some level) :
    ahead s k = 7 * level.length + 3 + ahead s (k + 1) := by
  obtain ⟨bound, rfl⟩ := List.getElem?_eq_some_iff.mp here
  rw [ahead, drop_eq_getElem_cons bound]
  rfl

variable {result : Option (NodeResult V)}

theorem LocalStep.pcRank_lt (moves : LocalStep e ctx n pc pc' shown result) :
    pcRank pc' < pcRank pc := by
  cases moves <;> simp [pcRank]

theorem executionRank_lt (move : Move e order g s a s') (quiet : ∀ err, a ≠ .cancel err) :
    executionRank s' < executionRank s := by
  cases move with
  | cancel err live => exact absurd rfl (quiet err)
  | finish phase | stop err phase => simp [executionRank, phaseRank, phase]
  | enter level phase here live =>
    simp only [executionRank, phaseRank, phase, ahead_eq here]
    simp only [ahead]
    omega
  | spawn n todo phase =>
    simp only [executionRank, phaseRank, phase, map_append, sum_append,
      length_cons, map_cons, map_nil, sum_singleton, pcRank]
    simp only [ahead]
    omega
  | wait phase =>
    simp only [executionRank, phaseRank, phase, ahead, length_nil]
    omega
  | join level phase here done =>
    obtain ⟨levels, goroutines, _, _, _⟩ := joinLevel_frame e order g level s
    obtain ⟨joined, checking | ⟨result, returned⟩⟩ := joinLevel_phase e order g level s
    · simp only [executionRank, phaseRank, phase, checking, goroutines, joined, ahead, levels]
      omega
    · simp only [executionRank, phaseRank, phase, returned, goroutines]
      omega
  | @goroutine i world n pc pc' shown result nodeOutputs here moves =>
    have sums := sum_map_set (fun t => pcRank t.2) here (n, pc')
    have less := moves.pcRank_lt
    refine Nat.add_lt_add_left ?_ _
    dsimp only at sums ⊢
    omega

theorem Logged.known (logged : Logged e n (.invoked inputs) log result) : n.Name ∈ e.handlers := by
  cases logged
  assumption

theorem Consistent.goroutine_enabled (c : Consistent e order g s) (world : W)
    (here : s.goroutines[i]? = some (n, pc)) (busy : pc ≠ .done) :
    (executeStep e order g s (.goroutine i world)).isSome := by
  have steps : (goroutineStep e world n s pc).isSome := by
    cases pc with
    | done => exact absurd rfl busy
    | invoked inputs =>
      obtain ⟨handler, found⟩ := Finmap.mem_iff.mp (c.logged i n _ here).known
      simp [goroutineStep, found]
    | executing inputs => by_cases known : n.Name ∈ e.handlers <;> simp [goroutineStep, known]
    | _ => rfl
  simpa [executeStep, here] using steps

theorem Consistent.enabled (c : Consistent e order g s) (u : Undisturbed s) (world : W)
    (live : ¬ Returned s) :
    ∃ a, (∀ err, a ≠ Action.cancel err) ∧ (executeStep e order g s a).isSome := by
  cases phase : s.phase with
  | checking =>
    refine ⟨.main, by simp, ?_⟩
    cases here : s.levels[s.joined]? <;> simp [executeStep, mainStep, phase, here, u.live]
  | spawning todo =>
    refine ⟨.main, by simp, ?_⟩
    cases todo <;> simp [executeStep, mainStep, phase]
  | waiting =>
    by_cases done : ∀ t ∈ s.goroutines, t.2 = .done
    · refine ⟨.main, by simp, ?_⟩
      have bound := u.level (.inl phase)
      have here := getElem?_eq_getElem bound
      simp only [executeStep, mainStep, phase, here]
      split_ifs with finished
      · rfl
      · refine absurd (all_eq_true.mpr fun t member => ?_) finished
        rw [done t member]
    · push Not at done
      obtain ⟨⟨n, pc⟩, present, busy⟩ := done
      obtain ⟨i, here⟩ := mem_iff_getElem?.mp present
      exact ⟨.goroutine i world, by simp, c.goroutine_enabled world here busy⟩
  | returned result err => exact absurd ⟨result, err, phase⟩ live

theorem run_returns [Nonempty W] (c : Consistent e order g s) (u : Undisturbed s) :
    ∃ schedule s', (∀ err, Action.cancel err ∉ schedule) ∧
      runSchedule (executeStep e order g) s schedule = some s' ∧ Returned s' := by
  obtain ⟨world⟩ := ‹Nonempty W›
  have progress (s : Execution V) (holds : Consistent e order g s ∧ Undisturbed s)
      (live : ¬ Returned s) : ∃ a s', (∀ err, a ≠ Action.cancel err) ∧
        executeStep e order g s a = some s' ∧
        (Consistent e order g s' ∧ Undisturbed s') ∧ executionRank s' < executionRank s := by
    obtain ⟨a, quiet, enabled⟩ := holds.1.enabled holds.2 world live
    obtain ⟨s', next⟩ := Option.isSome_iff_exists.mp enabled
    have move := executeStep_move next
    exact ⟨a, s', quiet, next, ⟨holds.1.step move, holds.2.step move quiet⟩,
      executionRank_lt move quiet⟩
  obtain ⟨schedule, s', allowed, run, returned⟩ :=
    exists_run_to_goal _ _ Returned executionRank progress ⟨c, u⟩
  exact ⟨schedule, s', fun err member => allowed _ member err rfl, run, returned⟩

theorem Leveled.atLevel_congr (leveled : Leveled g levels) (leveled' : Leveled g levels')
    (atK : AtLevel levels k n) : AtLevel levels' k n := by
  have member := (leveled'.members n).mpr (leveled.node_of_atLevel atK)
  obtain ⟨level', here, inside⟩ := mem_flatten.mp member
  obtain ⟨k', found⟩ := mem_iff_getElem?.mp here
  obtain ⟨level, there, inside'⟩ := atK
  obtain rfl := (leveled.height k level n there inside').unique
    (leveled'.height k' level' n found inside)
  exact ⟨level', found, inside⟩

theorem Answered.yields {result : NodeResult V} (answer : Answered e n result log) :
    Yields e n result := by
  cases answer with
  | unhandled unknown => exact .unhandled unknown
  | handled outcome answers =>
    obtain ⟨handler, world, found, rfl⟩ := answers
    exact .handled handler world found

namespace Consistent

theorem result_yields (c : Consistent e order g s) (unskipped : ∀ n, ¬ Skips s n)
    (atK : AtLevel s.levels k n) (less : k < s.joined) :
    ∃ r, s.results.lookup n.ID = some r ∧ Yields e n r ∧
      (r.Status = .completed ∨ r.Status = .failed) := by
  obtain ⟨i, here⟩ := c.past_done atK less
  have logged := c.logged i n .done here
  rw [c.past_result atK less] at logged
  generalize found : s.results.lookup n.ID = result at logged
  generalize shown : history n.ID s.trace = log at logged
  cases logged with
  | done answer => exact ⟨_, rfl, answer.yields, answer.ran⟩
  | skipped =>
    have ended : .ended n (cancelledResult n) ∈ history n.ID s.trace := by simp [shown]
    exact absurd (.inr ⟨_, (mem_history.mp ended).1, rfl⟩) (unskipped n)

section
variable {order' : ExecuteOrder V} (deterministic : Deterministic e) (c : Consistent e order g s)
  (unskipped : ∀ n, ¬ Skips s n) (c' : Consistent e order' g s') (u' : Undisturbed s')
  (unskipped' : ∀ n, ¬ Skips s' n) (returned' : Returned s')
include deterministic c unskipped c' u' unskipped' returned'

theorem joined_le (atK : AtLevel s.levels k n) (less : k < s.joined) : k < s'.joined := by
  by_contra beyond
  obtain ⟨result, err, phase⟩ := returned'
  obtain ⟨level, there, _⟩ := c.leveled.atLevel_congr c'.leveled atK
  have inside : k < s'.levels.length := (List.getElem?_eq_some_iff.mp there).1
  rcases (c'.verdict result err phase).2 (u'.clean result err phase) with
    all | ⟨policy, id, r, found, failed⟩
  · omega
  · -- the level that stopped the other run stops this one too
    obtain ⟨_, m, j, atJ, rfl, last⟩ := c'.failFast policy id r found failed
    have atJ' := c'.leveled.atLevel_congr c.leveled atJ
    obtain ⟨r', found', yields', _⟩ := c.result_yields unskipped atJ' (by omega)
    obtain ⟨r'', found'', yields'', _⟩ := c'.result_yields unskipped' atJ (by omega)
    rw [found, Option.some.injEq] at found''
    subst found''
    rw [yields''.unique deterministic yields'] at failed
    obtain ⟨_, m', j', atJ'', same, last'⟩ := c.failFast policy m.ID r' found' failed
    cases c.leveled.eq_of_ID atJ'' atJ' same
    have := c.leveled.atLevel_unique atJ'' atJ'
    omega

theorem results_le {id : UUID} (found : s.results.lookup id = some r) :
    s'.results.lookup id = some r := by
  obtain ⟨k, less, n, atK, rfl⟩ := c.results id (Finmap.mem_of_lookup_eq_some found)
  obtain ⟨r₁, found₁, yields₁, _⟩ := c.result_yields unskipped atK less
  have less' := c.joined_le deterministic unskipped c' u' unskipped' returned' atK less
  obtain ⟨r₂, found₂, yields₂, _⟩ :=
    c'.result_yields unskipped' (c.leveled.atLevel_congr c'.leveled atK) less'
  rw [found] at found₁
  cases found₁
  rw [found₂, yields₂.unique deterministic yields₁]

end

theorem covers (wf : WellFormed g) (c : Consistent e order g s) (u : Undisturbed s)
    (unskipped : ∀ n, ¬ Skips s n) (policy : e.policy = .continueOnFailure) (returned : Returned s)
    (id : UUID) : (id ∈ s.results ↔ id ∈ g.nodes) ∧
      ∀ r, s.results.lookup id = some r → r.Status = .completed ∨ r.Status = .failed := by
  constructor
  · constructor
    · intro written
      obtain ⟨k, _, n, atK, rfl⟩ := c.results id written
      exact Finmap.mem_of_lookup_eq_some (c.leveled.node_of_atLevel atK)
    · intro isNode
      obtain ⟨result, err, phase⟩ := returned
      obtain ⟨n, k, rfl, atK⟩ := c.leveled.exists_atLevel wf isNode
      obtain ⟨level, here, inside⟩ := atK
      have bound := (List.getElem?_eq_some_iff.mp here).1
      rcases (c.verdict result err phase).2 (u.clean result err phase) with all | ⟨failFast, _⟩
      · obtain ⟨r, found, _⟩ := c.result_yields unskipped ⟨level, here, inside⟩ (by omega)
        exact Finmap.mem_of_lookup_eq_some found
      · rw [policy] at failFast
        cases failFast
  · intro r found
    obtain ⟨k, less, n, atK, rfl⟩ := c.results id (Finmap.mem_of_lookup_eq_some found)
    obtain ⟨r', found', _, status⟩ := c.result_yields unskipped atK less
    rw [found, Option.some.injEq] at found'
    exact found' ▸ status

end Consistent

def Completes (e : DAGExecutor W V) (g : Graph) (results : GoMap UUID (NodeResult V)) : Prop :=
  ∃ order start schedule s result err, executeStart order g = .ok start ∧
    (∀ err, Action.cancel err ∉ schedule) ∧
    runSchedule (executeStep e order g) start schedule = some s ∧
    s.phase = .returned result err ∧ result.Results = results

theorem Completes.final (wf : WellFormed g) {results : GoMap UUID (NodeResult V)}
    (completes : Completes e g results) : ∃ order s, Consistent e order g s ∧ Undisturbed s ∧
      (∀ n, ¬ Skips s n) ∧ Returned s ∧ s.results = results := by
  obtain ⟨order, start, schedule, s, result, err, begins, uncancelled, run, phase, rfl⟩ := completes
  obtain ⟨c, u⟩ := run_undisturbed wf uncancelled begins run
  obtain ⟨_, _, unskipped⟩ := run_uncancelled wf uncancelled begins run
  obtain ⟨rfl, _⟩ := c.verdict result err phase
  exact ⟨order, s, c, u, unskipped, ⟨_, _, phase⟩, rfl⟩

/-- Without cancellation every run of `Execute` can be completed, and the results are the same for
all orders and schedules. -/
structure ResultsDetermined (e : DAGExecutor W V) (g : Graph) : Prop where
  returns : ∀ order, ∃ start, executeStart order g = .ok start ∧
    ∀ schedule s, (∀ err, Action.cancel err ∉ schedule) →
      runSchedule (executeStep e order g) start schedule = some s →
        ∃ more s', (∀ err, Action.cancel err ∉ more) ∧
          runSchedule (executeStep e order g) s more = some s' ∧ Returned s'
  same : ∀ results results', Completes e g results → Completes e g results' → results = results'
  covers : e.policy = .continueOnFailure → ∀ results, Completes e g results →
    ∀ id, (id ∈ results ↔ id ∈ g.nodes) ∧
      ∀ r, results.lookup id = some r → r.Status = .completed ∨ r.Status = .failed

theorem results_determined [Nonempty W] (ops : List GraphOp) (e : DAGExecutor W V)
    (acyclic : Acyclic (graphAfter ops).Adjacent) (deterministic : Deterministic e) :
    ResultsDetermined e (graphAfter ops) := by
  have wf := wellFormed_graphAfter ops
  constructor
  · intro order
    obtain ⟨levels, computed, leveled, begins⟩ := executeStart_ok wf order acyclic
    refine ⟨_, begins, fun schedule s uncancelled run => ?_⟩
    obtain ⟨c, u⟩ := run_undisturbed wf uncancelled begins run
    exact run_returns c u
  · intro results results' completes completes'
    obtain ⟨order, s, c, u, unskipped, returned, rfl⟩ := completes.final wf
    obtain ⟨order', s', c', u', unskipped', returned', rfl⟩ := completes'.final wf
    apply Finmap.ext_lookup
    intro id
    apply Option.ext
    intro r
    constructor
    · exact c.results_le deterministic unskipped c' u' unskipped' returned'
    · exact c'.results_le deterministic unskipped' c u unskipped returned
  · intro policy results completes
    obtain ⟨order, s, c, u, unskipped, returned, rfl⟩ := completes.final wf
    exact c.covers wf u unskipped policy returned

def steady : DAGExecutor Int Int :=
  ((newDAGExecutor Int Int).registerHandler "extract" fun _ timeout _ _ => (some timeout, none))
    |>.registerHandler "load" fun _ _ _ _ => (none, some (.str "no target"))

theorem steady_deterministic : Deterministic steady := by
  intro name handler found clock clock' timeout n inputs
  simp only [steady, DAGExecutor.registerHandler, newDAGExecutor, GoMap.lookup_insert_eq,
    Finmap.lookup_empty] at found
  split_ifs at found <;> cases found <;> rfl

theorem steady_results_determined : ResultsDetermined steady (graphAfter chain) :=
  results_determined chain steady chain_acyclic steady_deterministic

end NexusPipe.Proof.Dag
