import NexusPipe.Dag.Executor
import NexusPipe.Library.List
import NexusPipe.Proof.Dag.Levels

namespace NexusPipe.Proof.Dag
open NexusPipe.Dag Library List

variable {W V : Type}

/-! ## Steps -/

theorem collectInputs_empty (n : Node) (nodeOutputs : GoMap UUID V) :
    collectInputs n nodeOutputs = ∅ := rfl

def AnsweredBy (e : DAGExecutor W V) (n : Node) (inputs : GoMap UUID V) (outcome : Outcome V) :
    Prop :=
  ∃ handler world, e.handlers.lookup n.Name = some handler ∧
    outcome = handler world (e.resolveTimeout n) n inputs

inductive LocalStep (e : DAGExecutor W V) (ctx : Option ContextError) (n : Node) :
    Pc V → Pc V → Option (Event V) → Option (NodeResult V) → Prop
  | collect : LocalStep e ctx n .spawned (.collected ∅) none none
  | proceed (inputs : GoMap UUID V) (live : ctx = none) :
      LocalStep e ctx n (.collected inputs) (.executing inputs) none none
  | skip (inputs : GoMap UUID V) (ended : ctx ≠ none) :
      LocalStep e ctx n (.collected inputs) .skipping none none
  | call (inputs : GoMap UUID V) (known : n.Name ∈ e.handlers) :
      LocalStep e ctx n (.executing inputs) (.invoked inputs)
        (some (.started n (e.resolveTimeout n) inputs)) none
  | pass (inputs : GoMap UUID V) (unknown : n.Name ∉ e.handlers) :
      LocalStep e ctx n (.executing inputs) (.finished (unhandledResult n)) none none
  | answer (inputs : GoMap UUID V) (outcome : Outcome V) (answers : AnsweredBy e n inputs outcome) :
      LocalStep e ctx n (.invoked inputs) (.finished (handledResult n outcome))
        (some (.answered n outcome)) none
  | abandon : LocalStep e ctx n .skipping .done
      (some (.ended n (cancelledResult n))) (some (cancelledResult n))
  | store (result : NodeResult V) :
      LocalStep e ctx n (.finished result) (.stored result) none (some result)
  | retire (result : NodeResult V) :
      LocalStep e ctx n (.stored result) .done (some (.ended n result)) none

def write (levelResults : GoMap UUID (NodeResult V)) (id : UUID) :
    Option (NodeResult V) → GoMap UUID (NodeResult V)
  | none => levelResults
  | some result => levelResults.insert id result

inductive Move (e : DAGExecutor W V) (order : ExecuteOrder V) (g : Graph) (s : Execution V) :
    Action W → Execution V → Prop
  | cancel (err : ContextError) (live : s.ctx = none) :
      Move e order g s (.cancel err) { s with ctx := some err }
  | finish (phase : s.phase = .checking) (ended : s.levels[s.joined]? = none) :
      Move e order g s .main { s with phase := .returned (buildResult order g s.results) none }
  | stop (err : ContextError) (phase : s.phase = .checking) (cancelled : s.ctx = some err) :
      Move e order g s .main
        { s with phase := .returned (buildResult order g s.results) (some err) }
  | enter (level : List Node) (phase : s.phase = .checking)
      (here : s.levels[s.joined]? = some level) (live : s.ctx = none) :
      Move e order g s .main { s with phase := .spawning level, levelResults := ∅ }
  | spawn (n : Node) (todo : List Node) (phase : s.phase = .spawning (n :: todo)) :
      Move e order g s .main
        { s with phase := .spawning todo, goroutines := s.goroutines ++ [(n, .spawned)] }
  | wait (phase : s.phase = .spawning []) : Move e order g s .main { s with phase := .waiting }
  | join (level : List Node) (phase : s.phase = .waiting)
      (here : s.levels[s.joined]? = some level) (done : ∀ t ∈ s.goroutines, t.2 = .done) :
      Move e order g s .main (joinLevel e order g level s)
  | goroutine (i : Nat) (world : W) {n : Node} {pc pc' : Pc V} {shown : Option (Event V)}
      {result : Option (NodeResult V)} (nodeOutputs : GoMap UUID V)
      (here : s.goroutines[i]? = some (n, pc)) (moves : LocalStep e s.ctx n pc pc' shown result) :
      Move e order g s (.goroutine i world) { s with
        goroutines := s.goroutines.set i (n, pc')
        levelResults := write s.levelResults n.ID result
        nodeOutputs := nodeOutputs
        trace := s.trace ++ shown.toList }

variable {e : DAGExecutor W V} {order : ExecuteOrder V} {g : Graph} {s s' : Execution V} {n : Node}
  {pc : Pc V} {a : Action W}

theorem goroutineStep_local (next : goroutineStep e world n s pc = some (pc', s')) :
    ∃ shown result nodeOutputs, LocalStep e s.ctx n pc pc' shown result ∧
      s' = { s with
        levelResults := write s.levelResults n.ID result
        nodeOutputs := nodeOutputs
        trace := s.trace ++ shown.toList } := by
  have silent : s = { s with trace := s.trace ++ [] } := by simp
  cases pc with
  | spawned =>
    rw [goroutineStep, collectInputs_empty] at next
    cases next
    exact ⟨none, none, s.nodeOutputs, .collect, silent⟩
  | collected inputs =>
    simp only [goroutineStep, Option.isSome_iff_ne_none] at next
    split_ifs at next with live <;> cases next
    · exact ⟨none, none, s.nodeOutputs, .skip inputs live, silent⟩
    · exact ⟨none, none, s.nodeOutputs, .proceed inputs (not_not.mp live), silent⟩
  | executing inputs =>
    simp only [goroutineStep] at next
    split_ifs at next with known <;> cases next
    · exact ⟨_, none, s.nodeOutputs, .call inputs known, rfl⟩
    · exact ⟨none, none, s.nodeOutputs, .pass inputs known, silent⟩
  | invoked inputs =>
    simp only [goroutineStep] at next
    split at next <;> cases next
    exact ⟨_, none, s.nodeOutputs, .answer inputs _ ⟨_, _, ‹_›, rfl⟩, rfl⟩
  | skipping =>
    cases next
    exact ⟨_, _, s.nodeOutputs, .abandon, rfl⟩
  | finished result =>
    cases next
    exact ⟨none, some result, s.nodeOutputs, .store result, by simp [write]⟩
  | stored result =>
    cases next
    exact ⟨_, none, _, .retire result, rfl⟩
  | done => cases next

theorem mainStep_move (next : mainStep e order g s = some s') : Move e order g s .main s' := by
  unfold mainStep at next
  split at next
  · rename_i phase ended
    cases next
    exact .finish phase ended
  · rename_i level phase here
    split at next <;> cases next
    · exact .stop _ phase ‹_›
    · exact .enter level phase here ‹_›
  · cases next
    exact .spawn _ _ ‹_›
  · cases next
    exact .wait ‹_›
  · rename_i level phase here
    split_ifs at next with done
    cases next
    apply Move.join level phase here
    intro t member
    have ended := all_eq_true.mp done t member
    split at ended
    · assumption
    · cases ended
  · cases next
  · cases next

theorem executeStep_move (next : executeStep e order g s a = some s') : Move e order g s a s' := by
  cases a with
  | cancel err =>
    simp only [executeStep, Option.isNone_iff_eq_none] at next
    split_ifs at next with live
    cases next
    exact .cancel err live
  | main => exact mainStep_move next
  | goroutine i world =>
    simp only [executeStep] at next
    split at next
    · cases next
    · rename_i n pc here
      obtain ⟨⟨pc', s''⟩, moved, rfl⟩ := Option.map_eq_some_iff.mp next
      obtain ⟨shown, result, nodeOutputs, moves, rfl⟩ := goroutineStep_local moved
      exact .goroutine i world nodeOutputs here moves

/-! ## What a goroutine has done -/

def eventNode : Event V → Node
  | .started n _ _ => n
  | .answered n _ => n
  | .ended n _ => n

def history (id : UUID) (trace : List (Event V)) : List (Event V) :=
  trace.filter fun event => (eventNode event).ID = id

inductive Answered (e : DAGExecutor W V) (n : Node) : NodeResult V → List (Event V) → Prop
  | unhandled (unknown : n.Name ∉ e.handlers) : Answered e n (unhandledResult n) []
  | handled (outcome : Outcome V) (answers : AnsweredBy e n ∅ outcome) :
      Answered e n (handledResult n outcome)
        [.started n (e.resolveTimeout n) ∅, .answered n outcome]

inductive Logged (e : DAGExecutor W V) (n : Node) :
    Pc V → List (Event V) → Option (NodeResult V) → Prop
  | spawned : Logged e n .spawned [] none
  | collected : Logged e n (.collected ∅) [] none
  | executing : Logged e n (.executing ∅) [] none
  | invoked (known : n.Name ∈ e.handlers) :
      Logged e n (.invoked ∅) [.started n (e.resolveTimeout n) ∅] none
  | skipping : Logged e n .skipping [] none
  | finished (answer : Answered e n result log) : Logged e n (.finished result) log none
  | stored (answer : Answered e n result log) : Logged e n (.stored result) log (some result)
  | done {result : NodeResult V} {log : List (Event V)} (answer : Answered e n result log) :
      Logged e n .done (log ++ [.ended n result]) (some result)
  | skipped : Logged e n .done [.ended n (cancelledResult n)] (some (cancelledResult n))

variable {shown : Option (Event V)} {result : Option (NodeResult V)}

theorem LocalStep.node (moves : LocalStep e ctx n pc pc' shown result) :
    ∀ event ∈ shown, eventNode event = n := by
  cases moves <;> simp [eventNode]

theorem LocalStep.busy (moves : LocalStep e ctx n pc pc' shown result) : pc ≠ .done := by
  cases moves <;> simp

theorem Logged.step {recorded : Option (NodeResult V)} (logged : Logged e n pc log recorded)
    (moves : LocalStep e ctx n pc pc' shown result) :
    Logged e n pc' (log ++ shown.toList) (result.or recorded) := by
  cases moves with
  | collect => cases logged; exact .collected
  | proceed inputs live => cases logged; exact .executing
  | skip inputs ended => cases logged; exact .skipping
  | call inputs known => cases logged; exact .invoked known
  | pass inputs unknown => cases logged; exact .finished (.unhandled unknown)
  | answer inputs outcome answers => cases logged; exact .finished (.handled outcome answers)
  | abandon => cases logged; exact .skipped
  | store result =>
    cases logged with
    | finished answer => simpa using Logged.stored answer
  | retire result =>
    cases logged with
    | stored answer => exact .done answer

theorem Answered.named {result : NodeResult V} (answer : Answered e n result log) :
    result.NodeID = n.ID := by
  cases answer with
  | unhandled unknown => rfl
  | handled outcome => rcases outcome with ⟨_, _ | err⟩ <;> rfl

theorem Logged.named {result : NodeResult V} (logged : Logged e n pc log (some result)) :
    result.NodeID = n.ID := by
  cases logged with
  | stored answer | done answer => exact answer.named
  | skipped => rfl

/-! ## The whole execution -/

def AtLevel (levels : List (List Node)) (k : Nat) (n : Node) : Prop :=
  ∃ level, levels[k]? = some level ∧ n ∈ level

variable {levels : List (List Node)}

theorem mem_flatten_take : n ∈ (levels.take k).flatten ↔ ∃ i < k, AtLevel levels i n := by
  rw [mem_flatten]
  constructor
  · rintro ⟨level, member, inside⟩
    obtain ⟨i, here⟩ := mem_iff_getElem?.mp member
    rw [getElem?_take] at here
    split_ifs at here with small
    exact ⟨i, small, level, here, inside⟩
  · rintro ⟨i, small, level, here, inside⟩
    refine ⟨level, mem_iff_getElem?.mpr ⟨i, ?_⟩, inside⟩
    rw [getElem?_take, if_pos small, here]

def recorded (s : Execution V) (id : UUID) : Option (NodeResult V) :=
  (s.levelResults.lookup id).or (s.results.lookup id)

def past (s : Execution V) : List Node := (s.levels.take s.joined).flatten

def current (s : Execution V) : List Node := s.levels[s.joined]?.getD []

def Placed (s : Execution V) : Prop :=
  match s.phase with
  | .checking => s.goroutines.map Prod.fst = past s
  | .spawning todo => ∃ started,
      s.goroutines.map Prod.fst = past s ++ started ∧ started ++ todo = current s
  | .waiting => s.goroutines.map Prod.fst = past s ++ current s
  | .returned _ _ => s.goroutines.map Prod.fst = past s

def Returned (s : Execution V) : Prop := ∃ result err, s.phase = .returned result err

def InLevel (s : Execution V) : Prop := s.phase = .waiting ∨ ∃ todo, s.phase = .spawning todo

theorem not_returned (now : s.phase = phase) (live : ∀ result err, phase ≠ .returned result err) :
    ¬ Returned s := by
  rintro ⟨result, err, returned⟩
  exact live result err (now.symm.trans returned)

structure Consistent (e : DAGExecutor W V) (order : ExecuteOrder V) (g : Graph)
    (s : Execution V) : Prop where
  leveled : Leveled g s.levels
  placed : Placed s
  joined : ∀ (i : Nat) n (pc : Pc V) k, s.goroutines[i]? = some (n, pc) → AtLevel s.levels k n →
    k < s.joined → pc = .done
  logged : ∀ (i : Nat) n pc, s.goroutines[i]? = some (n, pc) →
    Logged e n pc (history n.ID s.trace) (recorded s n.ID)
  events : ∀ event ∈ s.trace, eventNode event ∈ s.goroutines.map Prod.fst
  levelResults : ∀ id ∈ s.levelResults,
    ∃ n ∈ s.goroutines.map Prod.fst, AtLevel s.levels s.joined n ∧ n.ID = id
  results : ∀ id ∈ s.results, ∃ k < s.joined, ∃ n, AtLevel s.levels k n ∧ n.ID = id
  failFast : e.policy = .failFast → ∀ id r, s.results.lookup id = some r → r.Status = .failed →
    Returned s ∧ ∃ n k, AtLevel s.levels k n ∧ n.ID = id ∧ s.joined = k + 1
  verdict : ∀ result err, s.phase = .returned result err →
    result = buildResult order g s.results ∧
      (err = none → s.levels.length ≤ s.joined ∨ e.policy = .failFast ∧
        ∃ id r, s.results.lookup id = some r ∧ r.Status = .failed)

theorem take_flatten_succ (levels : List (List Node)) (k : Nat) :
    (levels.take (k + 1)).flatten = (levels.take k).flatten ++ levels[k]?.getD [] := by
  rw [take_add_one, flatten_append]
  cases levels[k]? <;> simp

theorem atLevel_of_mem_current (member : n ∈ current s) : AtLevel s.levels s.joined n := by
  unfold current at member
  cases here : s.levels[s.joined]? with
  | none => simp [here] at member
  | some level => exact ⟨level, here, by simpa [here] using member⟩

variable {i : Nat}

theorem Leveled.atLevel_unique (leveled : Leveled g levels) (atI : AtLevel levels i n)
    (atJ : AtLevel levels j n) : i = j := by
  obtain ⟨level, hereI, inI⟩ := atI
  obtain ⟨level', hereJ, inJ⟩ := atJ
  exact (leveled.height i level n hereI inI).unique (leveled.height j level' n hereJ inJ)

theorem Leveled.node_of_atLevel (leveled : Leveled g levels) (atK : AtLevel levels k n) :
    g.node n.ID = some n := by
  obtain ⟨level, here, inside⟩ := atK
  exact (leveled.members n).mp
    (mem_flatten.mpr ⟨level, mem_of_getElem? here, inside⟩)

theorem Leveled.eq_of_ID (leveled : Leveled g levels) (atI : AtLevel levels i m)
    (atJ : AtLevel levels j n) (same : m.ID = n.ID) : m = n := by
  rw [← Option.some.injEq, ← leveled.node_of_atLevel atI, same, leveled.node_of_atLevel atJ]

theorem history_append_self (trace : List (Event V)) (about : ∀ event ∈ shown, eventNode event = n) :
    history n.ID (trace ++ shown.toList) = history n.ID trace ++ shown.toList := by
  rw [history, history, filter_append]
  congr 1
  cases shown with
  | none => rfl
  | some event => simp [about event rfl]

theorem history_append_other {m : Node} (trace : List (Event V))
    (about : ∀ event ∈ shown, eventNode event = n) (distinct : n.ID ≠ m.ID) :
    history m.ID (trace ++ shown.toList) = history m.ID trace := by
  rw [history, history, filter_append]
  cases shown with
  | none => simp
  | some event => simp [about event rfl, distinct]

theorem history_eq_nil {id : UUID} (absent : ∀ event ∈ trace, (eventNode event).ID ≠ id) :
    history id trace = [] := by
  rw [history, filter_eq_nil_iff]
  intro event member
  simpa using absent event member

theorem lookup_write (levelResults : GoMap UUID (NodeResult V)) (id id' : UUID)
    (result : Option (NodeResult V)) :
    (write levelResults id result).lookup id' =
      if id' = id then result.or (levelResults.lookup id') else levelResults.lookup id' := by
  cases result with
  | none => simp [write]
  | some r => simpa [write] using GoMap.lookup_insert_eq levelResults id id' r

theorem map_fst_set {goroutines : List (Node × Pc V)} (pc' : Pc V)
    (here : goroutines[i]? = some (n, pc)) :
    (goroutines.set i (n, pc')).map Prod.fst = goroutines.map Prod.fst := by
  apply ext_getElem?
  intro j
  by_cases same : i = j
  · rw [getElem?_map, getElem?_map, ← same, getElem?_set_of_found here, here]
    rfl
  · rw [getElem?_map, getElem?_map, getElem?_set_ne same]

theorem placed_congr (levels : s'.levels = s.levels)
    (joined : s'.joined = s.joined) (phase : s'.phase = s.phase)
    (spawned : s'.goroutines.map Prod.fst = s.goroutines.map Prod.fst) (placed : Placed s) :
    Placed s' := by
  unfold Placed past current at placed ⊢
  rwa [phase, levels, joined, spawned]

theorem hasFailed_iff {order : GoMap.RangeOrder UUID (NodeResult V)}
    {results : GoMap UUID (NodeResult V)} : hasFailed order results = true ↔
      ∃ id r, results.lookup id = some r ∧ r.Status = .failed := by
  rw [hasFailed, any_eq_true]
  constructor
  · rintro ⟨⟨id, r⟩, member, failed⟩
    exact ⟨id, r, (order results).mem_entries.mp member, of_decide_eq_true failed⟩
  · rintro ⟨id, r, found, failed⟩
    exact ⟨⟨id, r⟩, (order results).mem_entries.mpr found, decide_eq_true failed⟩

/-- Every result carries the ID of a node of the graph, so a failure is always critical and
`skipDependents` is never called. -/
theorem joinLevel_eq (e : DAGExecutor W V) (order : ExecuteOrder V) (g : Graph) (level : List Node)
    (known : ∀ id r, s.levelResults.lookup id = some r →
      (g.node r.NodeID).isSome) :
    ∃ results nodeOutputs, (∀ id, results.lookup id = recorded s id) ∧
      joinLevel e order g level s = { s with
        joined := s.joined + 1, levelResults := ∅, results := results, nodeOutputs := nodeOutputs
        phase := if hasFailed order.scan s.levelResults ∧ e.policy = .failFast then
            .returned (buildResult order g results) none
          else .checking } := by
  refine ⟨(order.merge s.levelResults).entries.foldl (fun m r => m.insert r.1 r.2) s.results,
    (order.merge s.levelResults).entries.foldl (fun m r => recordOutput m r.1 r.2) s.nodeOutputs,
    (order.merge s.levelResults).lookup_merge s.results, ?_⟩
  have critical : ((order.scan s.levelResults).entries.any fun r =>
      r.2.Status = .failed ∧ (g.node r.2.NodeID).isSome) = hasFailed order.scan s.levelResults := by
    rw [Bool.eq_iff_iff, hasFailed, any_eq_true, any_eq_true]
    refine exists_congr fun ⟨id, r⟩ => and_congr_right fun member => ?_
    simp [known id r ((order.scan s.levelResults).mem_entries.mp member)]
  by_cases stops : hasFailed order.scan s.levelResults ∧ e.policy = .failFast
  · simp only [joinLevel, critical, if_pos stops]
  · simp only [joinLevel, critical, if_neg stops]

theorem joinLevel_frame (e : DAGExecutor W V) (order : ExecuteOrder V) (g : Graph)
    (level : List Node) (s : Execution V) : (joinLevel e order g level s).levels = s.levels ∧
      (joinLevel e order g level s).goroutines = s.goroutines ∧
      (joinLevel e order g level s).ctx = s.ctx ∧
      (joinLevel e order g level s).trace = s.trace ∧ ¬ InLevel (joinLevel e order g level s) := by
  dsimp only [joinLevel]
  split_ifs <;> simp [InLevel]

namespace Consistent

section
variable (c : Consistent e order g s)
include c

theorem spawned : ∃ started, s.goroutines.map Prod.fst = past s ++ started ∧ started <+: current s ∧
      (InLevel s ∨ started = []) := by
  have placed := c.placed
  unfold Placed at placed
  split at placed
  · exact ⟨[], by simpa using placed, nil_prefix, .inr rfl⟩
  · obtain ⟨started, spawned, split⟩ := placed
    exact ⟨started, spawned, ⟨_, split⟩, .inl (.inr ⟨_, ‹_›⟩)⟩
  · exact ⟨_, placed, prefix_rfl, .inl (.inl ‹_›)⟩
  · exact ⟨[], by simpa using placed, nil_prefix, .inr rfl⟩

theorem spawned_prefix : s.goroutines.map Prod.fst <+: (s.levels.take (s.joined + 1)).flatten := by
  obtain ⟨started, spawned, inside, _⟩ := c.spawned
  rw [take_flatten_succ, spawned]
  exact (prefix_append_right_inj _).mpr inside

theorem past_level (out : ¬ InLevel s) (member : n ∈ s.goroutines.map Prod.fst) :
    ∃ k < s.joined, AtLevel s.levels k n := by
  obtain ⟨started, spawned, _, ended⟩ := c.spawned
  rw [spawned, ended.resolve_left out, append_nil] at member
  exact mem_flatten_take.mp member

theorem spawned_level (member : n ∈ s.goroutines.map Prod.fst) :
    ∃ k ≤ s.joined, AtLevel s.levels k n := by
  obtain ⟨k, small, atK⟩ := mem_flatten_take.mp (c.spawned_prefix.subset member)
  exact ⟨k, Nat.lt_succ_iff.mp small, atK⟩

theorem nodup : (s.goroutines.map fun t => t.1.ID).Nodup := by
  have unique : ((s.goroutines.map Prod.fst).map Node.ID).Nodup := by
    refine c.leveled.nodup.sublist (List.Sublist.map Node.ID ?_)
    exact c.spawned_prefix.sublist.trans (take_sublist _ _).flatten
  rwa [map_map] at unique

theorem same_goroutine (atI : s.goroutines[i]? = some t) (atJ : s.goroutines[j]? = some t')
    (same : t.1.ID = t'.1.ID) : i = j := by
  have bound : i < (s.goroutines.map fun t => t.1.ID).length := by
    rw [length_map]
    exact (List.getElem?_eq_some_iff.mp atI).1
  apply (getElem?_inj bound c.nodup).mp
  rw [getElem?_map, getElem?_map, atI, atJ, Option.map_some, Option.map_some, same]

theorem not_lt (atN : AtLevel s.levels s.joined n) (atK : AtLevel s.levels k n) :
    ¬ k < s.joined := by
  rw [c.leveled.atLevel_unique atN atK]
  exact Nat.lt_irrefl k

theorem busy (here : s.goroutines[i]? = some (n, pc)) (busy : pc ≠ .done) :
    AtLevel s.levels s.joined n := by
  obtain ⟨k, small, atK⟩ := c.spawned_level (mem_map_of_mem (mem_of_getElem? here))
  rcases Nat.lt_or_eq_of_le small with less | rfl
  · exact absurd (c.joined i n pc k here atK less) busy
  · exact atK

theorem goroutine (nodeOutputs : GoMap UUID V) (here : s.goroutines[i]? = some (n, pc))
    (moves : LocalStep e s.ctx n pc pc' shown result) :
    Consistent e order g { s with
      goroutines := s.goroutines.set i (n, pc')
      levelResults := write s.levelResults n.ID result
      nodeOutputs := nodeOutputs
      trace := s.trace ++ shown.toList } := by
  have atN := c.busy here moves.busy
  have spawned := map_fst_set pc' here
  have member : n ∈ s.goroutines.map Prod.fst := mem_map_of_mem (mem_of_getElem? here)
  refine ⟨c.leveled, placed_congr (s := s) rfl rfl rfl spawned c.placed, ?_, ?_, ?_, ?_, c.results,
    c.failFast, c.verdict⟩
  · intro j m pc'' k found atK less
    rcases getElem?_set_cases found with ⟨_, replaced⟩ | ⟨_, found⟩
    · cases replaced
      exact absurd less (c.not_lt atN atK)
    · exact c.joined j m pc'' k found atK less
  · intro j m pc'' found
    rcases getElem?_set_cases found with ⟨rfl, replaced⟩ | ⟨other, found⟩
    · cases replaced
      rw [history_append_self _ moves.node, recorded, lookup_write, if_pos rfl, Option.or_assoc]
      exact (c.logged j n pc here).step moves
    · have distinct : n.ID ≠ m.ID := fun equal => other (c.same_goroutine here found equal).symm
      rw [history_append_other _ moves.node distinct, recorded, lookup_write, if_neg distinct.symm]
      exact c.logged j m pc'' found
  · intro event shows
    rw [spawned]
    rcases mem_append.mp shows with old | new
    · exact c.events event old
    · rw [moves.node event (Option.mem_toList.mp new)]
      exact member
  · intro id written
    rw [spawned]
    by_cases same : id = n.ID
    · exact ⟨n, member, atN, same.symm⟩
    · rw [← Finmap.lookup_isSome, lookup_write, if_neg same, Finmap.lookup_isSome] at written
      exact c.levelResults id written

theorem no_levelResults (out : ¬ InLevel s) (id : UUID) : s.levelResults.lookup id = none := by
  rw [Finmap.lookup_eq_none]
  intro written
  obtain ⟨n, member, atN, _⟩ := c.levelResults id written
  obtain ⟨k, less, atK⟩ := c.past_level out member
  exact c.not_lt atN atK less

theorem failFast_of_live (live : ¬ Returned s) {P : UUID → Prop} (policy : e.policy = .failFast)
    (id : UUID) (r : NodeResult V) (found : s.results.lookup id = some r)
    (failed : r.Status = .failed) : P id :=
  absurd (c.failFast policy id r found failed).1 live

theorem enter (phase : s.phase = .checking) (here : s.levels[s.joined]? = some level) :
    Consistent e order g { s with phase := .spawning level, levelResults := ∅ } := by
  have placed := c.placed
  simp only [Placed, phase] at placed
  have empty := c.no_levelResults (by simp [InLevel, phase])
  refine ⟨c.leveled, ⟨[], ?_, ?_⟩, c.joined, ?_, c.events, ?_, c.results,
    c.failFast_of_live (not_returned phase (by simp)), ?_⟩
  · rw [append_nil]
    exact placed
  · simp [current, here]
  · intro i n pc found
    have logged := c.logged i n pc found
    rw [recorded, empty] at logged
    exact logged
  · intro id written
    exact absurd written (Finmap.notMem_empty)
  · intro result err returned
    cases returned

theorem fresh (spawned : s.goroutines.map Prod.fst = past s ++ started)
    (split : started ++ n :: todo = current s) : ∀ m ∈ s.goroutines.map Prod.fst, m.ID ≠ n.ID := by
  have whole : (s.goroutines.map Prod.fst ++ n :: todo).Sublist s.levels.flatten := by
    rw [spawned, append_assoc, split, past, current, ← take_flatten_succ]
    exact (take_sublist _ _).flatten
  have unique := c.leveled.nodup.sublist (whole.map Node.ID)
  rw [map_append, nodup_append] at unique
  exact fun m member => unique.2.2 m.ID (mem_map_of_mem member) n.ID (by simp)

theorem untouched (atN : AtLevel s.levels s.joined n)
    (fresh : ∀ m ∈ s.goroutines.map Prod.fst, m.ID ≠ n.ID) :
    Logged e n .spawned (history n.ID s.trace) (recorded s n.ID) := by
  have silent : history n.ID s.trace = [] :=
    history_eq_nil fun event member => fresh _ (c.events event member)
  have noLevelResult : s.levelResults.lookup n.ID = none := by
    rw [Finmap.lookup_eq_none]
    intro written
    obtain ⟨m, member, _, same⟩ := c.levelResults n.ID written
    exact fresh m member same
  have noResult : s.results.lookup n.ID = none := by
    rw [Finmap.lookup_eq_none]
    intro written
    obtain ⟨k, less, m, atK, same⟩ := c.results n.ID written
    cases c.leveled.eq_of_ID atK atN same
    exact c.not_lt atN atK less
  rw [silent, recorded, noLevelResult, noResult]
  exact .spawned

theorem spawn (phase : s.phase = .spawning (n :: todo)) :
    Consistent e order g
      { s with phase := .spawning todo, goroutines := s.goroutines ++ [(n, .spawned)] } := by
  have placed := c.placed
  simp only [Placed, phase] at placed
  obtain ⟨started, spawned, split⟩ := placed
  have atN : AtLevel s.levels s.joined n := by
    apply atLevel_of_mem_current
    rw [← split]
    exact mem_append_right started mem_cons_self
  refine ⟨c.leveled, ⟨started ++ [n], ?_, ?_⟩, ?_, ?_, ?_, ?_, c.results,
    c.failFast_of_live (not_returned phase (by simp)), ?_⟩
  · rw [map_append, spawned, append_assoc]
    rfl
  · rw [append_assoc]
    exact split
  · intro i m pc k found atK less
    rcases getElem?_concat_cases found with old | ⟨_, new⟩
    · exact c.joined i m pc k old atK less
    · cases new
      exact absurd less (c.not_lt atN atK)
  · intro i m pc found
    rcases getElem?_concat_cases found with old | ⟨_, new⟩
    · exact c.logged i m pc old
    · cases new
      exact c.untouched atN (c.fresh spawned split)
  · intro event member
    rw [map_append]
    exact mem_append_left _ (c.events event member)
  · intro id written
    obtain ⟨m, member, atM, same⟩ := c.levelResults id written
    rw [map_append]
    exact ⟨m, mem_append_left _ member, atM, same⟩
  · intro result err returned
    cases returned

theorem levelResult_known {id : UUID} (found : s.levelResults.lookup id = some r) :
    ∃ n, AtLevel s.levels s.joined n ∧ n.ID = id ∧ g.node r.NodeID = some n := by
  obtain ⟨n, member, atN, same⟩ := c.levelResults id (Finmap.mem_of_lookup_eq_some found)
  obtain ⟨⟨m, pc⟩, present, rfl⟩ := mem_map.mp member
  obtain ⟨i, here⟩ := mem_iff_getElem?.mp present
  have logged := c.logged i m pc here
  rw [recorded, same, found] at logged
  exact ⟨m, atN, same, by rw [logged.named, c.leveled.node_of_atLevel atN]⟩

theorem join (phase : s.phase = .waiting) (done : ∀ t ∈ s.goroutines, t.2 = .done) :
    Consistent e order g (joinLevel e order g level s) := by
  have known (id : UUID) (r : NodeResult V) (found : s.levelResults.lookup id = some r) :
      (g.node r.NodeID).isSome := by
    obtain ⟨n, _, _, isNode⟩ := c.levelResult_known found
    rw [isNode]
    rfl
  obtain ⟨results, nodeOutputs, merged, joined⟩ := joinLevel_eq e order g level known
  rw [joined]
  have placed := c.placed
  simp only [Placed, phase] at placed
  refine ⟨c.leveled, ?_, ?_, ?_, c.events, ?_, ?_, ?_, ?_⟩
  · rw [past, current, ← take_flatten_succ] at placed
    unfold Placed
    split_ifs <;> exact placed
  · intro i n pc k found _ _
    exact done (n, pc) (mem_of_getElem? found)
  · intro i n pc found
    have logged := c.logged i n pc found
    rw [← merged] at logged
    exact logged
  · intro id written
    exact absurd written Finmap.notMem_empty
  · intro id written
    obtain ⟨r, found⟩ := Finmap.mem_iff.mp written
    rw [merged, recorded, Option.or_eq_some_iff] at found
    rcases found with here | ⟨_, before⟩
    · obtain ⟨n, atN, same, _⟩ := c.levelResult_known here
      exact ⟨s.joined, Nat.lt_succ_self _, n, atN, same⟩
    · obtain ⟨k, less, n, atK, same⟩ := c.results id (Finmap.mem_of_lookup_eq_some before)
      exact ⟨k, Nat.lt_succ_of_lt less, n, atK, same⟩
  · intro policy id r found failed
    rw [merged, recorded, Option.or_eq_some_iff] at found
    rcases found with here | ⟨_, before⟩
    · have stops : hasFailed order.scan s.levelResults ∧ e.policy = .failFast :=
        ⟨hasFailed_iff.mpr ⟨id, r, here, failed⟩, policy⟩
      obtain ⟨n, atN, same, _⟩ := c.levelResult_known here
      exact ⟨⟨_, _, if_pos stops⟩, n, s.joined, atN, same, rfl⟩
    · exact absurd (c.failFast policy id r before failed).1 (not_returned phase (by simp))
  · intro result err returned
    dsimp only at returned
    split_ifs at returned with stops
    cases returned
    obtain ⟨id, r, found, failed⟩ := hasFailed_iff.mp stops.1
    refine ⟨rfl, fun _ => .inr ⟨stops.2, id, r, ?_, failed⟩⟩
    rw [merged, recorded, found]
    rfl

theorem returns (phase : s.phase = .checking) (ended : err = none → s.levels.length ≤ s.joined) :
    Consistent e order g { s with phase := .returned (buildResult order g s.results) err } := by
  have placed := c.placed
  simp only [Placed, phase] at placed
  refine ⟨c.leveled, placed, c.joined, c.logged, c.events, c.levelResults, c.results,
    c.failFast_of_live (not_returned phase (by simp)), ?_⟩
  intro result err' returned
  cases returned
  exact ⟨rfl, fun none => .inl (ended none)⟩

theorem step (move : Move e order g s a s') : Consistent e order g s' := by
  cases move with
  | cancel err live =>
    exact ⟨c.leveled, placed_congr (s := s) rfl rfl rfl rfl c.placed, c.joined, c.logged,
      c.events, c.levelResults, c.results, c.failFast, c.verdict⟩
  | finish phase ended =>
    exact c.returns phase fun _ => List.getElem?_eq_none_iff.mp ended
  | stop err phase cancelled =>
    exact c.returns phase fun none => by cases none
  | enter level phase here live => exact c.enter phase here
  | spawn n todo phase => exact c.spawn phase
  | wait phase =>
    have placed := c.placed
    simp only [Placed, phase] at placed
    obtain ⟨started, spawned, whole⟩ := placed
    refine ⟨c.leveled, ?_, c.joined, c.logged, c.events, c.levelResults, c.results,
      c.failFast_of_live (not_returned phase (by simp)), ?_⟩
    · rw [append_nil] at whole
      rw [whole] at spawned
      exact spawned
    · intro result err returned
      cases returned
  | join level phase here done => exact c.join phase done
  | goroutine i world nodeOutputs here moves => exact c.goroutine nodeOutputs here moves

end

end Consistent

/-! ## Runs -/

theorem executeStart_eq (begins : executeStart order g = .ok start) :
    ∃ levels, g.levels order.levels = .ok levels ∧
      start = ⟨levels, 0, .checking, [], ∅, ∅, ∅, none, []⟩ := by
  unfold executeStart at begins
  split at begins <;> cases begins
  exact ⟨_, ‹_›, rfl⟩

theorem executeStart_ok (wf : WellFormed g) (order : ExecuteOrder V)
    (acyclic : Acyclic g.Adjacent) :
    ∃ levels, g.levels order.levels = .ok levels ∧ Leveled g levels ∧
      executeStart order g = .ok ⟨levels, 0, .checking, [], ∅, ∅, ∅, none, []⟩ := by
  obtain ⟨levels, computed, leveled⟩ := levels_of_acyclic wf order.levels acyclic
  exact ⟨levels, computed, leveled, by rw [executeStart, computed]⟩

theorem Leveled.of_levels (wf : WellFormed g) {order : Graph.LevelOrder}
    (computed : g.levels order = .ok levels) : Leveled g levels := by
  have acyclic : Acyclic g.Adjacent := by
    intro id cycle
    rw [levels_of_cycle wf order ⟨id, cycle⟩] at computed
    cases computed
  obtain ⟨levels', computed', leveled⟩ := levels_of_acyclic wf order acyclic
  rw [computed, Except.ok.injEq] at computed'
  exact computed' ▸ leveled

theorem consistent_start (leveled : Leveled g levels) :
    Consistent e order g ⟨levels, 0, .checking, [], ∅, ∅, ∅, none, []⟩ where
  leveled := leveled
  placed := rfl
  joined := by simp
  logged := by simp
  events := by simp
  levelResults := fun id written => absurd written Finmap.notMem_empty
  results := fun id written => absurd written Finmap.notMem_empty
  failFast := by simp
  verdict := by simp

theorem run_invariant_along (wf : WellFormed g) (condition : Execution V → Action W → Prop)
    (invariant : Execution V → Prop)
    (initial : ∀ levels, invariant ⟨levels, 0, .checking, [], ∅, ∅, ∅, none, []⟩)
    (preserved : ∀ s a s', Consistent e order g s → invariant s → condition s a →
      executeStep e order g s a = some s' → invariant s')
    (begins : executeStart order g = .ok start)
    (run : runSchedule (executeStep e order g) start schedule = some s)
    (along : Along (executeStep e order g) condition start schedule) :
    Consistent e order g s ∧ invariant s := by
  obtain ⟨levels, computed, rfl⟩ := executeStart_eq begins
  refine runSchedule_invariant_along condition (fun s => Consistent e order g s ∧ invariant s) ?_
    run along ⟨consistent_start (.of_levels wf computed), initial levels⟩
  intro s a s' holds met next
  exact ⟨holds.1.step (executeStep_move next), preserved s a s' holds.1 holds.2 met next⟩

theorem run_invariant (wf : WellFormed g) (invariant : Execution V → Prop)
    (initial : ∀ levels, invariant ⟨levels, 0, .checking, [], ∅, ∅, ∅, none, []⟩)
    (preserved : ∀ s a s', Consistent e order g s → invariant s → Move e order g s a s' →
      invariant s') (begins : executeStart order g = .ok start)
    (run : runSchedule (executeStep e order g) start schedule = some s) :
    Consistent e order g s ∧ invariant s :=
  run_invariant_along wf (fun _ _ => True) invariant initial
    (fun s a s' c holds _ next => preserved s a s' c holds (executeStep_move next)) begins run
    (along_of_forall (fun _ _ _ => trivial) start)

theorem run_consistent (wf : WellFormed g) (begins : executeStart order g = .ok start)
    (run : runSchedule (executeStep e order g) start schedule = some s) : Consistent e order g s :=
  (run_invariant wf (fun _ => True) (fun _ => trivial) (fun _ _ _ _ _ _ => trivial) begins run).1

end NexusPipe.Proof.Dag
