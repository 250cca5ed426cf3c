import NexusPipe.Dag.Validator
import NexusPipe.Library.Except
import NexusPipe.Proof.Dag.Levels

namespace NexusPipe.Proof.Dag
open NexusPipe.Dag Library Relation List Finmap

variable {g : Graph}

theorem mem_nodes_of_fedByCycle (wf : WellFormed g) {id : UUID} (fed : FedByCycle g.Adjacent id) :
    id ∈ g.nodes := by
  obtain ⟨c, cycle, path⟩ := fed
  rcases ReflTransGen.cases_tail path with rfl | ⟨b, -, edge⟩
  · exact wf.ancestor cycle
  · exact wf.target b id edge

theorem mem_foldl_marks (nodes : List Node) (inCycle : GoMap UUID Bool) (id : UUID) :
    id ∈ nodes.foldl (fun inCycle n => inCycle.insert n.ID true) inCycle ↔
      id ∈ inCycle ∨ id ∈ nodes.map Node.ID := by
  induction nodes generalizing inCycle with
  | nil => simp
  | cons n nodes ih =>
    rw [foldl_cons, ih, mem_insert, map_cons, mem_cons]
    tauto

theorem validateCycles_of_acyclic (wf : WellFormed g) (order : ValidateOrder)
    (acyclic : Acyclic g.Adjacent) : validateCycles order g = .ok [] := by
  have verdict : (g.topologicalSort order.sort).2 = false := (hasCycle_eq_false_iff wf _).mpr acyclic
  unfold validateCycles
  split
  · rfl
  · rename_i split
    simp [split] at verdict

theorem mem_nodeList_iff (wf : WellFormed g) (order : GoMap.RangeOrder UUID Node) (id : UUID) :
    id ∈ (g.nodeList order).map Node.ID ↔ id ∈ g.nodes := by
  rw [Graph.nodeList, List.map_map]
  exact mem_ids_iff order wf id

theorem unsorted_iff_fedByCycle (wf : WellFormed g) {nodes : List Node}
    (sorted : ∀ n, n ∈ nodes ↔ g.node n.ID = some n ∧ ¬ FedByCycle g.Adjacent n.ID) (id : UUID) :
    id ∈ g.nodes ∧ id ∉ nodes.map Node.ID ↔ FedByCycle g.Adjacent id := by
  constructor
  · rintro ⟨isNode, unsorted⟩
    by_contra notFed
    obtain ⟨n, found⟩ := mem_iff.mp isNode
    have own := wf.key id n found
    refine unsorted (mem_map.mpr ⟨n, (sorted n).mpr ⟨?_, own ▸ notFed⟩, own⟩)
    rw [Graph.node, own, found]
  · intro fed
    refine ⟨mem_nodes_of_fedByCycle wf fed, fun isSorted => ?_⟩
    obtain ⟨n, member, rfl⟩ := mem_map.mp isSorted
    exact ((sorted n).mp member).2 fed

theorem validateCycles_of_cycle (wf : WellFormed g) (order : ValidateOrder)
    (cycle : ∃ id, TransGen g.Adjacent id id) :
    ∃ err, validateCycles order g = .ok [err] ∧ err.ErrType = .cycleDetected ∧
      err.NodeIDs.Nodup ∧ ∀ id, id ∈ err.NodeIDs ↔ FedByCycle g.Adjacent id := by
  have verdict : (g.topologicalSort order.sort).2 = true := (hasCycle_iff wf order.sort).mpr cycle
  obtain ⟨nodes, listed, -, -, sorted⟩ := topologicalSort_nodes wf order.sort
  suffices reported : ∃ errs, validateCycles order g = .ok errs ∧ ∃ err, errs = [err] ∧
      err.ErrType = .cycleDetected ∧ err.NodeIDs.Nodup ∧
        ∀ id, id ∈ err.NodeIDs ↔ FedByCycle g.Adjacent id by
    obtain ⟨_, run, err, rfl, spec⟩ := reported
    exact ⟨err, run, spec⟩
  unfold validateCycles
  split
  · rename_i split
    simp [split] at verdict
  · rename_i ids split
    obtain rfl : ids = nodes.map some := by rw [← listed, split]
    refine exists_bind_eq_ok (exists_foldlM_eq_ok (fun before rest => ∀ id, id ∈ rest ↔
      id ∈ g.nodes ∧ some id ∉ before.map (Option.map Node.ID)) ?_ ?_) fun rest members => ?_
    · rintro before n after rest split members
      obtain ⟨n, -, rfl⟩ : ∃ m ∈ nodes, some m = n :=
        List.mem_map.mp (split ▸ List.mem_append_right before List.mem_cons_self)
      refine ⟨_, rfl, fun id => ?_⟩
      rw [mem_erase, members]
      simp only [List.map_append, List.mem_append, List.map_cons, List.map_nil, List.mem_singleton,
        Option.map_some, Option.some.injEq]
      tauto
    · intro id
      have nothing : id ∉ (∅ : GoMap UUID Bool) := notMem_empty
      simp [mem_foldl_marks, mem_nodeList_iff wf, nothing]
    · refine ⟨_, rfl, _, rfl, rfl, (order.inCycle rest).nodup_keys, fun id => ?_⟩
      rw [(order.inCycle rest).mem_keys, members, ← unsorted_iff_fedByCycle wf sorted, List.map_map]
      simp [Function.comp_def]

theorem validateCycles_exact_iff (ops : List GraphOp) (order : ValidateOrder)
    (cycle : ∃ id, TransGen (graphAfter ops).Adjacent id id) :
    (∃ err, validateCycles order (graphAfter ops) = .ok [err] ∧ err.ErrType = .cycleDetected ∧
      err.NodeIDs.Nodup ∧ ∀ id, id ∈ err.NodeIDs ↔ TransGen (graphAfter ops).Adjacent id id) ↔
    ∀ a b, TransGen (graphAfter ops).Adjacent a a → (graphAfter ops).Adjacent a b →
      TransGen (graphAfter ops).Adjacent b b := by
  obtain ⟨err, run, type, nodup, listed⟩ :=
    validateCycles_of_cycle (wellFormed_graphAfter ops) order cycle
  constructor
  · rintro ⟨err', run', -, -, listed'⟩ a b onCycle edge
    obtain rfl : err = err' := by
      rw [run, Except.ok.injEq, singleton_inj] at run'
      exact run'
    exact (listed' b).mp ((listed b).mpr ⟨a, onCycle, .single edge⟩)
  · intro closed
    refine ⟨err, run, type, nodup, fun id => (listed id).trans ⟨?_, fun onCycle => ?_⟩⟩
    · rintro ⟨c, onCycle, path⟩
      induction path with
      | refl => exact onCycle
      | tail _ edge ih => exact closed _ _ ih edge
    · exact ⟨id, onCycle, .refl⟩

def sortedOrder : ValidateOrder :=
  ⟨⟨ascending, ascending⟩, ascending, ascending, ascending,
    ⟨⟨ascending, ascending⟩, ascending, ascending, ascending⟩⟩

def looped : List GraphOp := chain ++ [.addEdge 1 1]

theorem looped_cycle : TransGen (graphAfter looped).Adjacent 1 1 := by
  have edge : (⟨1, 1⟩ : Edge) ∈ (graphAfter looped).edges := by decide +kernel
  exact .single edge

theorem looped_exact_iff : (∃ err, validateCycles sortedOrder (graphAfter looped) = .ok [err] ∧
      err.ErrType = .cycleDetected ∧ err.NodeIDs.Nodup ∧
        ∀ id, id ∈ err.NodeIDs ↔ TransGen (graphAfter looped).Adjacent id id) ↔
    ∀ a b, TransGen (graphAfter looped).Adjacent a a → (graphAfter looped).Adjacent a b →
      TransGen (graphAfter looped).Adjacent b b :=
  validateCycles_exact_iff looped sortedOrder ⟨1, looped_cycle⟩

theorem looped_report : (∃ id, TransGen (graphAfter looped).Adjacent id id) ∧
    (validateCycles sortedOrder (graphAfter looped)).map (·.map (·.NodeIDs)) = .ok [[1, 2]] ∧
      ¬ TransGen (graphAfter looped).Adjacent 2 2 := by
  refine ⟨⟨1, looped_cycle⟩, by decide +kernel, fun cycle => ?_⟩
  obtain ⟨b, edge, -⟩ := TransGen.head'_iff.mp cycle
  have edges : (graphAfter looped).edges = [⟨1, 2⟩, ⟨1, 1⟩] := rfl
  rw [Graph.Adjacent, edges] at edge
  simp at edge

def IsPath (g : Graph) (path : List UUID) : Prop :=
  path.IsChain g.Adjacent ∧ path.Nodup ∧ ∀ id ∈ path, id ∈ g.nodes

theorem levels_of_empty (wf : WellFormed g) (order : Graph.LevelOrder) (empty : g.nodes = ∅) :
    g.levels order = .ok [[]] := by
  have acyclic : Acyclic g.Adjacent := by
    intro id cycle
    have isNode := wf.ancestor cycle
    rw [empty] at isNode
    exact notMem_empty isNode
  obtain ⟨nodes, listed, -, -, members⟩ := topologicalSort_nodes wf order.sort
  have none : nodes = [] := by
    refine eq_nil_iff_forall_not_mem.mpr fun n member => ?_
    have found := ((members n).mp member).1
    rw [Graph.node, empty, lookup_empty] at found
    cases found
  have computed := levels_of_sorted order ((hasCycle_eq_false_iff wf _).mpr acyclic)
  obtain ⟨known, -⟩ := levelMap_final wf acyclic order
  generalize whileDo g.levelStep g.levelVariant g.levelVariant_decreases
    (g.levelStart order) = s at known computed
  have noLevels : (order.levelMap s.levelMap).entries = [] := by
    refine eq_nil_iff_forall_not_mem.mpr fun l member => ?_
    have isNode := (known l.1).mp
      (mem_of_lookup_eq_some ((order.levelMap s.levelMap).mem_entries.mp member))
    rw [empty] at isNode
    exact notMem_empty isNode
  rw [computed, listed, none, noLevels]
  rfl

theorem mem_nodes_of_chain (wf : WellFormed g) (steps : (before ++ [b]).IsChain g.Adjacent)
    (isNode : b ∈ g.nodes) : ∀ id ∈ before ++ [b], id ∈ g.nodes := by
  intro id member
  obtain ⟨i, bound, rfl⟩ := getElem_of_mem member
  by_cases last : i + 1 < (before ++ [b]).length
  · exact wf.source _ _ (isChain_iff_getElem.mp steps i last)
  · obtain rfl : i = before.length := by
      rw [length_append, length_singleton] at bound last
      omega
    simpa using isNode

theorem length_le_iff_paths (wf : WellFormed g) (acyclic : Acyclic g.Adjacent)
    (leveled : Leveled g levels) (inhabited : g.nodes ≠ ∅) (d : Nat) :
    levels.length ≤ d ↔ ∀ path, IsPath g path → path.length ≤ d := by
  constructor
  · rintro short path ⟨steps, -, inside⟩
    rcases eq_nil_or_concat path with rfl | ⟨before, b, rfl⟩
    · exact Nat.zero_le d
    rw [concat_eq_append] at steps inside ⊢
    obtain ⟨a, walk⟩ := exists_walk_of_chain steps
    obtain ⟨n, found⟩ := mem_iff.mp (inside b (by simp))
    have own := wf.key b n found
    obtain ⟨level, member, placed⟩ :=
      mem_flatten.mp ((leveled.members n).mpr (by rw [Graph.node, own, found]))
    obtain ⟨i, atI⟩ := mem_iff_getElem?.mp member
    have height := (leveled.height i level n atI placed).2 _ a (own ▸ walk)
    have bound := (List.getElem?_eq_some_iff.mp atI).1
    rw [length_append, length_singleton]
    omega
  · intro paths
    by_contra long
    push Not at long
    -- a node of the last level ends a path with one node in each level
    obtain ⟨i, last⟩ : ∃ i, levels.length = i + 1 := ⟨levels.length - 1, by omega⟩
    obtain ⟨level, atI⟩ : ∃ level, levels[i]? = some level :=
      ⟨_, getElem?_eq_getElem (by omega)⟩
    have occupied : level ≠ [] := by
      rintro rfl
      exact leveled.occupied inhabited (mem_of_getElem? atI)
    obtain ⟨n, placed⟩ := exists_mem_of_ne_nil level occupied
    obtain ⟨⟨a, walk⟩, -⟩ := leveled.height i level n atI placed
    have isNode : g.node n.ID = some n := (leveled.members n).mp
      (mem_flatten.mpr ⟨level, mem_of_getElem? atI, placed⟩)
    obtain ⟨before, length, steps⟩ := walk.exists_chain
    have short := paths (before ++ [n.ID]) ⟨steps, acyclic.nodup_of_chain steps,
      mem_nodes_of_chain wf steps (mem_of_lookup_eq_some isNode)⟩
    rw [length_append, length_singleton] at short
    omega

theorem exists_validateMaxDepth (wf : WellFormed g) (order : ValidateOrder) {v : Validator}
    (depth : 1 ≤ v.maxDepth) :
    ∃ errs, v.validateMaxDepth order g = .ok errs ∧ (errs = [] ↔ Acyclic g.Adjacent ∧
      ∀ path, IsPath g path → path.length ≤ v.maxDepth) := by
  by_cases acyclic : Acyclic g.Adjacent
  · obtain ⟨levels, computed, deep⟩ : ∃ levels, g.levels order.levels = .ok levels ∧
        (levels.length ≤ v.maxDepth ↔ ∀ path, IsPath g path → path.length ≤ v.maxDepth) := by
      by_cases empty : g.nodes = ∅
      · refine ⟨[[]], levels_of_empty wf order.levels empty, iff_of_true depth ?_⟩
        rintro path ⟨-, -, inside⟩
        have none : path = [] := eq_nil_iff_forall_not_mem.mpr fun id member =>
          notMem_empty (empty ▸ inside id member)
        rw [none, length_nil]
        omega
      · obtain ⟨levels, computed, leveled⟩ := levels_of_acyclic wf order.levels acyclic
        refine ⟨levels, computed, ?_⟩
        have bound (n : Nat) : (n : Int) ≤ v.maxDepth ↔ n ≤ v.maxDepth.toNat := by omega
        simp only [bound]
        exact length_le_iff_paths wf acyclic leveled empty _
    unfold Validator.validateMaxDepth
    rw [computed, and_iff_right acyclic, ← deep]
    by_cases exceeds : (levels.length : Int) > v.maxDepth
    · refine ⟨_, if_pos exceeds, iff_of_false (by simp) (by omega)⟩
    · exact ⟨[], if_neg exceeds, iff_of_true rfl (by omega)⟩
  · unfold Validator.validateMaxDepth
    rw [levels_of_cycle wf order.levels (not_acyclic_iff.mp acyclic)]
    exact ⟨_, rfl, iff_of_false (by simp) fun both => acyclic both.1⟩

theorem children_eq_nil_iff (wf : WellFormed g) (id : UUID) :
    g.children id = [] ↔ ∀ other, ¬ g.Adjacent id other := by
  rw [Graph.children, filterMap_eq_nil_iff]
  constructor
  · intro none other edge
    have missing := none _ edge
    rw [if_pos rfl, lookup_eq_none] at missing
    exact missing (wf.target _ _ edge)
  · rintro none ⟨a, b⟩ edge
    exact if_neg fun (same : a = id) => none b (same ▸ edge)

theorem parents_eq_nil_iff (wf : WellFormed g) (id : UUID) :
    g.parents id = [] ↔ ∀ other, ¬ g.Adjacent other id := by
  rw [Graph.parents, filterMap_eq_nil_iff]
  constructor
  · intro none other edge
    have missing := none _ edge
    rw [if_pos rfl, lookup_eq_none] at missing
    exact missing (wf.source _ _ edge)
  · rintro none ⟨a, b⟩ edge
    exact if_neg fun (same : b = id) => none a (same ▸ edge)

theorem validateOrphanNodes_eq_nil_iff (wf : WellFormed g) (order : ValidateOrder) :
    validateOrphanNodes order g = [] ↔
      ∀ id ∈ g.nodes, ∃ other, g.Adjacent id other ∨ g.Adjacent other id := by
  have orphan (id : UUID) : (g.parents id).length = 0 ∧ (g.children id).length = 0 ↔
      ¬ ∃ other, g.Adjacent id other ∨ g.Adjacent other id := by
    rw [length_eq_zero_iff, length_eq_zero_iff, parents_eq_nil_iff wf, children_eq_nil_iff wf]
    push Not
    exact ⟨fun none other => ⟨none.2 other, none.1 other⟩,
      fun none => ⟨fun other => (none other).2, fun other => (none other).1⟩⟩
  rw [validateOrphanNodes, filterMap_eq_nil_iff]
  constructor
  · intro none id isNode
    obtain ⟨n, found⟩ := mem_iff.mp isNode
    have own := wf.key id n found
    have kept := none n (mem_map.mpr
      ⟨⟨id, n⟩, (order.orphanNodes g.nodes).mem_entries.mpr found, rfl⟩)
    by_contra alone
    rw [if_pos ((orphan n.ID).mpr (own.symm ▸ alone))] at kept
    cases kept
  · intro incident n member
    obtain ⟨⟨id, n⟩, listed, rfl⟩ := mem_map.mp member
    have found := (order.orphanNodes g.nodes).mem_entries.mp listed
    have own := wf.key id n found
    exact if_neg fun alone => (orphan n.ID).mp alone
      (own.symm ▸ incident id (mem_of_lookup_eq_some found))

theorem validateDependencies_eq_nil (wf : WellFormed g) : validateDependencies g = [] := by
  rw [validateDependencies, flatMap_eq_nil_iff]
  rintro ⟨a, b⟩ edge
  obtain ⟨n, source⟩ := mem_iff.mp (wf.source a b edge)
  obtain ⟨m, target⟩ := mem_iff.mp (wf.target a b edge)
  simp [Graph.node, source, target]

theorem validateDAG_valid_iff (ops : List GraphOp) (order : ValidateOrder) {v : Validator}
    (depth : 1 ≤ v.maxDepth) : ∃ result, v.validateDAG order (graphAfter ops) = .ok result ∧
      (result.Valid = true ↔ Acyclic (graphAfter ops).Adjacent ∧
        (∀ id ∈ (graphAfter ops).nodes, ∃ other,
          (graphAfter ops).Adjacent id other ∨ (graphAfter ops).Adjacent other id) ∧
        ∀ path, IsPath (graphAfter ops) path → path.length ≤ v.maxDepth) := by
  have wf := wellFormed_graphAfter ops
  obtain ⟨depthErrors, depthRun, deep⟩ := exists_validateMaxDepth wf order depth
  have orphans := validateOrphanNodes_eq_nil_iff wf order
  have dependencies := validateDependencies_eq_nil wf
  obtain ⟨cycleErrors, cycleRun, cycles⟩ : ∃ errs, validateCycles order (graphAfter ops) = .ok errs ∧
      (errs = [] ↔ Acyclic (graphAfter ops).Adjacent) := by
    by_cases acyclic : Acyclic (graphAfter ops).Adjacent
    · exact ⟨[], validateCycles_of_acyclic wf order acyclic, iff_of_true rfl acyclic⟩
    · obtain ⟨err, run, -⟩ := validateCycles_of_cycle wf order (not_acyclic_iff.mp acyclic)
      exact ⟨[err], run, iff_of_false (by simp) acyclic⟩
  unfold Validator.validateDAG
  rw [cycleRun, depthRun]
  refine ⟨_, rfl, ?_⟩
  simp only [ValidationResult.of, length_eq_zero_iff, decide_eq_true_eq, append_eq_nil_iff,
    dependencies, cycles, orphans, deep]
  tauto

theorem chain_valid_iff :
    ∃ result, newValidator.validateDAG sortedOrder (graphAfter chain) = .ok result ∧
      (result.Valid = true ↔ Acyclic (graphAfter chain).Adjacent ∧
        (∀ id ∈ (graphAfter chain).nodes, ∃ other,
          (graphAfter chain).Adjacent id other ∨ (graphAfter chain).Adjacent other id) ∧
        ∀ path, IsPath (graphAfter chain) path → path.length ≤ newValidator.maxDepth) :=
  validateDAG_valid_iff chain sortedOrder (by decide)

end NexusPipe.Proof.Dag
