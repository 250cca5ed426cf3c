import NexusPipe.Proof.Dag.Graph

namespace NexusPipe.Proof.Dag
open NexusPipe.Dag Library Relation List Finmap

theorem edge_pairs (g : Graph) : Worklist.Edge g.pairs = g.Adjacent := by
  funext a b
  simp only [Worklist.Edge, Graph.pairs, Graph.Adjacent, mem_map, Prod.mk.injEq, eq_iff_iff]
  constructor
  · rintro ⟨⟨_, _⟩, member, rfl, rfl⟩
    exact member
  · intro member
    exact ⟨⟨a, b⟩, member, rfl, rfl⟩

section
variable (order : GoMap.RangeOrder UUID Node) (g : Graph)

theorem lookup_foldl_zeros (entries : List ((_ : UUID) × Node)) (m : GoMap UUID Int) (v : UUID) :
    (entries.foldl (fun m n => m.insert n.2.ID 0) m).lookup v =
      if v ∈ entries.map (fun n => n.2.ID) then some 0 else m.lookup v := by
  induction entries generalizing m with
  | nil => simp
  | cons n entries ih =>
    rw [foldl_cons, ih, GoMap.lookup_insert_eq]
    by_cases later : v ∈ entries.map fun n => n.2.ID
    · simp [later]
    · by_cases same : v = n.2.ID <;> simp [later, same]

theorem get_foldl_targets (edges : List Edge) (m : GoMap UUID Int) (v : UUID) :
    GoMap.get (edges.foldl (fun m e => m.insert e.To (GoMap.get m e.To + 1)) m) v =
      GoMap.get m v + (edges.countP fun e => e.To = v : Nat) := by
  induction edges generalizing m with
  | nil => simp
  | cons e edges ih =>
    rw [foldl_cons, ih, GoMap.get_insert, countP_cons, Function.update_apply]
    by_cases same : v = e.To
    · subst same
      simp only [↓reduceIte, decide_true]
      push_cast
      omega
    · simp [same, Ne.symm same]

theorem mem_foldl_targets (edges : List Edge) (m : GoMap UUID Int) (v : UUID) :
    v ∈ edges.foldl (fun m e => m.insert e.To (GoMap.get m e.To + 1)) m ↔
      v ∈ m ∨ ∃ e ∈ edges, e.To = v := by
  induction edges generalizing m with
  | nil => simp
  | cons e edges ih =>
    rw [foldl_cons, ih, mem_insert]
    simp only [mem_cons, exists_eq_or_imp]
    tauto

theorem inDegrees_get (v : UUID) :
    GoMap.get (g.inDegrees order) v = (g.edges.countP fun e => e.To = v : Nat) := by
  rw [Graph.inDegrees, get_foldl_targets, GoMap.get, lookup_foldl_zeros]
  split_ifs <;> simp

variable {g} in
theorem mem_ids_iff (wf : WellFormed g) (v : UUID) :
    v ∈ (order g.nodes).entries.map (fun n => n.2.ID) ↔ v ∈ g.nodes := by
  rw [mem_map, mem_iff]
  constructor
  · rintro ⟨⟨k, n⟩, member, rfl⟩
    have found := (order g.nodes).mem_entries.mp member
    exact ⟨n, (wf.key k n found).symm ▸ found⟩
  · rintro ⟨n, found⟩
    exact ⟨⟨v, n⟩, (order g.nodes).mem_entries.mpr found, wf.key v n found⟩

variable {g} in
theorem mem_inDegrees (wf : WellFormed g) (v : UUID) : v ∈ g.inDegrees order ↔ v ∈ g.nodes := by
  rw [Graph.inDegrees, mem_foldl_targets, ← lookup_isSome, lookup_foldl_zeros]
  have ids := mem_ids_iff order wf v
  constructor
  · rintro (zero | ⟨⟨a, b⟩, member, rfl⟩)
    · by_contra missing
      simp [ids, missing] at zero
    · exact wf.target a b member
  · intro member
    exact .inl (by simp [ids, member])

end

variable {g : Graph}

theorem invariant_start (wf : WellFormed g) (order : GoMap.RangeOrder UUID Node)
    (entries : GoMap.Ranging (g.inDegrees order)) : Worklist.Invariant g.pairs g.nodes.keys
      ⟨(g.inDegrees order).get, (entries.entries.filter fun x => x.2 = 0).map Sigma.fst, []⟩ := by
  refine ⟨?_, ?_, ?_, ordered_nil _⟩
  · exact entries.nodup_keys.sublist (filter_sublist.map Sigma.fst)
  · intro v
    simp [inDegrees_get, Graph.pairs, countP_map, Function.comp_def]
  · intro v
    simp only [nil_append, mem_map, mem_filter, Finmap.mem_keys,
      ← mem_inDegrees order wf, decide_eq_true_eq]
    constructor
    · rintro ⟨⟨k, d⟩, ⟨member, zero⟩, rfl⟩
      have found := entries.mem_entries.mp member
      exact ⟨Finmap.mem_of_lookup_eq_some found, by simpa [GoMap.get, found] using zero⟩
    · rintro ⟨member, zero⟩
      obtain ⟨d, found⟩ := Finmap.mem_iff.mp member
      exact ⟨⟨v, d⟩, ⟨entries.mem_entries.mpr found, by simpa [GoMap.get, found] using zero⟩, rfl⟩

def SortInvariant (g : Graph) (s : Graph.SortState) : Prop :=
  ∃ processed, Worklist.Invariant g.pairs g.nodes.keys (s.worklist processed) ∧
    s.sorted = processed.map g.nodes.lookup

theorem sorted_foldl_sortEdge (current : UUID) (edges : List Edge) (s : Graph.SortState) :
    (edges.foldl (Graph.sortEdge current) s).sorted = s.sorted := by
  induction edges generalizing s with
  | nil => rfl
  | cons e edges ih =>
    rw [foldl_cons, ih]
    simp only [Graph.sortEdge]
    split_ifs <;> rfl

section
variable (wf : WellFormed g)
include wf

theorem mem_keys_of_edge_left (a b : UUID) (edge : Worklist.Edge g.pairs a b) :
    a ∈ g.nodes.keys := by
  rw [edge_pairs] at edge
  exact mem_keys.mpr (wf.source a b edge)

theorem mem_keys_of_edge_right (a b : UUID) (edge : Worklist.Edge g.pairs a b) :
    b ∈ g.nodes.keys := by
  rw [edge_pairs] at edge
  exact mem_keys.mpr (wf.target a b edge)

theorem SortInvariant.step (invariant : SortInvariant g s) (next : g.sortStep s = some s') :
    SortInvariant g s' := by
  obtain ⟨processed, kahn, listed⟩ := invariant
  obtain ⟨current, queue, atHead, simulated⟩ := Graph.sortStep_worklist next processed
  refine ⟨processed ++ [current], kahn.step (mem_keys_of_edge_right wf) simulated, ?_⟩
  simp only [Graph.sortStep, atHead, Option.some.injEq] at next
  rw [← next, sorted_foldl_sortEdge, listed]
  simp

theorem topologicalSort_ids (order : Graph.SortOrder) :
    ∃ ids : List UUID, (g.topologicalSort order).1 = ids.map g.nodes.lookup ∧ ids.Nodup ∧
      Ordered g.Adjacent ids ∧ ∀ v, v ∈ ids ↔ v ∈ g.nodes ∧ ¬ FedByCycle g.Adjacent v := by
  obtain ⟨⟨ids, kahn, listed⟩, exit⟩ := whileDo_invariant g.sortVariant_decreases
    (SortInvariant g) (fun s s' invariant next => invariant.step wf next) (g.sortStart order)
    ⟨[], invariant_start wf order.nodes _, rfl⟩
  have empty : ∀ s : Graph.SortState, g.sortStep s = none → s.queue = [] := by
    intro s stopped
    unfold Graph.sortStep at stopped
    split at stopped
    · assumption
    · cases stopped
  have members := kahn.mem_processed (mem_keys_of_edge_left wf) (empty _ exit)
  rw [edge_pairs] at members
  refine ⟨ids, listed, (nodup_append.mp kahn.nodup).1, edge_pairs g ▸ kahn.ordered, ?_⟩
  intro v
  rw [← Finmap.mem_keys]
  exact members v

theorem exists_nodes (ids : List UUID) (present : ∀ v ∈ ids, v ∈ g.nodes) :
    ∃ nodes : List Node, ids.map g.nodes.lookup = nodes.map some ∧ nodes.map Node.ID = ids := by
  induction ids with
  | nil => exact ⟨[], rfl, rfl⟩
  | cons v ids ih =>
    obtain ⟨nodes, found, same⟩ := ih fun w member => present w (mem_cons_of_mem v member)
    obtain ⟨n, here⟩ := mem_iff.mp (present v mem_cons_self)
    exact ⟨n :: nodes, by simp [here, found], by simp [wf.key v n here, same]⟩

theorem topologicalSort_nodes (order : Graph.SortOrder) :
    ∃ nodes : List Node, (g.topologicalSort order).1 = nodes.map some ∧
      (nodes.map Node.ID).Nodup ∧ Ordered g.Adjacent (nodes.map Node.ID) ∧
      ∀ n, n ∈ nodes ↔ g.node n.ID = some n ∧ ¬ FedByCycle g.Adjacent n.ID := by
  obtain ⟨ids, listed, nodup, ordered, members⟩ := topologicalSort_ids wf order
  obtain ⟨nodes, found, rfl⟩ := exists_nodes wf ids fun v member => ((members v).mp member).1
  have isNode {n : Node} : n ∈ nodes → g.node n.ID = some n := by
    intro member
    obtain ⟨i, bound, rfl⟩ := getElem_of_mem member
    simpa [bound, Graph.node] using congrArg (·[i]?) found
  refine ⟨nodes, listed.trans found, nodup, ordered, ?_⟩
  intro n
  constructor
  · intro member
    exact ⟨isNode member, ((members n.ID).mp (mem_map_of_mem member)).2⟩
  · rintro ⟨present, notFed⟩
    obtain ⟨m, member, same⟩ := mem_map.mp
      ((members n.ID).mpr ⟨mem_of_lookup_eq_some present, notFed⟩)
    have this := isNode member
    rw [same, present, Option.some.injEq] at this
    exact this ▸ member

theorem WellFormed.ancestor (path : TransGen g.Adjacent a b) : a ∈ g.nodes := by
  obtain ⟨c, edge, _⟩ := TransGen.head'_iff.mp path
  exact wf.source a c edge

theorem hasCycle_iff (order : Graph.SortOrder) :
    g.hasCycle order = true ↔ ∃ id, TransGen g.Adjacent id id := by
  obtain ⟨ids, listed, nodup, _, members⟩ := topologicalSort_ids wf order
  have inside : ids.toFinset ⊆ g.nodes.keys := fun v member =>
    mem_keys.mpr ((members v).mp (mem_toFinset.mp member)).1
  have verdict : g.hasCycle order = true ↔ ids.toFinset ≠ g.nodes.keys := by
    have counted : (g.topologicalSort order).1.length = ids.toFinset.card := by
      rw [listed, length_map, toFinset_card_of_nodup nodup]
    have compared : g.hasCycle order = true ↔
        (g.topologicalSort order).1.length ≠ GoMap.len g.nodes := by
      simp [Graph.hasCycle, Graph.topologicalSort]
    rw [compared, counted, GoMap.len]
    constructor
    · rintro different same
      exact different (congrArg Finset.card same)
    · rintro different same
      exact different (Finset.eq_of_subset_of_card_le inside same.ge)
  rw [verdict]
  constructor
  · intro different
    by_contra acyclic
    push Not at acyclic
    refine different (inside.antisymm fun v isNode => ?_)
    exact mem_toFinset.mpr ((members v).mpr
      ⟨mem_keys.mp isNode, Acyclic.not_fedByCycle acyclic v⟩)
  · rintro ⟨c, cycle⟩ same
    have present := mem_keys.mpr (wf.ancestor cycle)
    rw [← same, mem_toFinset] at present
    exact ((members c).mp present).2 ⟨c, cycle, .refl⟩

theorem hasCycle_eq_false_iff (order : Graph.SortOrder) :
    g.hasCycle order = false ↔ Acyclic g.Adjacent := by
  rw [← Bool.not_eq_true, hasCycle_iff wf, ← not_acyclic_iff, not_not]

end

theorem topologicalSort_correct (ops : List GraphOp) (order : Graph.SortOrder) :
    let g := graphAfter ops
    (∃ nodes : List Node, (g.topologicalSort order).1 = nodes.map some ∧
      (nodes.map Node.ID).Nodup ∧
      (∀ n, n ∈ nodes ↔ g.node n.ID = some n ∧ ¬ FedByCycle g.Adjacent n.ID) ∧
      ∀ u v, g.Adjacent u v → v ∈ nodes.map Node.ID →
        u ∈ nodes.map Node.ID ∧
          (nodes.map Node.ID).idxOf u < (nodes.map Node.ID).idxOf v) ∧
    (g.hasCycle order = true ↔ ∃ id, TransGen g.Adjacent id id) ∧
    ∀ order', g.hasCycle order' = g.hasCycle order ∧
      (g.topologicalSort order').1.Perm (g.topologicalSort order).1 := by
  intro g
  have wf : WellFormed g := wellFormed_graphAfter ops
  obtain ⟨nodes, listed, nodup, ordered, members⟩ := topologicalSort_nodes wf order
  refine ⟨⟨nodes, listed, nodup, members, ?_⟩, hasCycle_iff wf order, ?_⟩
  · intro u v edge member
    exact ordered.idxOf_lt edge member
  · intro order'
    obtain ⟨nodes', listed', nodup', _, members'⟩ := topologicalSort_nodes wf order'
    refine ⟨Bool.eq_iff_iff.mpr ((hasCycle_iff wf order').trans (hasCycle_iff wf order).symm), ?_⟩
    rw [listed, listed']
    apply List.Perm.map
    apply (perm_ext_iff_of_nodup (nodup'.of_map _) (nodup.of_map _)).mpr
    intro n
    rw [members', members]

def ascending {β : Type} : GoMap.RangeOrder UUID β :=
  GoMap.ascending BitVec.toNat fun _ _ => BitVec.eq_of_toNat_eq

def chain : List GraphOp := [.addNodeWithID 1 "extract", .addNodeWithID 2 "load", .addEdge 1 2]

theorem chain_acyclic : Acyclic (graphAfter chain).Adjacent :=
  (hasCycle_eq_false_iff (wellFormed_graphAfter chain) ⟨ascending, ascending⟩).mp (by decide +kernel)

end NexusPipe.Proof.Dag
