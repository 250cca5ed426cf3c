import NexusPipe.Proof.Dag.TopologicalSort

namespace NexusPipe.Proof.Dag
open NexusPipe.Dag Library Relation List Finmap

theorem lookup_levelEdge (u : UUID) (e : Edge) (s : Graph.LevelState) (v : UUID) :
    (Graph.levelEdge u s e).levelMap.lookup v =
      if e = ⟨u, v⟩ then some (max (s.levelMap.get v) (s.levelMap.get u + 1))
      else s.levelMap.lookup v := by
  obtain ⟨a, b⟩ := e
  by_cases leaves : a = u
  · subst leaves
    have raised : (Graph.levelEdge a s ⟨a, b⟩).levelMap.lookup v =
        if v = b then some (max (s.levelMap.get b) (s.levelMap.get a + 1))
        else s.levelMap.lookup v := by
      simp only [Graph.levelEdge, ↓reduceIte]
      rw [apply_ite Graph.LevelState.levelMap, ite_self]
      cases known : s.levelMap.lookup b with
      | none => simp [GoMap.lookup_insert_eq, GoMap.get, known]
      | some existing =>
        have value : s.levelMap.get b = existing := by simp [GoMap.get, known]
        rw [value]
        by_cases higher : s.levelMap.get a + 1 > existing
        · simp only [higher, ↓reduceIte, GoMap.lookup_insert_eq]
          rw [max_eq_right (by omega)]
        · simp only [higher, ↓reduceIte]
          rw [max_eq_left (by omega)]
          split_ifs with same
          · rw [same, known]
          · rfl
    rw [raised]
    by_cases same : v = b
    · simp [same]
    · simp [same, Ne.symm same]
  · simp [Graph.levelEdge, leaves]

theorem lookup_foldl_levelEdge (edges : List Edge) (loopFree : ⟨u, u⟩ ∉ edges)
    (s : Graph.LevelState) (v : UUID) :
    (edges.foldl (Graph.levelEdge u) s).levelMap.lookup v =
      if ⟨u, v⟩ ∈ edges then some (max (s.levelMap.get v) (s.levelMap.get u + 1))
      else s.levelMap.lookup v := by
  induction edges generalizing s with
  | nil => simp
  | cons e edges ih =>
    rw [mem_cons, not_or] at loopFree
    obtain ⟨notHead, notTail⟩ := loopFree
    have kept : (Graph.levelEdge u s e).levelMap.get u = s.levelMap.get u := by
      rw [GoMap.get, lookup_levelEdge, if_neg (Ne.symm notHead)]
      rfl
    have value : (Graph.levelEdge u s e).levelMap.get v = if e = ⟨u, v⟩ then
        max (s.levelMap.get v) (s.levelMap.get u + 1) else s.levelMap.get v := by
      rw [GoMap.get, lookup_levelEdge]
      split_ifs <;> rfl
    rw [foldl_cons, ih notTail, lookup_levelEdge, kept, value]
    by_cases here : e = ⟨u, v⟩
    · simp [here]
    · simp [here, Ne.symm here]

structure Labelled (g : Graph) (processed : List UUID) (levelMap : GoMap UUID Nat) : Prop where
  sound : ∀ v k, levelMap.lookup v = some k → v ∈ g.nodes ∧ ∃ a, Walk g.Adjacent k a v
  relaxed : ∀ u ∈ processed, ∀ v, g.Adjacent u v → v ∈ levelMap ∧ levelMap.get u < levelMap.get v
  sources : ∀ v ∈ g.nodes, (∀ a, ¬ g.Adjacent a v) → v ∈ levelMap

variable {g : Graph} {processed : List UUID}

theorem Labelled.ready (labelled : Labelled g processed levelMap) (isNode : v ∈ g.nodes)
    (predecessors : ∀ a, g.Adjacent a v → a ∈ processed) : v ∈ levelMap := by
  by_cases source : ∀ a, ¬ g.Adjacent a v
  · exact labelled.sources v isNode source
  · push Not at source
    obtain ⟨a, edge⟩ := source
    exact (labelled.relaxed a (predecessors a edge) v edge).1

variable {s : Graph.LevelState}

theorem Labelled.step (wf : WellFormed g) (labelled : Labelled g processed s.levelMap)
    (isNode : u ∈ g.nodes) (fresh : u ∉ processed)
    (predecessors : ∀ a, g.Adjacent a u → a ∈ processed)
    (closed : ∀ v ∈ processed, ∀ a, g.Adjacent a v → a ∈ processed) :
    Labelled g (processed ++ [u]) (g.edges.foldl (Graph.levelEdge u) s).levelMap := by
  have loopFree : ⟨u, u⟩ ∉ g.edges := fun loop => fresh (predecessors u loop)
  have lookup := lookup_foldl_levelEdge g.edges loopFree s
  have get (v : UUID) : GoMap.get (g.edges.foldl (Graph.levelEdge u) s).levelMap v =
      if ⟨u, v⟩ ∈ g.edges then max (s.levelMap.get v) (s.levelMap.get u + 1)
      else s.levelMap.get v := by
    rw [GoMap.get, lookup]
    split_ifs <;> rfl
  have grows (v : UUID) (known : v ∈ s.levelMap) :
      v ∈ (g.edges.foldl (Graph.levelEdge u) s).levelMap := by
    rw [← lookup_isSome, lookup]
    split_ifs
    · rfl
    · exact lookup_isSome.mpr known
  have current : ∃ a, Walk g.Adjacent (s.levelMap.get u) a u := by
    obtain ⟨k, known⟩ := mem_iff.mp (labelled.ready isNode predecessors)
    simpa [GoMap.get, known] using (labelled.sound u k known).2
  refine ⟨?_, ?_, ?_⟩
  · intro v k found
    rw [lookup] at found
    split_ifs at found with edge
    · refine ⟨wf.target u v edge, ?_⟩
      rw [Option.some.injEq] at found
      by_cases raised : s.levelMap.get v ≤ s.levelMap.get u + 1
      · obtain ⟨a, walk⟩ := current
        rw [max_eq_right raised] at found
        exact ⟨a, found ▸ walk.tail edge⟩
      · -- An old label above the current level is a real entry of the map.
        rw [max_eq_left (by omega)] at found
        cases known : s.levelMap.lookup v with
        | none => simp [GoMap.get, known] at raised
        | some k' =>
          have same : k' = k := by simpa [GoMap.get, known] using found
          exact same ▸ (labelled.sound v k' known).2
    · exact labelled.sound v k found
  · intro w member v edge
    rcases mem_append.mp member with old | new
    · obtain ⟨known, less⟩ := labelled.relaxed w old v edge
      have unchanged : ⟨u, w⟩ ∉ g.edges := fun back => fresh (closed w old u back)
      refine ⟨grows v known, ?_⟩
      rw [get, get, if_neg unchanged]
      split_ifs <;> omega
    · obtain rfl := mem_singleton.mp new
      have target : ⟨w, v⟩ ∈ g.edges := edge
      constructor
      · rw [← lookup_isSome, lookup, if_pos target]
        rfl
      · rw [get, get, if_neg loopFree, if_pos target]
        omega
  · intro v present source
    exact grows v (labelled.sources v present source)

def LevelInvariant (g : Graph) (s : Graph.LevelState) : Prop :=
  ∃ processed, Worklist.Invariant g.pairs g.nodes.keys (s.worklist processed) ∧
    Labelled g processed s.levelMap

theorem LevelInvariant.step (wf : WellFormed g) (invariant : LevelInvariant g s)
    (next : g.levelStep s = some s') : LevelInvariant g s' := by
  obtain ⟨processed, kahn, labelled⟩ := invariant
  obtain ⟨current, queue, atHead, rfl, simulated⟩ := Graph.levelStep_worklist next processed
  refine ⟨processed ++ [current], kahn.step (mem_keys_of_edge_right wf) simulated, ?_⟩
  have queued : current ∈ (s.worklist processed).processed ++ (s.worklist processed).queue := by
    simp [Graph.LevelState.worklist, atHead]
  have nodup := kahn.nodup
  simp only [Graph.LevelState.worklist, atHead] at nodup
  refine Labelled.step (s := { s with queue := queue }) wf labelled ?_ ?_ ?_ ?_
  · exact mem_keys.mp ((kahn.ready current).mp queued).1
  · intro again
    exact (nodup_append.mp nodup).2.2 current again current mem_cons_self rfl
  · intro a edge
    rw [← edge_pairs] at edge
    exact kahn.predecessors queued a edge
  · intro v member a edge
    rw [← edge_pairs] at edge
    exact kahn.predecessors (mem_append_left _ member) a edge

theorem levelStart_fold (entries : List ((_ : UUID) × Int)) (s : Graph.LevelState) :
    let s' := entries.foldl
      (fun s x => if x.2 = 0 then
          { s with levelMap := s.levelMap.insert x.1 0, queue := s.queue ++ [x.1] }
        else s) s
    s'.inDegree = s.inDegree ∧
    s'.queue = s.queue ++ (entries.filter fun x => x.2 = 0).map Sigma.fst ∧
    ∀ v, s'.levelMap.lookup v = if v ∈ (entries.filter fun x => x.2 = 0).map Sigma.fst then some 0
      else s.levelMap.lookup v := by
  induction entries generalizing s with
  | nil => simp
  | cons x entries ih =>
    by_cases zero : x.2 = 0
    · obtain ⟨inDegree, queue, levelMap⟩ := ih
        { s with levelMap := s.levelMap.insert x.1 0, queue := s.queue ++ [x.1] }
      simp only [foldl_cons, zero, ↓reduceIte, filter_cons_of_pos, decide_true, map_cons]
      refine ⟨inDegree, by rw [queue]; simp, ?_⟩
      intro v
      rw [levelMap, GoMap.lookup_insert_eq]
      by_cases later : v ∈ (entries.filter fun x => x.2 = 0).map Sigma.fst
      · simp [later]
      · by_cases same : v = x.1 <;> simp [later, same]
    · simpa [zero] using ih s

theorem levelInvariant_start (wf : WellFormed g) (order : Graph.LevelOrder) :
    LevelInvariant g (g.levelStart order) := by
  obtain ⟨inDegree, queue, levelMap⟩ := levelStart_fold
    (order.inDegree (g.inDegrees order.nodes)).entries ⟨g.inDegrees order.nodes, ∅, []⟩
  have kahn := invariant_start wf order.nodes (order.inDegree (g.inDegrees order.nodes))
  have queued := kahn.ready
  simp only [nil_append] at queued queue
  have lookup (v : UUID) : (g.levelStart order).levelMap.lookup v =
      if v ∈ g.nodes.keys ∧ (g.inDegrees order.nodes).get v = 0 then some 0 else none := by
    rw [Graph.levelStart, levelMap]
    simp only [queued, lookup_empty]
  refine ⟨[], ?_, ?_, ?_, ?_⟩
  · have same : (g.levelStart order).worklist [] = ⟨(g.inDegrees order.nodes).get,
        ((order.inDegree (g.inDegrees order.nodes)).entries.filter fun x => x.2 = 0).map Sigma.fst,
        []⟩ := by
      rw [Graph.LevelState.worklist, Graph.levelStart, inDegree, queue]
    rw [same]
    exact kahn
  · intro v k found
    rw [lookup] at found
    split_ifs at found with source
    rw [Option.some.injEq] at found
    exact ⟨mem_keys.mp source.1, v, found ▸ .refl v⟩
  · intro u member
    simp at member
  · intro v isNode source
    have zero : (g.inDegrees order.nodes).get v = 0 := by
      rw [inDegrees_get, Int.natCast_eq_zero, countP_eq_zero]
      rintro ⟨a, b⟩ member same
      obtain rfl := of_decide_eq_true same
      exact source a member
    rw [← lookup_isSome, lookup, if_pos ⟨mem_keys.mpr isNode, zero⟩]
    rfl

theorem levelMap_final (wf : WellFormed g) (acyclic : Acyclic g.Adjacent) (order : Graph.LevelOrder) :
    let levelMap := (whileDo g.levelStep g.levelVariant g.levelVariant_decreases
      (g.levelStart order)).levelMap
    (∀ v, v ∈ levelMap ↔ v ∈ g.nodes) ∧
      ∀ v ∈ g.nodes, LongestInto g.Adjacent v (GoMap.get levelMap v) := by
  intro levelMap
  obtain ⟨⟨processed, kahn, labelled⟩, exit⟩ := whileDo_invariant g.levelVariant_decreases
    (LevelInvariant g) (fun s s' invariant next => invariant.step wf next) (g.levelStart order)
    (levelInvariant_start wf order)
  have empty : ∀ s : Graph.LevelState, g.levelStep s = none → s.queue = [] := by
    intro s stopped
    unfold Graph.levelStep at stopped
    split at stopped
    · assumption
    · cases stopped
  have all (v : UUID) (isNode : v ∈ g.nodes) : v ∈ processed := by
    refine (kahn.mem_processed (mem_keys_of_edge_left wf) (empty _ exit) v).mpr
      ⟨mem_keys.mpr isNode, ?_⟩
    rw [edge_pairs]
    exact acyclic.not_fedByCycle v
  have increasing (a b : UUID) (edge : g.Adjacent a b) :
      GoMap.get levelMap a < GoMap.get levelMap b :=
    (labelled.relaxed a (all a (wf.source a b edge)) b edge).2
  have known (v : UUID) (isNode : v ∈ g.nodes) : v ∈ levelMap :=
    labelled.ready isNode fun a edge => all a (wf.source a v edge)
  refine ⟨fun v => ⟨?_, known v⟩, ?_⟩
  · intro member
    obtain ⟨k, found⟩ := mem_iff.mp member
    exact (labelled.sound v k found).1
  · intro v isNode
    obtain ⟨k, found⟩ := mem_iff.mp (known v isNode)
    apply longestInto_of_increasing (GoMap.get levelMap) increasing
    simpa [GoMap.get, found] using (labelled.sound v k found).2

theorem foldl_max (entries : List ((_ : UUID) × Nat)) (start : Nat) :
    let top := entries.foldl (fun top l => if l.2 > top then l.2 else top) start
    start ≤ top ∧ (∀ l ∈ entries, l.2 ≤ top) ∧ (top = start ∨ ∃ l ∈ entries, l.2 = top) := by
  induction entries generalizing start with
  | nil => simp
  | cons l entries ih =>
    obtain ⟨above, bound, attained⟩ := ih (if l.2 > start then l.2 else start)
    simp only [foldl_cons]
    have here : l.2 ≤ if l.2 > start then l.2 else start := by split_ifs <;> omega
    have still : start ≤ if l.2 > start then l.2 else start := by split_ifs <;> omega
    refine ⟨still.trans above, ?_, ?_⟩
    · intro l' member
      rcases mem_cons.mp member with rfl | later
      · exact here.trans above
      · exact bound l' later
    · rcases attained with same | ⟨l', member, same⟩
      · rw [same]
        split_ifs
        · exact .inr ⟨l, mem_cons_self, rfl⟩
        · exact .inl rfl
      · exact .inr ⟨l', mem_cons_of_mem l member, same⟩

theorem foldlM_placeNode (levelMap : GoMap UUID Nat) (nodes : List Node) (levels : List (List Node))
    (bounded : ∀ n ∈ nodes, levelMap.get n.ID < levels.length) :
    ∃ placed, (nodes.map some).foldlM (Graph.placeNode levelMap) levels = .ok placed ∧
      placed.length = levels.length ∧ ∀ i, placed[i]? =
        levels[i]?.map (· ++ nodes.filter fun n => levelMap.get n.ID = i) := by
  induction nodes generalizing levels with
  | nil => exact ⟨levels, rfl, rfl, by simp⟩
  | cons n nodes ih =>
    have fits := bounded n mem_cons_self
    obtain ⟨placed, run, length, content⟩ := ih
      (levels.modify (levelMap.get n.ID) (· ++ [n])) (fun m member => by
        simpa using bounded m (mem_cons_of_mem n member))
    refine ⟨placed, ?_, by simpa using length, ?_⟩
    · simp only [map_cons, foldlM_cons, Graph.placeNode, fits, ↓reduceIte]
      exact run
    · intro i
      rw [content, getElem?_modify]
      by_cases here : levelMap.get n.ID = i
      · simp only [here, ↓reduceIte, filter_cons_of_pos, decide_true]
        cases levels[i]? <;> simp
      · simp [here]

/-- The levels partition the nodes by the length of the longest path into them. -/
structure Leveled (g : Graph) (levels : List (List Node)) : Prop where
  nodup : (levels.flatten.map Node.ID).Nodup
  members : ∀ n, n ∈ levels.flatten ↔ g.node n.ID = some n
  height : ∀ i level n, levels[i]? = some level → n ∈ level → LongestInto g.Adjacent n.ID i
  occupied : g.nodes ≠ ∅ → [] ∉ levels

theorem Leveled.increasing (leveled : Leveled g levels) {j : Nat} (atI : levels[i]? = some level)
    (atJ : levels[j]? = some level') (inI : a ∈ level) (inJ : b ∈ level')
    (edge : g.Adjacent a.ID b.ID) : i < j := by
  obtain ⟨⟨start, walk⟩, _⟩ := leveled.height i level a atI inI
  exact (leveled.height j level' b atJ inJ).2 (i + 1) start (walk.tail edge)

theorem levels_of_cycle (wf : WellFormed g) (order : Graph.LevelOrder)
    (cycle : ∃ id, TransGen g.Adjacent id id) :
    g.levels order = .error (.error (.str "graph contains a cycle, cannot compute levels")) := by
  have verdict : (g.topologicalSort order.sort).2 = true := (hasCycle_iff wf order.sort).mpr cycle
  unfold Graph.levels
  split
  · rfl
  · rename_i sorted split
    simp [split] at verdict

theorem leveled_of_heights (wf : WellFormed g) {nodes : List Node} {height : UUID → Nat}
    (nodup : (nodes.map Node.ID).Nodup) (members : ∀ n, n ∈ nodes ↔ g.node n.ID = some n)
    (longest : ∀ v ∈ g.nodes, LongestInto g.Adjacent v (height v))
    (bounded : ∀ v ∈ g.nodes, height v ≤ top)
    (attained : g.nodes ≠ ∅ → ∃ v ∈ g.nodes, height v = top) :
    Leveled g ((List.range (top + 1)).map fun i => nodes.filter fun n => height n.ID = i) := by
  have isNode {n : Node} (member : n ∈ nodes) : n.ID ∈ g.nodes :=
    mem_of_lookup_eq_some ((members n).mp member)
  refine ⟨?_, ?_, ?_, ?_⟩
  · rw [List.map_flatten, List.map_map, List.nodup_flatten, List.pairwise_map]
    refine ⟨?_, List.pairwise_lt_range.imp ?_⟩
    · intro level member
      obtain ⟨i, _, rfl⟩ := List.mem_map.mp member
      exact nodup.sublist (List.filter_sublist.map Node.ID)
    · intro i j less id inI inJ
      rw [Function.comp_apply, List.mem_map] at inI inJ
      obtain ⟨n, inI, rfl⟩ := inI
      obtain ⟨m, inJ, same⟩ := inJ
      have atI : height n.ID = i := by simpa using (List.mem_filter.mp inI).2
      have atJ : height m.ID = j := by simpa using (List.mem_filter.mp inJ).2
      rw [same] at atJ
      omega
  · intro n
    rw [← members, List.mem_flatten]
    constructor
    · rintro ⟨level, member, inside⟩
      obtain ⟨i, _, rfl⟩ := List.mem_map.mp member
      exact (List.mem_filter.mp inside).1
    · intro member
      have small := bounded n.ID (isNode member)
      exact ⟨_, List.mem_map.mpr ⟨height n.ID, List.mem_range.mpr (by omega), rfl⟩,
        List.mem_filter.mpr ⟨member, by simp⟩⟩
  · intro i level n atI inside
    rw [List.getElem?_map, Option.map_eq_some_iff] at atI
    obtain ⟨j, found, rfl⟩ := atI
    obtain ⟨bound, same⟩ := List.getElem?_eq_some_iff.mp found
    rw [List.getElem_range] at same
    obtain ⟨member, atHeight⟩ := List.mem_filter.mp inside
    rw [decide_eq_true_eq] at atHeight
    rw [same, ← atHeight]
    exact longest n.ID (isNode member)
  · intro nonempty blank
    obtain ⟨v, present, same⟩ := attained nonempty
    obtain ⟨i, inRange, noNodes⟩ := List.mem_map.mp blank
    have below := longest v present
    rw [same] at below
    obtain ⟨a, atI, path⟩ := below.exists_below i (Nat.lt_succ_iff.mp (List.mem_range.mp inRange))
    have here : a ∈ g.nodes := by
      rcases ReflTransGen.cases_head path with rfl | ⟨b, edge, _⟩
      · exact present
      · exact wf.source a b edge
    obtain ⟨n, found⟩ := mem_iff.mp here
    have own := wf.key a n found
    have listed : n ∈ nodes := (members n).mpr (by rw [Graph.node, own, found])
    have placed : n ∈ nodes.filter fun n => height n.ID = i :=
      List.mem_filter.mpr ⟨listed, by simpa [own] using (longest a here).unique atI⟩
    rw [noNodes] at placed
    simp at placed

theorem levels_of_sorted (order : Graph.LevelOrder)
    (verdict : (g.topologicalSort order.sort).2 = false) :
    let s := whileDo g.levelStep g.levelVariant g.levelVariant_decreases (g.levelStart order)
    g.levels order = (g.topologicalSort order.sort).1.foldlM (Graph.placeNode s.levelMap)
      (replicate ((order.levelMap s.levelMap).entries.foldl
        (fun top l => if l.2 > top then l.2 else top) 0 + 1) []) := by
  intro s
  unfold Graph.levels
  split
  · rename_i split
    simp [split] at verdict
  · rename_i sorted split
    simp only [split, s]

theorem levels_of_acyclic (wf : WellFormed g) (order : Graph.LevelOrder)
    (acyclic : Acyclic g.Adjacent) : ∃ levels, g.levels order = .ok levels ∧ Leveled g levels := by
  obtain ⟨nodes, listed, nodup, _, members⟩ := topologicalSort_nodes wf order.sort
  have allNodes (n : Node) : n ∈ nodes ↔ g.node n.ID = some n := by
    simp [members, acyclic.not_fedByCycle]
  have computed := levels_of_sorted order ((hasCycle_eq_false_iff wf _).mpr acyclic)
  obtain ⟨known, longest⟩ := levelMap_final wf acyclic order
  generalize whileDo g.levelStep g.levelVariant g.levelVariant_decreases
    (g.levelStart order) = s at known longest computed
  obtain ⟨_, bound, attained⟩ := foldl_max (order.levelMap s.levelMap).entries 0
  simp only at computed
  generalize (order.levelMap s.levelMap).entries.foldl
    (fun top l => if l.2 > top then l.2 else top) 0 = top at bound attained computed
  have bounded (v : UUID) (isNode : v ∈ g.nodes) : s.levelMap.get v ≤ top := by
    obtain ⟨k, found⟩ := mem_iff.mp ((known v).mpr isNode)
    simpa [GoMap.get, found] using bound ⟨v, k⟩ ((order.levelMap s.levelMap).mem_entries.mpr found)
  have reached (nonempty : g.nodes ≠ ∅) : ∃ v ∈ g.nodes, s.levelMap.get v = top := by
    rcases attained with zero | ⟨⟨v, k⟩, member, rfl⟩
    · have inhabited : ∃ v, v ∈ g.nodes := by
        by_contra none
        push Not at none
        refine nonempty (ext_lookup fun v => ?_)
        rw [lookup_empty, lookup_eq_none]
        exact none v
      obtain ⟨v, isNode⟩ := inhabited
      have := bounded v isNode
      exact ⟨v, isNode, by omega⟩
    · have found := (order.levelMap s.levelMap).mem_entries.mp member
      exact ⟨v, (known v).mp (mem_of_lookup_eq_some found), by simp [GoMap.get, found]⟩
  have fits (n : Node) (member : n ∈ nodes) :
      s.levelMap.get n.ID < (replicate (top + 1) ([] : List Node)).length := by
    rw [length_replicate]
    have := bounded n.ID (mem_of_lookup_eq_some ((allNodes n).mp member))
    omega
  obtain ⟨placed, run, _, content⟩ := foldlM_placeNode s.levelMap nodes _ fits
  refine ⟨placed, ?_, ?_⟩
  · rw [computed, listed, run]
  · have shape : placed = (range (top + 1)).map fun i =>
        nodes.filter fun n => s.levelMap.get n.ID = i := by
      apply ext_getElem?
      intro i
      rw [content, getElem?_map, getElem?_replicate]
      by_cases inside : i < top + 1 <;> simp [inside]
    rw [shape]
    exact leveled_of_heights wf nodup allNodes longest bounded reached

theorem levels_correct (ops : List GraphOp) (order : Graph.LevelOrder) :
    let g := graphAfter ops
    (Acyclic g.Adjacent → ∃ levels, g.levels order = .ok levels ∧
      (levels.flatten.map Node.ID).Nodup ∧
      (∀ n, n ∈ levels.flatten ↔ g.node n.ID = some n) ∧
      (∀ i level n, levels[i]? = some level → n ∈ level → LongestInto g.Adjacent n.ID i) ∧
      (∀ (i j : Nat) (level level' : List Node) (a b : Node), levels[i]? = some level →
        levels[j]? = some level' → a ∈ level → b ∈ level' → g.Adjacent a.ID b.ID → i < j) ∧
      (g.nodes ≠ ∅ → [] ∉ levels)) ∧
    ((∃ id, TransGen g.Adjacent id id) → ∃ message, g.levels order = .error (.error message)) := by
  intro g
  have wf : WellFormed g := wellFormed_graphAfter ops
  refine ⟨?_, fun cycle => ⟨_, levels_of_cycle wf order cycle⟩⟩
  intro acyclic
  obtain ⟨levels, computed, leveled⟩ := levels_of_acyclic wf order acyclic
  refine ⟨levels, computed, leveled.nodup, leveled.members, leveled.height, ?_, leveled.occupied⟩
  intro i j level level' a b atI atJ inI inJ edge
  exact leveled.increasing atI atJ inI inJ edge

end NexusPipe.Proof.Dag
