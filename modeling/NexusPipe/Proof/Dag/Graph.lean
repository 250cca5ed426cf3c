import NexusPipe.Dag.Graph

namespace NexusPipe.Proof.Dag
open NexusPipe.Dag Library

structure WellFormed (g : Graph) : Prop where
  key : ∀ id n, g.nodes.lookup id = some n → n.ID = id
  source : ∀ a b, g.Adjacent a b → a ∈ g.nodes
  target : ∀ a b, g.Adjacent a b → b ∈ g.nodes

theorem wellFormed_newGraph : WellFormed newGraph := by
  refine ⟨?_, ?_, ?_⟩
  · intro id n found
    simp [newGraph] at found
  · intro a b edge
    simp [newGraph, Graph.Adjacent] at edge
  · intro a b edge
    simp [newGraph, Graph.Adjacent] at edge

variable {g : Graph}

theorem WellFormed.insert (wf : WellFormed g) {id : UUID} {n : Node} (own : n.ID = id) :
    WellFormed { g with nodes := g.nodes.insert id n } := by
  refine ⟨?_, ?_, ?_⟩
  · intro id' n' found
    rw [GoMap.lookup_insert_eq] at found
    split_ifs at found with same
    · cases found
      exact own.trans same.symm
    · exact wf.key id' n' found
  · intro a b edge
    exact Finmap.mem_insert.mpr (.inr (wf.source a b edge))
  · intro a b edge
    exact Finmap.mem_insert.mpr (.inr (wf.target a b edge))

theorem WellFormed.subset (wf : WellFormed g) (kept : ∀ e ∈ edges, e ∈ g.edges) :
    WellFormed { g with edges := edges } :=
  ⟨wf.key, fun a b edge => wf.source a b (kept _ edge), fun a b edge => wf.target a b (kept _ edge)⟩

variable {source target : UUID}

theorem addEdge_ok_iff :
    g.addEdge source target = .ok g' ↔
      source ∈ g.nodes ∧ target ∈ g.nodes ∧ ¬ g.Adjacent source target ∧
        g' = { g with edges := g.edges ++ [⟨source, target⟩] } := by
  have listed : (g.edges.any fun e => e.From = source ∧ e.To = target) = true ↔
      g.Adjacent source target := by
    rw [List.any_eq_true]
    constructor
    · rintro ⟨⟨a, b⟩, member, same⟩
      obtain ⟨rfl, rfl⟩ := of_decide_eq_true same
      exact member
    · intro edge
      exact ⟨⟨source, target⟩, edge, by simp⟩
  by_cases isSource : source ∈ g.nodes
  · by_cases isTarget : target ∈ g.nodes
    · by_cases present : g.Adjacent source target
      · rw [Graph.addEdge, if_neg (not_not.mpr isSource), if_neg (not_not.mpr isTarget),
          if_pos (listed.mpr present)]
        simp [present]
      · rw [Graph.addEdge, if_neg (not_not.mpr isSource), if_neg (not_not.mpr isTarget),
          if_neg (listed.not.mpr present), Except.ok.injEq]
        simp [isSource, isTarget, present, eq_comm]
    · simp [Graph.addEdge, isSource, isTarget]
  · simp [Graph.addEdge, isSource]

theorem WellFormed.withEdge (wf : WellFormed g) (isSource : source ∈ g.nodes)
    (isTarget : target ∈ g.nodes) :
    WellFormed { g with edges := g.edges ++ [⟨source, target⟩] } := by
  have either {a b : UUID} (edge : (⟨a, b⟩ : Edge) ∈ g.edges ++ [⟨source, target⟩]) :
      g.Adjacent a b ∨ a = source ∧ b = target := by
    rcases List.mem_append.mp edge with old | new
    · exact .inl old
    · exact .inr (by simpa using new)
  refine ⟨wf.key, ?_, ?_⟩
  · intro a b edge
    rcases either edge with old | ⟨rfl, _⟩
    · exact wf.source a b old
    · exact isSource
  · intro a b edge
    rcases either edge with old | ⟨_, rfl⟩
    · exact wf.target a b old
    · exact isTarget

theorem WellFormed.addEdge (wf : WellFormed g) (added : g.addEdge source target = .ok g') :
    WellFormed g' := by
  obtain ⟨isSource, isTarget, _, rfl⟩ := addEdge_ok_iff.mp added
  exact wf.withEdge isSource isTarget

theorem removeNode_snd (g : Graph) (id : UUID) : (g.removeNode id).2 = g ∨ (g.removeNode id).2 =
      ⟨g.nodes.erase id, g.edges.filter fun e => e.From ≠ id ∧ e.To ≠ id⟩ := by
  by_cases member : id ∈ g.nodes
  · exact .inr (by simp [Graph.removeNode, member])
  · exact .inl (by simp [Graph.removeNode, member])

theorem WellFormed.removeNode (wf : WellFormed g) (id : UUID) : WellFormed (g.removeNode id).2 := by
  rcases removeNode_snd g id with same | removed
  · rw [same]
    exact wf
  · rw [removed]
    have kept {a b : UUID} (edge : (⟨a, b⟩ : Edge) ∈ g.edges.filter fun e => e.From ≠ id ∧ e.To ≠ id) :
        g.Adjacent a b ∧ a ≠ id ∧ b ≠ id := by
      simpa [Graph.Adjacent] using edge
    refine ⟨?_, ?_, ?_⟩
    · intro id' n found
      rw [GoMap.lookup_erase_eq] at found
      split_ifs at found
      exact wf.key id' n found
    · intro a b edge
      obtain ⟨old, notSource, _⟩ := kept edge
      exact Finmap.mem_erase.mpr ⟨notSource, wf.source a b old⟩
    · intro a b edge
      obtain ⟨old, _, notTarget⟩ := kept edge
      exact Finmap.mem_erase.mpr ⟨notTarget, wf.target a b old⟩

theorem removeEdge_snd (g : Graph) (source target : UUID) :
    ∃ edges : List Edge, edges.Sublist g.edges ∧
      (g.removeEdge source target).2 = { g with edges := edges } := by
  unfold Graph.removeEdge
  split
  · rename_i i _
    refine ⟨_, ?_, rfl⟩
    calc (g.edges.take i ++ g.edges.drop (i + 1)).Sublist (g.edges.take i ++ g.edges.drop i) :=
          List.Sublist.append_left (List.drop_sublist_drop_left _ (Nat.le_succ i)) _
      _ = g.edges := List.take_append_drop i g.edges
  · exact ⟨g.edges, List.Sublist.refl _, rfl⟩

theorem WellFormed.apply (wf : WellFormed g) (op : GraphOp) : WellFormed (g.apply op) := by
  cases op with
  | addNode id name => exact wf.insert rfl
  | addNodeWithID id name =>
    by_cases taken : id ∈ g.nodes
    · simpa [Graph.apply, Graph.addNodeWithID, taken] using wf
    · simp only [Graph.apply, Graph.addNodeWithID, taken, ↓reduceIte]
      exact wf.insert rfl
  | addEdge source target =>
    cases added : g.addEdge source target with
    | error message => simpa [Graph.apply, added] using wf
    | ok g' => simpa [Graph.apply, added] using wf.addEdge added
  | removeNode id => exact wf.removeNode id
  | removeEdge source target =>
    obtain ⟨edges, sublist, same⟩ := removeEdge_snd g source target
    simp only [Graph.apply, same]
    exact wf.subset fun e member => sublist.subset member
  | clear => exact wellFormed_newGraph
  | writeMetadata id key value =>
    cases found : g.nodes.lookup id with
    | none => simpa [Graph.apply, found] using wf
    | some n =>
      simp only [Graph.apply, found]
      exact wf.insert (wf.key id n found)

theorem wellFormed_graphAfter (ops : List GraphOp) : WellFormed (graphAfter ops) := by
  induction ops using List.reverseRecOn with
  | nil => exact wellFormed_newGraph
  | append_singleton ops op ih =>
    rw [graphAfter, List.foldl_append]
    exact ih.apply op

end NexusPipe.Proof.Dag
