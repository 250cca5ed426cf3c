import NexusPipe.Dag.Validator
import NexusPipe.Library.Schedule
import NexusPipe.Proof.Dag.TopologicalSort

namespace NexusPipe.Proof.Dag
open NexusPipe.Dag Library Relation List

variable {g : Graph}

theorem testGraph_eq (wf : WellFormed g) (order : GoMap.RangeOrder UUID Node) (source target : UUID) :
    testGraph order g source target = { g with edges := g.edges ++ [⟨source, target⟩] } := by
  have copied : (g.nodeList order).foldl (fun nodes n => nodes.insert n.ID n)
      (∅ : GoMap UUID Node) = g.nodes := by
    have own : (g.nodeList order).foldl (fun nodes n => nodes.insert n.ID n) (∅ : GoMap UUID Node) =
        (order g.nodes).entries.foldl (fun nodes x => nodes.insert x.1 x.2) ∅ := by
      rw [Graph.nodeList, foldl_map]
      apply foldl_ext
      intro nodes x member
      rw [wf.key x.1 x.2 ((order g.nodes).mem_entries.mp member)]
    rw [own]
    apply Finmap.ext_lookup
    intro id
    rw [GoMap.Ranging.lookup_merge]
    simp
  rw [testGraph, newGraph, copied, nil_append]

theorem validateEdgeAddition_valid_iff (wf : WellFormed g) (order : EdgeAdditionOrder)
    (source target : UUID) :
    (validateEdgeAddition order g source target).Valid = true ↔
      source ∈ g.nodes ∧ target ∈ g.nodes ∧
        Acyclic (Graph.Adjacent { g with edges := g.edges ++ [⟨source, target⟩] }) := by
  by_cases isSource : source ∈ g.nodes
  · by_cases isTarget : target ∈ g.nodes
    · obtain ⟨n, foundSource⟩ := Finmap.mem_iff.mp isSource
      obtain ⟨m, foundTarget⟩ := Finmap.mem_iff.mp isTarget
      have sorted := hasCycle_iff (wf.withEdge isSource isTarget) order.sort
      rw [← testGraph_eq wf order.nodes] at sorted ⊢
      simp only [validateEdgeAddition, Graph.node, foundSource, foundTarget, Option.isNone_some,
        Bool.false_eq_true, ↓reduceIte, append_nil, length_nil, gt_iff_lt,
        Nat.lt_irrefl, isSource, isTarget, true_and]
      by_cases cyclic : (testGraph order.nodes g source target).hasCycle order.sort = true
      · obtain ⟨id, cycle⟩ := sorted.mp cyclic
        rw [if_pos cyclic]
        exact ⟨fun valid => by simp [ValidationResult.of] at valid,
          fun acyclic => absurd cycle (acyclic id)⟩
      · rw [if_neg cyclic]
        refine ⟨fun _ id cycle => cyclic (sorted.mpr ⟨id, cycle⟩), fun _ => rfl⟩
    · have absent : g.nodes.lookup target = none := Finmap.lookup_eq_none.mpr isTarget
      simp [validateEdgeAddition, Graph.node, absent, isTarget]
  · have absent : g.nodes.lookup source = none := Finmap.lookup_eq_none.mpr isSource
    simp [validateEdgeAddition, Graph.node, absent, isSource]

theorem valid_iff_addEdge (wf : WellFormed g) (acyclic : Acyclic g.Adjacent)
    (order : EdgeAdditionOrder) (source target : UUID) :
    ((validateEdgeAddition order g source target).Valid = true ↔
        ∃ g', g.addEdge source target = .ok g' ∧ Acyclic g'.Adjacent) ↔
      ¬ g.Adjacent source target := by
  rw [validateEdgeAddition_valid_iff wf]
  constructor
  · intro agree edge
    have same : Graph.Adjacent { g with edges := g.edges ++ [⟨source, target⟩] } = g.Adjacent := by
      funext a b
      rw [Graph.Adjacent, Graph.Adjacent, mem_append, mem_singleton, eq_iff_iff]
      apply or_iff_left_of_imp
      intro equal
      cases equal
      exact edge
    obtain ⟨g', added, _⟩ := agree.mp
      ⟨wf.source _ _ edge, wf.target _ _ edge, by rw [same]; exact acyclic⟩
    exact (addEdge_ok_iff.mp added).2.2.1 edge
  · intro fresh
    simp only [addEdge_ok_iff]
    constructor
    · rintro ⟨isSource, isTarget, still⟩
      exact ⟨_, ⟨isSource, isTarget, fresh, rfl⟩, still⟩
    · rintro ⟨g', ⟨isSource, isTarget, _, rfl⟩, still⟩
      exact ⟨isSource, isTarget, still⟩

abbrev ClientCall := GraphOp × EdgeAdditionOrder

def clientStep (g : Graph) (call : ClientCall) : Option Graph := some (g.apply call.1)

def AsksFirst (g : Graph) : ClientCall → Prop
  | (.addEdge source target, order) => (validateEdgeAddition order g source target).Valid = true
  | _ => True

def AddsExisting (g : Graph) : ClientCall → Prop
  | (.addEdge source target, _) => g.Adjacent source target
  | _ => False

def AddEdgeFails (g : Graph) : ClientCall → Prop
  | (.addEdge source target, _) => ∃ err, g.addEdge source target = .error err
  | _ => False

theorem acyclic_of_subset {g' : Graph} (acyclic : Acyclic g.Adjacent)
    (kept : ∀ e ∈ g'.edges, e ∈ g.edges) : Acyclic g'.Adjacent := by
  intro id cycle
  exact acyclic id (TransGen.mono (fun a b edge => kept ⟨a, b⟩ edge) id id cycle)

theorem asksFirst_step (wf : WellFormed g) (acyclic : Acyclic g.Adjacent) (call : ClientCall)
    (asks : AsksFirst g call) : Acyclic (g.apply call.1).Adjacent := by
  obtain ⟨op, order⟩ := call
  cases op with
  | addEdge source target =>
    cases added : g.addEdge source target with
    | error err => simpa [Graph.apply, added] using acyclic
    | ok g' =>
      simp only [Graph.apply, added]
      obtain ⟨_, _, _, rfl⟩ := addEdge_ok_iff.mp added
      exact ((validateEdgeAddition_valid_iff wf order source target).mp asks).2.2
  | addNode id name => exact acyclic
  | addNodeWithID id name =>
    by_cases taken : id ∈ g.nodes
    · simpa [Graph.apply, Graph.addNodeWithID, taken] using acyclic
    · simp only [Graph.apply, Graph.addNodeWithID, taken, ↓reduceIte]
      exact acyclic
  | removeNode id =>
    rcases removeNode_snd g id with same | removed
    · simpa only [Graph.apply, same] using acyclic
    · simp only [Graph.apply, removed]
      exact acyclic_of_subset acyclic fun e member => mem_of_mem_filter member
  | removeEdge source target =>
    obtain ⟨edges, sublist, same⟩ := removeEdge_snd g source target
    simp only [Graph.apply, same]
    exact acyclic_of_subset acyclic fun e member => sublist.subset member
  | clear => exact acyclic_of_subset acyclic fun e member => by cases member
  | writeMetadata id key value =>
    cases found : g.nodes.lookup id with
    | none => simpa [Graph.apply, found] using acyclic
    | some n =>
      simp only [Graph.apply, found]
      exact acyclic

theorem addEdgeFails_iff (wf : WellFormed g) (asks : AsksFirst g call) :
    AddEdgeFails g call ↔ AddsExisting g call := by
  obtain ⟨op, order⟩ := call
  cases op with
  | addEdge source target =>
    obtain ⟨isSource, isTarget, _⟩ :=
      (validateEdgeAddition_valid_iff wf order source target).mp asks
    constructor
    · rintro ⟨err, failed⟩
      by_contra fresh
      have added := addEdge_ok_iff.mpr ⟨isSource, isTarget, fresh, rfl⟩
      rw [failed] at added
      cases added
    · intro edge
      cases added : g.addEdge source target with
      | error err => exact ⟨err, added⟩
      | ok g' => exact absurd edge (addEdge_ok_iff.mp added).2.2.1
  | _ => rfl

theorem validateEdgeAddition_agrees_iff (ops : List GraphOp)
    (acyclic : Acyclic (graphAfter ops).Adjacent) : (∀ order source target,
      ((validateEdgeAddition order (graphAfter ops) source target).Valid = true ↔
          ∃ g', (graphAfter ops).addEdge source target = .ok g' ∧ Acyclic g'.Adjacent) ↔
        ¬ (graphAfter ops).Adjacent source target) ∧
    ∀ calls, Along clientStep AsksFirst (graphAfter ops) calls →
      (∀ g', runSchedule clientStep (graphAfter ops) calls = some g' → Acyclic g'.Adjacent) ∧
      (Along clientStep (fun g call => ¬ AddEdgeFails g call) (graphAfter ops) calls ↔
        Along clientStep (fun g call => ¬ AddsExisting g call) (graphAfter ops) calls) := by
  have wf := wellFormed_graphAfter ops
  refine ⟨valid_iff_addEdge wf acyclic, fun calls asks => ?_⟩
  have kept (g : Graph) (call : ClientCall) (g' : Graph)
      (sound : WellFormed g ∧ Acyclic g.Adjacent) (asks : AsksFirst g call)
      (next : clientStep g call = some g') : WellFormed g' ∧ Acyclic g'.Adjacent := by
    cases next
    exact ⟨sound.1.apply call.1, asksFirst_step sound.1 sound.2 call asks⟩
  refine ⟨fun g' run => ?_, ?_⟩
  · exact (runSchedule_invariant_along AsksFirst (fun g => WellFormed g ∧ Acyclic g.Adjacent) kept
      run asks ⟨wf, acyclic⟩).2
  · refine along_congr (fun g => WellFormed g ∧ Acyclic g.Adjacent) kept ?_ ⟨wf, acyclic⟩ asks
    exact fun g call sound asks => not_congr (addEdgeFails_iff sound.1 asks)

theorem chain_edge_again : Acyclic (graphAfter chain).Adjacent ∧
    (validateEdgeAddition ⟨ascending, ascending, ascending⟩ (graphAfter chain) 1 2).Valid = true ∧
    (graphAfter chain).addEdge 1 2 =
      .error (sprintf "edge from %s to %s already exists" [.uuid 1, .uuid 2]) :=
  ⟨chain_acyclic, by decide +kernel, rfl⟩

theorem chain_agrees_iff : (∀ order source target,
      ((validateEdgeAddition order (graphAfter chain) source target).Valid = true ↔
          ∃ g', (graphAfter chain).addEdge source target = .ok g' ∧ Acyclic g'.Adjacent) ↔
        ¬ (graphAfter chain).Adjacent source target) ∧
    ∀ calls, Along clientStep AsksFirst (graphAfter chain) calls →
      (∀ g', runSchedule clientStep (graphAfter chain) calls = some g' → Acyclic g'.Adjacent) ∧
      (Along clientStep (fun g call => ¬ AddEdgeFails g call) (graphAfter chain) calls ↔
        Along clientStep (fun g call => ¬ AddsExisting g call) (graphAfter chain) calls) :=
  validateEdgeAddition_agrees_iff chain chain_acyclic

end NexusPipe.Proof.Dag
