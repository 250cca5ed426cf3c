import NexusPipe.Go
import NexusPipe.Library.Kahn
import NexusPipe.Library.While

namespace NexusPipe.Dag
open Library

inductive Metadatum
  | duration (nanoseconds : Int)
  | other
  deriving DecidableEq, Repr

structure Node where
  ID : UUID
  Name : String
  Metadata : GoMap String Metadatum
  deriving DecidableEq

structure Edge where
  From : UUID
  To : UUID
  deriving DecidableEq, Repr

structure Graph where
  nodes : GoMap UUID Node
  edges : List Edge

def newGraph : Graph := ⟨∅, []⟩

namespace Graph

def addNode (g : Graph) (id : UUID) (name : String) : Node × Graph :=
  let n : Node := ⟨id, name, ∅⟩
  (n, { g with nodes := g.nodes.insert id n })

def addNodeWithID (g : Graph) (id : UUID) (name : String) : Except Text (Node × Graph) :=
  if id ∈ g.nodes then .error (sprintf "node with id %s already exists" [.uuid id])
  else
    let n : Node := ⟨id, name, ∅⟩
    .ok (n, { g with nodes := g.nodes.insert id n })

def addEdge (g : Graph) (source target : UUID) : Except Text Graph :=
  if source ∉ g.nodes then .error (sprintf "source node %s does not exist" [.uuid source])
  else if target ∉ g.nodes then .error (sprintf "target node %s does not exist" [.uuid target])
  else if g.edges.any (fun e => e.From = source ∧ e.To = target) then
    .error (sprintf "edge from %s to %s already exists" [.uuid source, .uuid target])
  else .ok { g with edges := g.edges ++ [⟨source, target⟩] }

def removeNode (g : Graph) (id : UUID) : Bool × Graph :=
  if id ∉ g.nodes then (false, g)
  else (true, ⟨g.nodes.erase id, g.edges.filter fun e => e.From ≠ id ∧ e.To ≠ id⟩)

def removeEdge (g : Graph) (source target : UUID) : Bool × Graph :=
  match g.edges.findIdx? fun e => e.From = source ∧ e.To = target with
  | some i => (true, { g with edges := g.edges.take i ++ g.edges.drop (i + 1) })
  | none => (false, g)

def clear (_ : Graph) : Graph := newGraph

def node (g : Graph) (id : UUID) : Option Node := g.nodes.lookup id

def children (g : Graph) (id : UUID) : List Node :=
  g.edges.filterMap fun e => if e.From = id then g.nodes.lookup e.To else none

def parents (g : Graph) (id : UUID) : List Node :=
  g.edges.filterMap fun e => if e.To = id then g.nodes.lookup e.From else none

def string (order : GoMap.RangeOrder UUID Node) (g : Graph) : String :=
  (order g.nodes).entries.foldl
    (fun b n => b ++ "  " ++ n.2.Name
      ++ " [parents: " ++ ", ".intercalate ((g.parents n.2.ID).map Node.Name)
      ++ "] [children: " ++ ", ".intercalate ((g.children n.2.ID).map Node.Name) ++ "]\n")
    ("Graph (" ++ toString (GoMap.len g.nodes) ++ " nodes, " ++ toString g.edges.length
      ++ " edges):\n")

structure SortOrder where
  nodes : GoMap.RangeOrder UUID Node
  inDegree : GoMap.RangeOrder UUID Int

def inDegrees (order : GoMap.RangeOrder UUID Node) (g : Graph) : GoMap UUID Int :=
  let zeros := (order g.nodes).entries.foldl (fun m n => m.insert n.2.ID 0) (∅ : GoMap UUID Int)
  g.edges.foldl (fun m e => m.insert e.To (GoMap.get m e.To + 1)) zeros

structure SortState where
  inDegree : GoMap UUID Int
  queue : List UUID
  sorted : List (Option Node)

def sortEdge (current : UUID) (s : SortState) (e : Edge) : SortState :=
  if e.From = current then
    let inDegree := s.inDegree.insert e.To (s.inDegree.get e.To - 1)
    if GoMap.get inDegree e.To = 0 then
      { s with inDegree := inDegree, queue := s.queue ++ [e.To] }
    else { s with inDegree := inDegree }
  else s

def sortStep (g : Graph) (s : SortState) : Option SortState :=
  match s.queue with
  | [] => none
  | current :: queue =>
    some (g.edges.foldl (sortEdge current)
      { s with queue := queue, sorted := s.sorted ++ [g.nodes.lookup current] })

def pairs (g : Graph) : List (UUID × UUID) := g.edges.map fun e => (e.From, e.To)

def SortState.worklist (s : SortState) (processed : List UUID) : Worklist UUID :=
  ⟨s.inDegree.get, s.queue, processed⟩

theorem worklist_foldl_sortEdge (current : UUID) (edges : List Edge) (s : SortState)
    (processed : List UUID) :
    (edges.foldl (sortEdge current) s).worklist processed =
      (edges.map fun e => (e.From, e.To)).foldl (Worklist.relax current)
        (s.worklist processed) := by
  induction edges generalizing s with
  | nil => rfl
  | cons e edges ih =>
    rw [List.foldl_cons, List.map_cons, List.foldl_cons, ih]
    congr 1
    by_cases leaves : e.From = current
    · by_cases zero : s.inDegree.get e.To - 1 = 0 <;>
        simp [sortEdge, leaves, Worklist.relax, SortState.worklist, GoMap.get_insert, zero]
    · simp [sortEdge, leaves, Worklist.relax, SortState.worklist]

theorem sortStep_worklist {g : Graph} {s s' : SortState} (next : sortStep g s = some s')
    (processed : List UUID) :
    ∃ current queue, s.queue = current :: queue ∧
      Worklist.step g.pairs (s.worklist processed) =
        some (s'.worklist (processed ++ [current])) := by
  unfold sortStep at next
  split at next
  · cases next
  · rename_i current queue atHead
    rw [Option.some.injEq] at next
    refine ⟨current, queue, atHead, ?_⟩
    rw [← next, worklist_foldl_sortEdge]
    simp only [Worklist.step, SortState.worklist, atHead]
    rfl

def sortVariant (g : Graph) (s : SortState) : Nat := Worklist.variant g.pairs (s.worklist [])

theorem sortVariant_decreases (g : Graph) (s s' : SortState) (next : sortStep g s = some s') :
    sortVariant g s' < sortVariant g s := by
  obtain ⟨current, queue, _, simulated⟩ := sortStep_worklist next []
  have smaller := Worklist.variant_step g.pairs _ _ simulated
  exact smaller

def sortStart (order : SortOrder) (g : Graph) : SortState :=
  let inDegree := g.inDegrees order.nodes
  { inDegree := inDegree
    queue := ((order.inDegree inDegree).entries.filter fun x => x.2 = 0).map Sigma.fst
    sorted := [] }

def topologicalSort (order : SortOrder) (g : Graph) : List (Option Node) × Bool :=
  let s := whileDo (sortStep g) (sortVariant g) (sortVariant_decreases g) (g.sortStart order)
  (s.sorted, s.sorted.length ≠ GoMap.len g.nodes)

def hasCycle (order : SortOrder) (g : Graph) : Bool := (g.topologicalSort order).2

structure LevelOrder where
  sort : SortOrder
  nodes : GoMap.RangeOrder UUID Node
  inDegree : GoMap.RangeOrder UUID Int
  levelMap : GoMap.RangeOrder UUID Nat

structure LevelState where
  inDegree : GoMap UUID Int
  levelMap : GoMap UUID Nat
  queue : List UUID

def levelEdge (current : UUID) (s : LevelState) (e : Edge) : LevelState :=
  if e.From = current then
    let childLevel := s.levelMap.get current + 1
    let levelMap := match s.levelMap.lookup e.To with
      | none => s.levelMap.insert e.To childLevel
      | some existing =>
        if childLevel > existing then s.levelMap.insert e.To childLevel else s.levelMap
    let inDegree := s.inDegree.insert e.To (s.inDegree.get e.To - 1)
    if GoMap.get inDegree e.To = 0 then ⟨inDegree, levelMap, s.queue ++ [e.To]⟩
    else ⟨inDegree, levelMap, s.queue⟩
  else s

def levelStep (g : Graph) (s : LevelState) : Option LevelState :=
  match s.queue with
  | [] => none
  | current :: queue => some (g.edges.foldl (levelEdge current) { s with queue := queue })

def LevelState.worklist (s : LevelState) (processed : List UUID) : Worklist UUID :=
  ⟨s.inDegree.get, s.queue, processed⟩

theorem worklist_levelEdge (current : UUID) (e : Edge) (s : LevelState)
    (processed : List UUID) :
    (levelEdge current s e).worklist processed =
      Worklist.relax current (s.worklist processed) (e.From, e.To) := by
  by_cases leaves : e.From = current
  · by_cases zero : s.inDegree.get e.To - 1 = 0 <;>
      simp [levelEdge, leaves, Worklist.relax, LevelState.worklist, GoMap.get_insert, zero]
  · simp [levelEdge, leaves, Worklist.relax, LevelState.worklist]

theorem worklist_foldl_levelEdge (current : UUID) (edges : List Edge) (s : LevelState)
    (processed : List UUID) :
    (edges.foldl (levelEdge current) s).worklist processed =
      (edges.map fun e => (e.From, e.To)).foldl (Worklist.relax current)
        (s.worklist processed) := by
  induction edges generalizing s with
  | nil => rfl
  | cons e edges ih =>
    rw [List.foldl_cons, List.map_cons, List.foldl_cons, ih, worklist_levelEdge]

theorem levelStep_worklist {g : Graph} {s s' : LevelState} (next : levelStep g s = some s')
    (processed : List UUID) :
    ∃ current queue, s.queue = current :: queue ∧
      s' = g.edges.foldl (levelEdge current) { s with queue := queue } ∧
      Worklist.step g.pairs (s.worklist processed) =
        some (s'.worklist (processed ++ [current])) := by
  unfold levelStep at next
  split at next
  · cases next
  · rename_i current queue atHead
    rw [Option.some.injEq] at next
    refine ⟨current, queue, atHead, next.symm, ?_⟩
    rw [← next, worklist_foldl_levelEdge]
    simp only [Worklist.step, LevelState.worklist, atHead]
    rfl

def levelVariant (g : Graph) (s : LevelState) : Nat := Worklist.variant g.pairs (s.worklist [])

theorem levelVariant_decreases (g : Graph) (s s' : LevelState) (next : levelStep g s = some s') :
    levelVariant g s' < levelVariant g s := by
  obtain ⟨current, queue, _, _, simulated⟩ := levelStep_worklist next []
  have smaller := Worklist.variant_step g.pairs _ _ simulated
  exact smaller

def levelStart (order : LevelOrder) (g : Graph) : LevelState :=
  let inDegree := g.inDegrees order.nodes
  (order.inDegree inDegree).entries.foldl
    (fun s x => if x.2 = 0 then
        { s with levelMap := s.levelMap.insert x.1 0, queue := s.queue ++ [x.1] }
      else s)
    ⟨inDegree, ∅, []⟩

def placeNode (levelMap : GoMap UUID Nat) (levels : List (List Node)) (n : Option Node) :
    Except Fault (List (List Node)) :=
  match n with
  | none => .error (.panic "nil pointer dereference")
  | some n =>
    let lvl := levelMap.get n.ID
    if lvl < levels.length then .ok (levels.modify lvl (· ++ [n]))
    else .error (.panic "index out of range")

def levels (order : LevelOrder) (g : Graph) : Except Fault (List (List Node)) :=
  match g.topologicalSort order.sort with
  | (_, true) => .error (.error (.str "graph contains a cycle, cannot compute levels"))
  | (sorted, false) =>
    let s := whileDo (levelStep g) (levelVariant g) (levelVariant_decreases g)
      (g.levelStart order)
    let maxLevel := (order.levelMap s.levelMap).entries.foldl
      (fun maxLevel l => if l.2 > maxLevel then l.2 else maxLevel) 0
    sorted.foldlM (placeNode s.levelMap) (List.replicate (maxLevel + 1) [])

end Graph

/-- A call of a public mutator. `writeMetadata` is a client's write through a `*Node` it holds. -/
inductive GraphOp
  | addNode (id : UUID) (name : String)
  | addNodeWithID (id : UUID) (name : String)
  | addEdge (source target : UUID)
  | removeNode (id : UUID)
  | removeEdge (source target : UUID)
  | clear
  | writeMetadata (id : UUID) (key : String) (value : Metadatum)
  deriving DecidableEq, Repr

def Graph.apply (g : Graph) : GraphOp → Graph
  | .addNode id name => (g.addNode id name).2
  | .addNodeWithID id name =>
    match g.addNodeWithID id name with
    | .ok (_, g') => g'
    | .error _ => g
  | .addEdge source target =>
    match g.addEdge source target with
    | .ok g' => g'
    | .error _ => g
  | .removeNode id => (g.removeNode id).2
  | .removeEdge source target => (g.removeEdge source target).2
  | .clear => g.clear
  | .writeMetadata id key value =>
    match g.nodes.lookup id with
    | none => g
    | some n =>
      { g with nodes := g.nodes.insert id { n with Metadata := n.Metadata.insert key value } }

def graphAfter (ops : List GraphOp) : Graph := ops.foldl Graph.apply newGraph

def Graph.Adjacent (g : Graph) (a b : UUID) : Prop := ⟨a, b⟩ ∈ g.edges

end NexusPipe.Dag
