import NexusPipe.Dag.Graph

namespace NexusPipe.Dag
open Library

inductive ErrorType
  | cycleDetected
  | orphanNode
  | missingDependency
  | depthValidationFailed
  | maxDepthExceeded
  | dependencyNotFound
  | duplicateNodeName
  | sourceNotFound
  | targetNotFound
  | edgeCreatesCycle
  deriving DecidableEq, Repr

def ErrorType.text : ErrorType → String
  | .cycleDetected => "CYCLE_DETECTED"
  | .orphanNode => "ORPHAN_NODE"
  | .missingDependency => "MISSING_DEPENDENCY"
  | .depthValidationFailed => "DEPTH_VALIDATION_FAILED"
  | .maxDepthExceeded => "MAX_DEPTH_EXCEEDED"
  | .dependencyNotFound => "DEPENDENCY_NOT_FOUND"
  | .duplicateNodeName => "DUPLICATE_NODE_NAME"
  | .sourceNotFound => "SOURCE_NOT_FOUND"
  | .targetNotFound => "TARGET_NOT_FOUND"
  | .edgeCreatesCycle => "EDGE_CREATES_CYCLE"

structure ValidationError where
  ErrType : ErrorType
  Message : Text
  NodeID : UUID := 0
  NodeIDs : List UUID := []
  deriving DecidableEq, Repr

structure ValidationResult where
  Valid : Bool
  Errors : List ValidationError
  deriving DecidableEq, Repr

def ValidationError.error (e : ValidationError) : Text :=
  sprintf "[%s] %s" [.str e.ErrType.text, e.Message]

def ValidationResult.error (r : ValidationResult) : Text :=
  if r.Valid then .str ""
  else sprintf "DAG validation failed (%d errors):\n%s"
    [.int r.Errors.length, .slice (r.Errors.map ValidationError.error)]

def ValidationResult.of (errors : List ValidationError) : ValidationResult :=
  ⟨errors.length = 0, errors⟩

structure Validator where
  maxDepth : Int
  deriving DecidableEq, Repr

def newValidator : Validator := ⟨100⟩

def newValidatorWithMaxDepth (maxDepth : Int) : Validator :=
  if maxDepth < 1 then ⟨1⟩ else ⟨maxDepth⟩

def Graph.nodeList (order : GoMap.RangeOrder UUID Node) (g : Graph) : List Node :=
  (order g.nodes).entries.map Sigma.snd

structure ValidateOrder where
  sort : Graph.SortOrder
  cycleNodes : GoMap.RangeOrder UUID Node
  inCycle : GoMap.RangeOrder UUID Bool
  orphanNodes : GoMap.RangeOrder UUID Node
  levels : Graph.LevelOrder

def validateCycles (order : ValidateOrder) (g : Graph) : Except Fault (List ValidationError) :=
  match g.topologicalSort order.sort with
  | (_, false) => .ok []
  | (sorted, true) => do
    let all := (g.nodeList order.cycleNodes).foldl
      (fun inCycle n => inCycle.insert n.ID true) (∅ : GoMap UUID Bool)
    let inCycle ← sorted.foldlM
      (fun inCycle n => match n with
        | some n => .ok (inCycle.erase n.ID)
        | none => .error (.panic "nil pointer dereference"))
      all
    let cycleNodeIDs := (order.inCycle inCycle).entries.map Sigma.fst
    let cycleNames := cycleNodeIDs.filterMap fun id => (g.node id).map Node.Name
    return [{
      ErrType := .cycleDetected
      Message := sprintf "graph contains a cycle involving nodes: %s"
        [.str (", ".intercalate cycleNames)]
      NodeIDs := cycleNodeIDs }]

def validateOrphanNodes (order : ValidateOrder) (g : Graph) : List ValidationError :=
  (g.nodeList order.orphanNodes).filterMap fun n =>
    if (g.parents n.ID).length = 0 ∧ (g.children n.ID).length = 0 then
      some {
        ErrType := .orphanNode
        Message := sprintf "node %q has no dependencies and no dependents" [.str n.Name]
        NodeID := n.ID }
    else none

def validateDependencies (g : Graph) : List ValidationError :=
  g.edges.flatMap fun e =>
    (if (g.node e.From).isNone then
      [{ ErrType := .missingDependency
         Message := sprintf "edge references non-existent source node %s" [.uuid e.From]
         NodeID := e.From }]
    else []) ++
    (if (g.node e.To).isNone then
      [{ ErrType := .missingDependency
         Message := sprintf "edge references non-existent target node %s" [.uuid e.To]
         NodeID := e.To }]
    else [])

def Validator.validateMaxDepth (v : Validator) (order : ValidateOrder) (g : Graph) :
    Except Fault (List ValidationError) :=
  match g.levels order.levels with
  | .error (.panic reason) => .error (.panic reason)
  | .error (.error err) =>
    .ok [{ ErrType := .depthValidationFailed
           Message := sprintf "cannot compute levels: %v" [err] }]
  | .ok levels =>
    if levels.length > v.maxDepth then
      .ok [{ ErrType := .maxDepthExceeded
             Message := sprintf "graph depth %d exceeds maximum allowed depth %d"
               [.int levels.length, .int v.maxDepth] }]
    else .ok []

def Validator.validateDAG (v : Validator) (order : ValidateOrder) (g : Graph) :
    Except Fault ValidationResult := do
  let cycleErrors ← validateCycles order g
  let orphanErrors := validateOrphanNodes order g
  let depErrors := validateDependencies g
  let depthErrors ← v.validateMaxDepth order g
  return .of (cycleErrors ++ orphanErrors ++ depErrors ++ depthErrors)

def validateNodeAddition (order : GoMap.RangeOrder UUID Node) (g : Graph) (name : String)
    (dependsOn : List UUID) : ValidationResult :=
  let missing := dependsOn.filterMap fun depID =>
    if (g.node depID).isNone then
      some { ErrType := .dependencyNotFound
             Message := sprintf "dependency node %s does not exist in graph" [.uuid depID]
             NodeID := depID }
    else none
  let duplicate := match (g.nodeList order).find? fun n => n.Name = name with
    | some n => [{ ErrType := .duplicateNodeName
                   Message := sprintf "node with name %q already exists" [.str name]
                   NodeID := n.ID }]
    | none => []
  .of (missing ++ duplicate)

structure EdgeAdditionOrder where
  nodes : GoMap.RangeOrder UUID Node
  sort : Graph.SortOrder

def testGraph (order : GoMap.RangeOrder UUID Node) (g : Graph) (source target : UUID) : Graph :=
  { nodes := (g.nodeList order).foldl (fun nodes n => nodes.insert n.ID n) newGraph.nodes
    edges := newGraph.edges ++ g.edges ++ [⟨source, target⟩] }

def validateEdgeAddition (order : EdgeAdditionOrder) (g : Graph) (source target : UUID) :
    ValidationResult :=
  let errors : List ValidationError :=
    (if (g.node source).isNone then
      [{ ErrType := .sourceNotFound
         Message := sprintf "source node %s does not exist" [.uuid source]
         NodeID := source }]
    else []) ++
    (if (g.node target).isNone then
      [{ ErrType := .targetNotFound
         Message := sprintf "target node %s does not exist" [.uuid target]
         NodeID := target }]
    else [])
  if errors.length > 0 then ⟨false, errors⟩
  else if (testGraph order.nodes g source target).hasCycle order.sort then
    let name (id : UUID) := match g.node id with
      | some n => n.Name
      | none => "unknown"
    .of [{ ErrType := .edgeCreatesCycle
           Message := sprintf "adding edge from %q to %q would create a cycle"
             [.str (name source), .str (name target)] }]
  else .of []

end NexusPipe.Dag
