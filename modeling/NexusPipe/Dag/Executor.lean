import NexusPipe.Dag.Graph
import NexusPipe.Library.Schedule

namespace NexusPipe.Dag
open Library

inductive NodeStatus
  | pending | running | completed | failed | skipped
  deriving DecidableEq, Repr

structure NodeResult (V : Type) where
  NodeID : UUID
  NodeName : String
  Status : NodeStatus
  Error : Text
  Output : Option V
  deriving DecidableEq

/-- A handler sees its context's timeout, the node and the inputs. `W` is everything else that its
answer may depend on: the clock, the context's state, other services. -/
abbrev NodeHandler (W V : Type) := W → Int → Node → GoMap UUID V → Outcome V

inductive ExecutionPolicy
  | failFast | continueOnFailure
  deriving DecidableEq, Repr

structure DAGExecutor (W V : Type) where
  handlers : GoMap String (NodeHandler W V)
  policy : ExecutionPolicy
  defaultTimeout : Int

def newDAGExecutor (W V : Type) : DAGExecutor W V := ⟨∅, .failFast, 5 * minute⟩

structure ExecutionResult (V : Type) where
  GraphName : String
  Results : GoMap UUID (NodeResult V)
  Success : Bool

namespace DAGExecutor
variable {W V : Type} (e : DAGExecutor W V)

def registerHandler (name : String) (handler : NodeHandler W V) : DAGExecutor W V :=
  { e with handlers := e.handlers.insert name handler }

def setExecutionPolicy (policy : ExecutionPolicy) : DAGExecutor W V := { e with policy := policy }

def setDefaultTimeout (timeout : Int) : DAGExecutor W V := { e with defaultTimeout := timeout }

def resolveTimeout (node : Node) : Int :=
  match node.Metadata.lookup "timeout" with
  | some (.duration timeout) => timeout
  | _ => e.defaultTimeout

end DAGExecutor

variable {W V : Type}

def parentsFromGraph (node : Node) (graph : Option Graph) : List Node :=
  match graph with
  | none => []
  | some g => g.parents node.ID

def collectInputs (node : Node) (nodeOutputs : GoMap UUID V) : GoMap UUID V :=
  (parentsFromGraph node none).foldl
    (fun inputs parent => match nodeOutputs.lookup parent.ID with
      | some output => inputs.insert parent.ID output
      | none => inputs)
    ∅

def unhandledResult (node : Node) : NodeResult V :=
  ⟨node.ID, node.Name, .completed, .str "", none⟩

def handledResult (node : Node) (outcome : Outcome V) : NodeResult V :=
  match outcome.2 with
  | some err => ⟨node.ID, node.Name, .failed, err, none⟩
  | none => ⟨node.ID, node.Name, .completed, .str "", outcome.1⟩

def cancelledResult (node : Node) : NodeResult V :=
  ⟨node.ID, node.Name, .skipped, .str "execution cancelled", none⟩

def recordOutput (nodeOutputs : GoMap UUID V) (id : UUID) (result : NodeResult V) : GoMap UUID V :=
  match result.Status, result.Output with
  | .completed, some output => nodeOutputs.insert id output
  | _, _ => nodeOutputs

structure MarkState (V : Type) where
  visited : Finset UUID
  skipped : GoMap UUID (NodeResult V)
  -- The children that the open calls of `markSkipped` still have to look at.
  pending : List Node

def MarkState.call (g : Graph) (id : UUID) (s : MarkState V) : MarkState V :=
  if id ∈ s.visited then s
  else { s with visited := insert id s.visited, pending := g.children id ++ s.pending }

def markStep (g : Graph) (results : GoMap UUID (NodeResult V)) (s : MarkState V) :
    Option (MarkState V) :=
  match s.pending with
  | [] => none
  | child :: pending =>
    let skipped := if child.ID ∈ results then s.skipped
      else s.skipped.insert child.ID
        ⟨child.ID, child.Name, .skipped, .str "dependency failed", none⟩
    some (MarkState.call g child.ID { s with skipped := skipped, pending := pending })

def markVariant (g : Graph) (s : MarkState V) : Nat :=
  s.pending.length + g.edges.countP fun e => e.From ∉ s.visited

theorem children_length_add_countP (g : Graph) (visited : Finset UUID) {id : UUID}
    (fresh : id ∉ visited) :
    (g.children id).length + g.edges.countP (fun e => e.From ∉ insert id visited) ≤
      g.edges.countP fun e => e.From ∉ visited := by
  unfold Graph.children
  induction g.edges with
  | nil => simp
  | cons e edges ih =>
    rw [List.filterMap_cons, List.countP_cons, List.countP_cons]
    by_cases leaves : e.From = id
    · cases g.nodes.lookup e.To <;> simp [leaves, fresh] at ih ⊢ <;> omega
    · simp [leaves] at ih ⊢
      omega

theorem markVariant_decreases (g : Graph) (results : GoMap UUID (NodeResult V)) (s s' : MarkState V)
    (next : markStep g results s = some s') : markVariant g s' < markVariant g s := by
  unfold markStep at next
  split at next
  · cases next
  · rename_i child pending atHead
    cases next
    by_cases seen : child.ID ∈ s.visited
    · simp [MarkState.call, seen, markVariant, atHead]
    · have bound := children_length_add_countP g s.visited seen
      simp only [MarkState.call, seen, ↓reduceIte, markVariant, atHead, List.length_append,
        List.length_cons]
      omega

def markSkipped (g : Graph) (results : GoMap UUID (NodeResult V)) (id : UUID) (s : MarkState V) :
    MarkState V :=
  whileDo (markStep g results) (markVariant g) (markVariant_decreases g results) (s.call g id)

def skipDependents (g : Graph) (failedLevel : List Node) (results : GoMap UUID (NodeResult V)) :
    GoMap UUID (NodeResult V) :=
  (failedLevel.foldl
    (fun s n => match results.lookup n.ID with
      | some result => if result.Status = .failed then markSkipped g results n.ID s else s
      | none => s)
    (⟨∅, ∅, []⟩ : MarkState V)).skipped

structure ExecuteOrder (V : Type) where
  levels : Graph.LevelOrder
  graphName : GoMap.RangeOrder UUID Node
  merge : GoMap.RangeOrder UUID (NodeResult V)
  scan : GoMap.RangeOrder UUID (NodeResult V)
  skipped : GoMap.RangeOrder UUID (NodeResult V)
  success : GoMap.RangeOrder UUID (NodeResult V)

/-- Where a level goroutine stands. Every lock section and every side of a handler call is one
step. -/
inductive Pc (V : Type)
  | spawned
  | collected (inputs : GoMap UUID V)
  | executing (inputs : GoMap UUID V)
  | invoked (inputs : GoMap UUID V)
  | skipping
  | finished (result : NodeResult V)
  | stored (result : NodeResult V)
  | done

inductive Phase (V : Type)
  | checking
  | spawning (todo : List Node)
  | waiting
  | returned (result : ExecutionResult V) (err : Option ContextError)

inductive Event (V : Type)
  | started (n : Node) (timeout : Int) (inputs : GoMap UUID V)
  | answered (n : Node) (outcome : Outcome V)
  | ended (n : Node) (result : NodeResult V)
  deriving DecidableEq

structure Execution (V : Type) where
  levels : List (List Node)
  joined : Nat
  phase : Phase V
  -- All goroutines started so far; those of joined levels stay, `done`.
  goroutines : List (Node × Pc V)
  levelResults : GoMap UUID (NodeResult V)
  results : GoMap UUID (NodeResult V)
  nodeOutputs : GoMap UUID V
  ctx : Option ContextError
  trace : List (Event V)

/-- `cancel` ends the caller's context; a goroutine's step may consult the outside world. -/
inductive Action (W : Type)
  | cancel (err : ContextError)
  | main
  | goroutine (i : Nat) (world : W)

def hasFailed (order : GoMap.RangeOrder UUID (NodeResult V)) (results : GoMap UUID (NodeResult V)) :
    Bool :=
  (order results).entries.any fun r => r.2.Status = .failed

def buildResult (order : ExecuteOrder V) (g : Graph) (results : GoMap UUID (NodeResult V)) :
    ExecutionResult V :=
  ⟨g.string order.graphName, results, !hasFailed order.success results⟩

def joinLevel (e : DAGExecutor W V) (order : ExecuteOrder V) (g : Graph) (level : List Node)
    (s : Execution V) : Execution V :=
  let entries := (order.merge s.levelResults).entries
  let results := entries.foldl (fun m r => m.insert r.1 r.2) s.results
  let nodeOutputs := entries.foldl (fun m r => recordOutput m r.1 r.2) s.nodeOutputs
  let hasFailure := hasFailed order.scan s.levelResults
  let hasCriticalFailure := (order.scan s.levelResults).entries.any fun r =>
    r.2.Status = .failed ∧ (g.node r.2.NodeID).isSome
  let s := { s with
    joined := s.joined + 1, levelResults := ∅, results := results, nodeOutputs := nodeOutputs }
  if hasCriticalFailure ∧ e.policy = .failFast then
    { s with phase := .returned (buildResult order g results) none }
  else if hasFailure ∧ e.policy = .failFast then
    let results := (order.skipped (skipDependents g level results)).entries.foldl
      (fun m r => m.insert r.1 r.2) results
    { s with results := results, phase := .returned (buildResult order g results) none }
  else { s with phase := .checking }

def mainStep (e : DAGExecutor W V) (order : ExecuteOrder V) (g : Graph) (s : Execution V) :
    Option (Execution V) :=
  match s.phase, s.levels[s.joined]? with
  | .checking, none => some { s with phase := .returned (buildResult order g s.results) none }
  | .checking, some level =>
    match s.ctx with
    | some err => some { s with phase := .returned (buildResult order g s.results) (some err) }
    | none => some { s with phase := .spawning level, levelResults := ∅ }
  | .spawning (n :: todo), _ =>
    some { s with phase := .spawning todo, goroutines := s.goroutines ++ [(n, .spawned)] }
  | .spawning [], _ => some { s with phase := .waiting }
  | .waiting, some level =>
    if s.goroutines.all fun t => match t.2 with | .done => true | _ => false then
      some (joinLevel e order g level s)
    else none
  | .waiting, none => none
  | .returned _ _, _ => none

def goroutineStep (e : DAGExecutor W V) (world : W) (n : Node) (s : Execution V) :
    Pc V → Option (Pc V × Execution V)
  | .spawned => some (.collected (collectInputs n s.nodeOutputs), s)
  | .collected inputs => some (if s.ctx.isSome then .skipping else .executing inputs, s)
  | .executing inputs =>
    if n.Name ∈ e.handlers then
      some (.invoked inputs,
        { s with trace := s.trace ++ [.started n (e.resolveTimeout n) inputs] })
    else some (.finished (unhandledResult n), s)
  | .invoked inputs =>
    match e.handlers.lookup n.Name with
    | none => none
    | some handler =>
      let outcome := handler world (e.resolveTimeout n) n inputs
      some (.finished (handledResult n outcome),
        { s with trace := s.trace ++ [.answered n outcome] })
  | .skipping =>
    some (.done, { s with
      levelResults := s.levelResults.insert n.ID (cancelledResult n)
      trace := s.trace ++ [.ended n (cancelledResult n)] })
  | .finished result =>
    some (.stored result, { s with levelResults := s.levelResults.insert n.ID result })
  | .stored result =>
    some (.done, { s with
      nodeOutputs := recordOutput s.nodeOutputs n.ID result
      trace := s.trace ++ [.ended n result] })
  | .done => none

def executeStep (e : DAGExecutor W V) (order : ExecuteOrder V) (g : Graph) (s : Execution V) :
    Action W → Option (Execution V)
  | .cancel err => if s.ctx.isNone then some { s with ctx := some err } else none
  | .main => mainStep e order g s
  | .goroutine i world =>
    match s.goroutines[i]? with
    | none => none
    | some (n, pc) =>
      (goroutineStep e world n s pc).map fun (pc', s') =>
        { s' with goroutines := s.goroutines.set i (n, pc') }

def executeStart (order : ExecuteOrder V) (g : Graph) : Except Fault (Execution V) :=
  match g.levels order.levels with
  | .error (.error message) =>
    .error (.error (sprintf "failed to compute execution levels: %w" [message]))
  | .error (.panic reason) => .error (.panic reason)
  | .ok levels => .ok ⟨levels, 0, .checking, [], ∅, ∅, ∅, none, []⟩

def execute (e : DAGExecutor W V) (order : ExecuteOrder V) (g : Graph)
    (schedule : List (Action W)) : Option (Execution V) :=
  match executeStart order g with
  | .error _ => none
  | .ok start => runSchedule (executeStep e order g) start schedule

end NexusPipe.Dag
