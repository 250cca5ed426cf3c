import NexusPipe.Repository.Task

namespace NexusPipe.Repository
open Library Models

def errConcurrentModification : Text := .str "concurrent modification detected"

structure PipelineRow where
  Name : String
  Description : String := ""
  Status : PipelineStatus := .draft
  ConfigJSON : String
  Version : Int := 1
  CreatedBy : String := "system"
  CreatedAt : Time
  UpdatedAt : Time
  deriving DecidableEq

structure StoredPipeline extends PipelineRow where
  ID : String
  deriving DecidableEq

def pipelineStatusDeleted : PipelineStatus := .other "deleted" (by decide)

abbrev PipelineRepository := GoMap String PipelineRow

namespace PipelineRepository
variable (rows : PipelineRepository) (failure : Option Text)

def get (id : String) : Except ReadError StoredPipeline :=
  match failure with
  | some err => .error (.other (sprintf "failed to get pipeline %s: %w" [.str id, err]))
  | none =>
    match rows.lookup id with
    | none => .error (.notFound (sprintf "pipeline %s: %w" [.str id, errNotFound]))
    | some row => .ok { row with ID := id }

/-- The table and the caller's pipeline after the call; `clock` is the caller's time, `now` that of
the trigger that sets `updated_at`. -/
def update (p : StoredPipeline) (clock now : Time) :
    Except Text PipelineRepository × StoredPipeline :=
  let p := { p with UpdatedAt := clock }
  match failure with
  | some err => (.error (sprintf "failed to update pipeline %s: %w" [.str p.ID, err]), p)
  | none =>
    match (rows.lookup p.ID).filter fun row => row.Version = p.Version with
    | none => (.error (sprintf "pipeline %s: %w" [.str p.ID, errConcurrentModification]), p)
    | some row =>
      -- the column is an `INTEGER`
      if 2 ^ 31 ≤ row.Version + 1 then
        (.error (sprintf "failed to update pipeline %s: %w"
          [.str p.ID, .str "integer out of range"]), p)
      else
        (.ok (rows.insert p.ID { row with
            Name := p.Name
            Description := p.Description
            Status := p.Status
            ConfigJSON := p.ConfigJSON
            Version := row.Version + 1
            UpdatedAt := now }),
          { p with Version := row.Version + 1, UpdatedAt := now })

def withStatus (row : PipelineRow) (status : PipelineStatus) (now : Time) : PipelineRow :=
  { row with Status := status, UpdatedAt := now }

def updateStatus (id : String) (status : PipelineStatus) (now : Time) :
    Except Text PipelineRepository :=
  match failure with
  | some err => .error (sprintf "failed to update pipeline %s status: %w" [.str id, err])
  | none =>
    match rows.lookup id with
    | none => .error (sprintf "pipeline %s: %w" [.str id, errNotFound])
    | some row => .ok (rows.insert id (withStatus row status now))

def softDelete (id : String) (now : Time) : Except Text PipelineRepository :=
  match failure with
  | some err => .error (sprintf "failed to soft-delete pipeline %s: %w" [.str id, err])
  | none =>
    match rows.lookup id with
    | none => .ok rows
    | some row => .ok (rows.insert id (withStatus row pipelineStatusDeleted now))

end PipelineRepository

inductive PipelineWrite
  | update | updateStatus | softDelete
  deriving DecidableEq

structure PipelineSession where
  copy : StoredPipeline
  since : List PipelineWrite := []
  deriving DecidableEq

structure PipelineEdit where
  Name : String
  Description : String
  Status : PipelineStatus
  ConfigJSON : String
  deriving DecidableEq

def PipelineEdit.apply (edit : PipelineEdit) (p : StoredPipeline) : StoredPipeline :=
  { p with
    Name := edit.Name
    Description := edit.Description
    Status := edit.Status
    ConfigJSON := edit.ConfigJSON }

structure PipelineClients (C : Type) where
  rows : PipelineRepository
  sessions : C → Option PipelineSession := fun _ => none

inductive PipelineCall (C : Type)
  | get (client : C) (failure : Option Text) (id : String)
  | update (client : C) (failure : Option Text) (edit : PipelineEdit) (clock now : Time)
  | updateStatus (failure : Option Text) (id : String) (status : PipelineStatus) (now : Time)
  | softDelete (failure : Option Text) (id : String) (now : Time)

namespace PipelineClients
variable {C : Type} [DecidableEq C]

def noted (sessions : C → Option PipelineSession) (id : String) (write : PipelineWrite) :
    C → Option PipelineSession :=
  fun c => (sessions c).map fun session =>
    if session.copy.ID = id then { session with since := session.since ++ [write] } else session

def step (s : PipelineClients C) : PipelineCall C → Option (PipelineClients C)
  | .get c failure id =>
    match s.rows.get failure id with
    | .error _ => some s
    | .ok p => some { s with sessions := Function.update s.sessions c (some { copy := p }) }
  | .update c failure edit clock now =>
    (s.sessions c).map fun session =>
      match s.rows.update failure (edit.apply session.copy) clock now with
      | (.error _, p) =>
        { s with sessions := Function.update s.sessions c (some { session with copy := p }) }
      | (.ok rows, p) =>
        { rows := rows
          sessions := Function.update (noted s.sessions p.ID .update) c (some { copy := p }) }
  | .updateStatus failure id status now =>
    match s.rows.updateStatus failure id status now with
    | .error _ => some s
    | .ok rows => some { rows := rows, sessions := noted s.sessions id .updateStatus }
  | .softDelete failure id now =>
    match s.rows.softDelete failure id now with
    | .error _ => some s
    | .ok rows =>
      some {
        rows := rows
        sessions :=
          if id ∈ s.rows then noted s.sessions id .softDelete else s.sessions }

end PipelineClients
end NexusPipe.Repository
