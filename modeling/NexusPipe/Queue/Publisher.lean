import NexusPipe.Go

namespace NexusPipe.Queue

inductive PublishState
  | attempting (attempt : Nat)
  | waiting (attempt : Nat)
  | returned (err : Option Text)
  deriving DecidableEq

namespace PublishState
variable (maxRetries : Int)

def exhausted (lastErr : Text) : PublishState :=
  .returned (some (sprintf "publish failed after %d retries: %w" [.int maxRetries, lastErr]))

def start : PublishState :=
  if 0 ≤ maxRetries then .attempting 0 else exhausted maxRetries .nil

def published (attempt : Nat) (err : Option Text) : PublishState :=
  match err with
  | none => .returned none
  | some err =>
    if (attempt + 1 : Nat) ≤ maxRetries then .waiting (attempt + 1) else exhausted maxRetries err

def waited (attempt : Nat) : Option ContextError → PublishState
  | some err => .returned (some err.text)
  | none => .attempting attempt

end PublishState
end NexusPipe.Queue
