import NexusPipe.Webhooks.Notifier

namespace NexusPipe.Webhooks
open Library

namespace EventNotifier
variable (n : EventNotifier)

def removeDeadLetter (entryID : UUID) : Except Text (Nat × DeadLetterEntry × EventNotifier) :=
  match n.deadLetter.findFinIdx? (·.ID = entryID) with
  | none => .error (sprintf "dead letter entry not found: %s" [.uuid entryID])
  | some index =>
    .ok (index, n.deadLetter[index], { n with deadLetter := n.deadLetter.eraseIdx index })

def takeDeadLetter : List DeadLetterEntry × EventNotifier :=
  (n.deadLetter, { n with deadLetter := [] })

def clearDeadLetter : Int × EventNotifier := (n.deadLetter.length, { n with deadLetter := [] })

end EventNotifier

inductive ReplayResult
  | replayed (err : Option Text)
  | replayedAll (count : Int)
  | cleared (count : Int)
  deriving DecidableEq, Repr

/-- A call of `ReplayDeadLetter` or `ReplayAllDeadLetter` that has left its lock section. `refused`: the
send of the first task has taken the default branch. `numbers` is history, as below. -/
structure Replay where
  all : Bool
  tasks : List NotificationTask
  refused : Bool := false
  replayed : Int := 0
  err : Option Text := none
  numbers : List Nat
  deriving DecidableEq, Repr

/-- All but the first two fields is history: what calls have returned, the tasks that a delivery or a
retry moved to the dead letter list and those that a replay handed to the channel, and the numbers of
the former by where they are: in the list, handed over, pushed out of the full list, or cleared. -/
structure DeadLetterSystem where
  notifier : EventNotifier
  calls : List Replay := []
  returned : List ReplayResult := []
  deadLettered : List NotificationTask := []
  replayed : List NotificationTask := []
  listed : List Nat := []
  handed : List Nat := []
  evicted : List Nat := []
  cleared : List Nat := []
  deriving DecidableEq, Repr

inductive DeadLetterAction
  -- whatever else the goroutines of the notifier do
  | other (n : EventNotifier)
  | moveToDeadLetter (id : UUID) (now : Time) (task : NotificationTask) (reason : Text)
  | replayDeadLetter (entryID : UUID)
  | replayAllDeadLetter
  | clearDeadLetter
  -- the next send of a call, its fallback and its return
  | send (i : Nat) (receiver : Option Nat)
  | fallBack (i : Nat) (id : UUID) (now : Time)
  | leave (i : Nat)

namespace DeadLetterSystem
variable (s : DeadLetterSystem)

def moveToDeadLetter (id : UUID) (now : Time) (task : NotificationTask) (reason : Text)
    (numbers : List Nat) : DeadLetterSystem :=
  let full := s.notifier.config.DeadLetterLimit ≤ s.notifier.deadLetter.length
  { s with
    notifier := s.notifier.moveToDeadLetter id now task reason
    listed := (if full then s.listed.drop 1 else s.listed) ++ numbers
    evicted := s.evicted ++ if full then s.listed.take 1 else [] }

def step (a : DeadLetterAction) : Option DeadLetterSystem :=
  if s.notifier.crashed then none
  else
    match a with
    | .other n =>
      if n.deadLetter = s.notifier.deadLetter ∧ n.config = s.notifier.config then
        some { s with notifier := n }
      else none
    | .moveToDeadLetter id now task reason =>
      some ({ s with deadLettered := s.deadLettered ++ [task] }.moveToDeadLetter id now task reason
        [s.deadLettered.length])
    | .replayDeadLetter entryID =>
      match s.notifier.removeDeadLetter entryID with
      | .error err => some { s with returned := s.returned ++ [.replayed (some err)] }
      | .ok (index, entry, notifier) =>
        some { s with
          notifier
          listed := s.listed.eraseIdx index
          calls := s.calls ++
            [{ all := false, tasks := [entry.Task], numbers := (s.listed.drop index).take 1 }] }
    | .replayAllDeadLetter =>
      let (entries, notifier) := s.notifier.takeDeadLetter
      some { s with
        notifier
        listed := []
        calls := s.calls ++ [{ all := true, tasks := entries.map (·.Task), numbers := s.listed }] }
    | .clearDeadLetter =>
      let (count, notifier) := s.notifier.clearDeadLetter
      some { s with
        notifier
        listed := []
        cleared := s.cleared ++ s.listed
        returned := s.returned ++ [.cleared count] }
    | .send i receiver =>
      match s.calls[i]? with
      | some { all, tasks := task :: tasks, refused := false, replayed, err, numbers } =>
        match s.notifier.trySend { task with Retries := 0 } receiver with
        | none => none
        | some (some notifier) =>
          some { s with
            notifier
            replayed := s.replayed ++ [{ task with Retries := 0 }]
            handed := s.handed ++ numbers.take 1
            calls := s.calls.set i
              { all, tasks, replayed := replayed + 1, err, numbers := numbers.drop 1 } }
        | some none =>
          some { s with
            calls := s.calls.set i
              { all, tasks := task :: tasks, refused := true, replayed, err, numbers } }
      | _ => none
    | .fallBack i id now =>
      match s.calls[i]? with
      | some { all, tasks := task :: tasks, refused := true, replayed, err := _, numbers } =>
        some ({ s with
          calls := s.calls.set i
            { all, tasks, replayed, err := some (.str "notification queue full during replay"),
              numbers := numbers.drop 1 }
          }.moveToDeadLetter id now { task with Retries := 0 } (.str "replay queue full")
            (numbers.take 1))
      | _ => none
    | .leave i =>
      match s.calls[i]? with
      | some { all, tasks := [], replayed, err, .. } =>
        some { s with
          calls := s.calls.eraseIdx i
          returned := s.returned ++ [if all then .replayedAll replayed else .replayed err] }
      | _ => none

end DeadLetterSystem
end NexusPipe.Webhooks
