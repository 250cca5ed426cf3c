import NexusPipe.Go

namespace NexusPipe

inductive Location
  | utc | localZone | zone (name : String)
  deriving DecidableEq, Repr, Inhabited

structure Time where
  instant : Int
  location : Location
  deriving DecidableEq, Repr, Inhabited

namespace Time

def zero : Time := ⟨0, .utc⟩

def isIn (t : Time) (loc : Location) : Time := { t with location := loc }

def after (t u : Time) : Bool := u.instant < t.instant

def before (t u : Time) : Bool := t.instant < u.instant

def add (t : Time) (d : Int) : Time := { t with instant := t.instant + d }

def isZero (t : Time) : Bool := t.instant = 0

def sub (t u : Time) : Int := max (-2 ^ 63) (min (2 ^ 63 - 1) (t.instant - u.instant))

end Time

def Fault.wrap (message : Text → Text) : Fault → Fault
  | .error inner => .error (message inner)
  | .panic reason => .panic reason

def Fault.text : Fault → Text
  | .error message => message
  | .panic reason => .str reason

def Fault.errorf (template : String) (operands : List Text) : Fault → Fault :=
  Fault.wrap fun inner => sprintf template (operands ++ [inner])

namespace Cron

/-- `location` is the time zone the expression names, `localZone` when it names none. `after` is
the search for the next activation, which gives up after five years. -/
structure Schedule where
  location : Location
  after : Location → Int → Option Int

def Schedule.zone (s : Schedule) (loc : Location) : Location :=
  if s.location = .localZone then loc else s.location

def Schedule.next (s : Schedule) (t : Time) : Time :=
  match s.after (s.zone t.location) t.instant with
  | some instant => ⟨instant, t.location⟩
  | none => .zero

/-- The two parsers in use: `Minute | Hour | Dom | Month | Dow | Descriptor`, and the one of
`WithSeconds`, which asks for `Second` as well. -/
inductive Parser
  | standard | withSeconds
  deriving DecidableEq, Repr

def Parser.places : Parser → Nat
  | .standard => 5
  | .withSeconds => 6

def Parser.normalizeFields (p : Parser) (fields : List String) : Except Text (List String) :=
  if fields.length ≠ p.places then
    .error (sprintf "expected exactly %d fields, found %d: %s"
      [.int p.places, .int fields.length, .slice (fields.map .str)])
  else
    match p with
    | .standard => .ok ("0" :: fields)
    | .withSeconds => .ok fields

def fields (s : String) : List String :=
  ((s.toList.splitOnP isSpace).filter (· ≠ [])).map String.ofList

def splitZone (spec : String) : Except Fault (Option String × String) :=
  match ["TZ=", "CRON_TZ="].find? fun head => head.toList.isPrefixOf spec.toList with
  | none => .ok (none, spec)
  | some head =>
    let rest := spec.toList.drop head.length
    if ' ' ∈ rest then
      .ok (some (String.ofList (rest.takeWhile (· ≠ ' '))),
        trimSpace (String.ofList (rest.dropWhile (· ≠ ' '))))
    else
      -- The library slices up to the index of the space, which is -1 here.
      .error (.panic "slice bounds out of range")

def startsDescriptor (spec : String) : Bool := "@".toList.isPrefixOf spec.toList

def isDescriptor (spec : String) : Bool :=
  match splitZone spec with
  | .ok (_, rest) => startsDescriptor rest
  | .error _ => false

end Cron

/-- A JSON value; only strings are told apart from the rest. -/
inductive Any
  | string (text : String)
  | other (text : String)
  deriving DecidableEq, Repr

/-- What lies outside the repository: the errors of the time zone database, the cron library's
reading of descriptors and of six fields, and the JSON decoder, `none` standing for a nil map. -/
structure Host where
  zones : String → Option Text
  descriptor : String → Location → Except Text Cron.Schedule
  spec : List String → Location → Except Text Cron.Schedule
  unmarshal : String → Option (Library.GoMap String Any)

namespace Host
variable (host : Host)

def loadLocation (name : String) : Except Text Location :=
  if name = "" ∨ name = "UTC" then .ok .utc
  else if name = "Local" then .ok .localZone
  else
    match host.zones name with
    | none => .ok (.zone name)
    | some problem => .error problem

def specLocation : Option String → Except Fault Location
  | none => .ok .localZone
  | some name =>
    (host.loadLocation name).mapError fun problem =>
      .error (sprintf "provided bad location %s: %v" [.str name, problem])

def parse (p : Cron.Parser) (spec : String) : Except Fault Cron.Schedule :=
  if spec = "" then .error (.error (.str "empty spec string"))
  else
    (Cron.splitZone spec).bind fun split =>
      (host.specLocation split.1).bind fun loc =>
        if Cron.startsDescriptor split.2 then (host.descriptor split.2 loc).mapError .error
        else
          ((p.normalizeFields (Cron.fields split.2)).bind fun fields =>
            host.spec fields loc).mapError .error

end Host

namespace Cron

structure Entry (J : Type) where
  ID : Nat
  Schedule : Schedule
  Job : J

structure Engine (J : Type) where
  entries : List (Entry J) := []
  nextID : Nat := 0
  parser : Parser
  location : Location := .localZone

namespace Engine
variable {J : Type} (c : Engine J)

def schedule (s : Schedule) (job : J) : Nat × Engine J :=
  (c.nextID + 1,
    { c with entries := c.entries ++ [⟨c.nextID + 1, s, job⟩], nextID := c.nextID + 1 })

def addFunc (host : Host) (spec : String) (job : J) : Except Fault (Nat × Engine J) :=
  (host.parse c.parser spec).map fun s => c.schedule s job

def remove (id : Nat) : Engine J := { c with entries := c.entries.filter (·.ID ≠ id) }

end Engine

abbrev Activation := Option Int

def Activation.less : Activation → Activation → Bool
  | none, _ => false
  | some _, none => true
  | some t, some u => t < u

/-- An answer of `Entries`: the live entries by their IDs, sorted by the next activation. -/
structure Snapshot {J : Type} (c : Engine J) where
  next : Nat → Activation
  ids : List Nat
  complete : ids.Perm (c.entries.map (·.ID))
  sorted : ids.Pairwise fun a b => (next b).less (next a) = false

end Cron
end NexusPipe
