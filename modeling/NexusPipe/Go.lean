import Mathlib.Data.Rat.Init
import NexusPipe.Library.GoMap

namespace NexusPipe

abbrev UUID := BitVec 128

/-- A formatted text, kept as its template and the operands applied to it one after the other. -/
inductive Text
  | str (s : String)
  | int (i : Int)
  | duration (nanoseconds : Int)
  | uuid (id : UUID)
  | nil
  | cons (head tail : Text)
  | format (template operand : Text)
  deriving DecidableEq, Repr, Inhabited

def Text.slice (items : List Text) : Text := items.foldr .cons .nil

def sprintf (template : String) (operands : List Text) : Text :=
  operands.foldl .format (.str template)

inductive Fault
  | error (message : Text)
  | panic (reason : String)
  deriving DecidableEq, Repr

abbrev Outcome (V : Type) := Option V × Option Text

inductive ContextError
  | canceled | deadlineExceeded
  deriving DecidableEq, Repr

def ContextError.text : ContextError → Text
  | .canceled => .str "context canceled"
  | .deadlineExceeded => .str "context deadline exceeded"

inductive Float64
  | finite (value : Rat)
  | infinite (negative : Bool)
  | nan
  deriving DecidableEq, Repr

def Float64.isNonpositive : Float64 → Bool
  | .finite value => value ≤ 0
  | .infinite negative => negative
  | .nan => false

def roundHalfEven (q : Rat) : Int :=
  let fraction := q - q.floor
  if fraction < 1 / 2 then q.floor
  else if 1 / 2 < fraction then q.floor + 1
  else if q.floor % 2 = 0 then q.floor else q.floor + 1

def pow2 : Int → Rat
  | .ofNat k => (2 ^ k : Nat)
  | .negSucc k => mkRat 1 (2 ^ (k + 1))

/-- The largest `e` with `2 ^ e ≤ |q|`, for `q ≠ 0`. -/
def binaryExponent (q : Rat) : Int :=
  let e : Int := Nat.log2 q.num.natAbs - Nat.log2 q.den
  if mkRat q.num.natAbs q.den < pow2 e then e - 1 else e

@[irreducible] def Float64.ofRat (q : Rat) : Float64 :=
  let ulp := pow2 (max (binaryExponent q) (-1022) - 52)
  let value := roundHalfEven (q / ulp) * ulp
  if value ≤ -pow2 1024 then .infinite true
  else if pow2 1024 ≤ value then .infinite false
  else .finite value

def Float64.ratio (a b : Nat) : Float64 :=
  if b = 0 then if a = 0 then .nan else .infinite false
  else .ofRat (mkRat a b)

def Float64.le : Float64 → Float64 → Bool
  | .nan, _ | _, .nan => false
  | .infinite negative, .infinite negative' => negative || !negative'
  | .infinite negative, .finite _ => negative
  | .finite _, .infinite negative => !negative
  | .finite value, .finite value' => value ≤ value'

/-! The zero has no sign: a division by it has that of the dividend. -/

def Float64.neg : Float64 → Float64
  | .finite value => .finite (-value)
  | .infinite negative => .infinite (!negative)
  | .nan => .nan

def Float64.add : Float64 → Float64 → Float64
  | .nan, _ | _, .nan => .nan
  | .infinite negative, .infinite negative' =>
    if negative = negative' then .infinite negative else .nan
  | .infinite negative, .finite _ | .finite _, .infinite negative => .infinite negative
  | .finite value, .finite value' => .ofRat (value + value')

def Float64.sub (a b : Float64) : Float64 := a.add b.neg

def Float64.mul : Float64 → Float64 → Float64
  | .nan, _ | _, .nan => .nan
  | .infinite negative, .infinite negative' => .infinite (negative != negative')
  | .infinite negative, .finite value | .finite value, .infinite negative =>
    if value = 0 then .nan else .infinite (negative != (value < 0))
  | .finite value, .finite value' => .ofRat (value * value')

def Float64.div : Float64 → Float64 → Float64
  | .nan, _ | _, .nan => .nan
  | .infinite _, .infinite _ => .nan
  | .infinite negative, .finite value => .infinite (negative != (value < 0))
  | .finite _, .infinite _ => .finite 0
  | .finite value, .finite value' =>
    if value' = 0 then if value = 0 then .nan else .infinite (value < 0)
    else .ofRat (value / value')

def Float64.lt (a b : Float64) : Bool := a.le b && !b.le a

def powTwo (n : Int) : Float64 :=
  if n < -1074 then .finite 0 else if n < 1024 then .finite (pow2 n) else .infinite false

def truncate (q : Rat) : Int := q.num.tdiv q.den

/-- The conversion of a `float64` to an `int64`. What becomes of a value that does not fit is left to
the machine. -/
structure Conversion where
  convert : Float64 → Int64
  truncates : ∀ q, -2 ^ 63 ≤ truncate q → truncate q < 2 ^ 63 →
    convert (.finite q) = .ofInt (truncate q)

def toInt64 (i : Int) : Int := i.bmod (2 ^ 64)

def isSpace (c : Char) : Bool :=
  let n := c.toNat
  (0x9 ≤ n ∧ n ≤ 0xd) ∨ n = 0x20 ∨ n = 0x85 ∨ n = 0xa0 ∨ n = 0x1680 ∨ (0x2000 ≤ n ∧ n ≤ 0x200a) ∨
    n = 0x2028 ∨ n = 0x2029 ∨ n = 0x202f ∨ n = 0x205f ∨ n = 0x3000

def trimSpace (s : String) : String :=
  String.ofList ((s.toList.dropWhile isSpace).reverse.dropWhile isSpace).reverse

def nanosecond : Int := 1
def millisecond : Int := 1000000 * nanosecond
def second : Int := 1000 * millisecond
def minute : Int := 60 * second
def hour : Int := 60 * minute

def Float64.seconds (d : Int) : Float64 :=
  (Float64.ofRat (d.tdiv second)).add ((Float64.ofRat (d.tmod second)).div (.finite 1000000000))

end NexusPipe
