import Mathlib.Computability.RegularExpressions
import NexusPipe.Cron

/-! # The package `pkg/validator` -/

namespace NexusPipe.Pkg.Validator
open RegularExpression

def oneOf (chars : String) : RegularExpression Char := (chars.toList.map char).sum

def literal (text : String) : RegularExpression Char := (text.toList.map char).prod

def digit : RegularExpression Char := oneOf "0123456789"

def blank : RegularExpression Char := oneOf "\t\n\x0c\r "

def cronName : RegularExpression Char :=
  char '@' * (literal "annually" + literal "yearly" + literal "monthly" + literal "weekly" +
    literal "daily" + literal "hourly" +
    literal "every_" * (digit * star digit) * oneOf "smhd")

def cronField : RegularExpression Char := (1 + oneOf "012345") * digit + char '*'

def cronFields : RegularExpression Char := (cronField * blank) ^ 4 * cronField

/-- `cronPattern.MatchString(s)`. Of the two alternatives, the first is tied to the start of the
text only and the second to its end only. -/
def cronPattern (s : String) : Bool :=
  s.toList.inits.any cronName.rmatch || s.toList.tails.any cronFields.rmatch

def validCron : Any → Except Text Unit
  | .other _ => .error (.str "must be a string")
  | .string s =>
    if cronPattern s then .ok () else .error (.str "must be a valid cron expression")

end NexusPipe.Pkg.Validator
