import NexusPipe.Strings

namespace NexusPipe.Api.Middleware
open Strings

/-- `strings.EqualFold`; `unicode` compares strings with bytes beyond ASCII. -/
def equalFold (unicode : String → String → Bool) (s t : String) : Bool :=
  if (s ++ t).toList.all (·.toNat < 128) then lowerASCII s = lowerASCII t else unicode s t

def redactParam (unicode : String → String → Bool) (redactList : List String) (p : String) :
    String :=
  match splitN2 p '=' with
  | [name, _] => if redactList.any (equalFold unicode name) then name ++ "=REDACTED" else p
  | _ => p

def redactQueryParams (unicode : String → String → Bool) (query : String)
    (redactList : List String) : String :=
  if query = "" ∨ redactList = [] then query
  else join ((split query '&').map (redactParam unicode redactList)) "&"

def unhex (c : Char) : Option Nat :=
  if '0' ≤ c ∧ c ≤ '9' then some (c.toNat - 48)
  else if 'a' ≤ c ∧ c ≤ 'f' then some (c.toNat - 87)
  else if 'A' ≤ c ∧ c ≤ 'F' then some (c.toNat - 55)
  else none

def unescape : List Char → Option (List Char)
  | [] => some []
  | '%' :: high :: low :: rest => do
    let byte := Char.ofNat (16 * (← unhex high) + (← unhex low))
    return byte :: (← unescape rest)
  | '%' :: _ => none
  | c :: rest => do return (if c = '+' then ' ' else c) :: (← unescape rest)

def queryUnescape (s : String) : Option String := (unescape s.toList).map String.ofList

def parseQuery (query : String) : List (String × String) :=
  (split query '&').filterMap fun p =>
    if p = "" ∨ ';' ∈ p.toList then none
    else do
      let kv := splitN2 p '='
      return (← queryUnescape (← kv[0]?), ← queryUnescape (kv[1]?.getD ""))

def queryValue (query key : String) : String := ((parseQuery query).lookup key).getD ""

end NexusPipe.Api.Middleware
