import NexusPipe.Cron
import NexusPipe.Library.While
import NexusPipe.Strings

/-! # The parser and the search of `robfig/cron` -/

namespace NexusPipe.Cron
open Library

structure Bounds where
  min : Nat
  max : Nat
  names : List (String × Nat) := []

namespace Bounds

def seconds : Bounds := { min := 0, max := 59 }
def minutes : Bounds := { min := 0, max := 59 }
def hours : Bounds := { min := 0, max := 23 }
def dom : Bounds := { min := 1, max := 31 }

def months : Bounds where
  min := 1
  max := 12
  names := [("jan", 1), ("feb", 2), ("mar", 3), ("apr", 4), ("may", 5), ("jun", 6), ("jul", 7),
    ("aug", 8), ("sep", 9), ("oct", 10), ("nov", 11), ("dec", 12)]

def dow : Bounds where
  min := 0
  max := 6
  names := [("sun", 0), ("mon", 1), ("tue", 2), ("wed", 3), ("thu", 4), ("fri", 5), ("sat", 6)]

end Bounds

abbrev Bits := BitVec 64

def starBit : Bits := 1 <<< 63

def getBits (min max step : Nat) : Bits :=
  if step = 1 then ~~~(BitVec.allOnes 64 <<< (max + 1)) &&& (BitVec.allOnes 64 <<< min)
  else (List.range' min ((max - min) / step + 1) step).foldl (fun bits i => bits ||| 1 <<< i) 0

def Bounds.all (r : Bounds) : Bits := getBits r.min r.max 1 ||| starBit

def decimal (digits : List Char) : Nat := digits.foldl (fun n c => 10 * n + (c.toNat - 48)) 0

def atoi (s : String) : Except Text Int :=
  let negative := s.toList.head? = some '-'
  let digits := if negative ∨ s.toList.head? = some '+' then s.toList.tail else s.toList
  if digits = [] ∨ !digits.all Char.isDigit then
    .error (sprintf "strconv.Atoi: parsing %q: invalid syntax" [.str s])
  else
    let value : Int := if negative then -decimal digits else decimal digits
    if value < -2 ^ 63 ∨ 2 ^ 63 ≤ value then
      .error (sprintf "strconv.Atoi: parsing %q: value out of range" [.str s])
    else .ok value

def mustParseInt (expr : String) : Except Text Nat :=
  match atoi expr with
  | .error problem => .error (sprintf "failed to parse int from %s: %s" [.str expr, problem])
  | .ok num =>
    if num < 0 then .error (sprintf "negative number (%d) not allowed: %s" [.int num, .str expr])
    else .ok num.toNat

section
variable (unicode : String → String)

def parseIntOrName (r : Bounds) (expr : String) : Except Text Nat :=
  match r.names.lookup (Strings.toLower unicode expr) with
  | some namedInt => .ok namedInt
  | none => mustParseInt expr

/-- The start, the end and the star of a range. What follows the hyphen of a star is not read. -/
def rangeEnds (r : Bounds) (expr : String) (lowAndHigh : List String) :
    Except Text (Nat × Nat × Bits) :=
  let low := lowAndHigh.headD ""
  if low = "*" ∨ low = "?" then .ok (r.min, r.max, starBit)
  else
    (parseIntOrName unicode r low).bind fun start =>
      match lowAndHigh with
      | [_] => .ok (start, start, 0)
      | [_, high] => (parseIntOrName unicode r high).map fun stop => (start, stop, 0)
      | _ => .error (sprintf "too many hyphens: %s" [.str expr])

def rangeStep (r : Bounds) (expr : String) (rangeAndStep : List String) (singleDigit : Bool)
    (stop : Nat) (extra : Bits) : Except Text (Nat × Nat × Bits) :=
  match rangeAndStep with
  | [_] => .ok (stop, 1, extra)
  | [_, every] =>
    (mustParseInt every).map fun step =>
      (if singleDigit then r.max else stop, step, if 1 < step then 0 else extra)
  | _ => .error (sprintf "too many slashes: %s" [.str expr])

def rangeBits (r : Bounds) (expr : String) (start stop step : Nat) (extra : Bits) :
    Except Text Bits :=
  if start < r.min then
    .error (sprintf "beginning of range (%d) below minimum (%d): %s"
      [.int start, .int r.min, .str expr])
  else if r.max < stop then
    .error (sprintf "end of range (%d) above maximum (%d): %s" [.int stop, .int r.max, .str expr])
  else if stop < start then
    .error (sprintf "beginning of range (%d) beyond end of range (%d): %s"
      [.int start, .int stop, .str expr])
  else if step = 0 then
    .error (sprintf "step of range should be a positive number: %s" [.str expr])
  else .ok (getBits start stop step ||| extra)

def getRange (r : Bounds) (expr : String) : Except Text Bits :=
  let rangeAndStep := Strings.split expr '/'
  let lowAndHigh := Strings.split (rangeAndStep.headD "") '-'
  (rangeEnds unicode r expr lowAndHigh).bind fun ends =>
    (rangeStep r expr rangeAndStep (lowAndHigh.length = 1) ends.2.1 ends.2.2).bind fun rest =>
      rangeBits r expr ends.1 rest.1 rest.2.1 rest.2.2

def ranges (field : String) : List String :=
  ((field.toList.splitOnP (· = ',')).filter (· ≠ [])).map String.ofList

def getField (r : Bounds) (field : String) : Except Text Bits :=
  (ranges field).foldlM (fun bits expr => (getRange unicode r expr).map (bits ||| ·)) 0

structure SpecSchedule where
  Second : Bits
  Minute : Bits
  Hour : Bits
  Dom : Bits
  Month : Bits
  Dow : Bits
  Location : Location
  deriving DecidableEq

def parseFields (fields : List String) (loc : Location) : Except Text SpecSchedule :=
  match fields with
  | [second, minute, hour, dayofmonth, month, dayofweek] =>
    (getField unicode .seconds second).bind fun second =>
    (getField unicode .minutes minute).bind fun minute =>
    (getField unicode .hours hour).bind fun hour =>
    (getField unicode .dom dayofmonth).bind fun dayofmonth =>
    (getField unicode .months month).bind fun month =>
    (getField unicode .dow dayofweek).map fun dayofweek =>
      { Second := second, Minute := minute, Hour := hour, Dom := dayofmonth, Month := month
        Dow := dayofweek, Location := loc }
  | _ => .error (.str "index out of range")

end

structure Wall where
  year : Int
  month : Nat
  day : Nat
  weekday : Nat
  hour : Nat
  minute : Nat
  second : Nat
  deriving DecidableEq, Repr

def yearDay (days : Int) : Int × Nat :=
  let inCycle := (days % 146097).toNat
  let centuries := min (inCycle / 36524) 3
  let inCentury := inCycle - centuries * 36524
  let inLeapCycle := inCentury % 1461
  let years := min (inLeapCycle / 365) 3
  (400 * (days / 146097) + 100 * centuries + 4 * (inCentury / 1461 : Nat) + years + 1,
    inLeapCycle - years * 365)

def isLeap (year : Int) : Bool := year % 4 = 0 ∧ (year % 100 ≠ 0 ∨ year % 400 = 0)

def monthLengths (leap : Bool) : List Nat :=
  [31, if leap then 29 else 28, 31, 30, 31, 30, 31, 31, 30, 31, 30, 31]

def monthDay : List Nat → Nat → Nat → Nat × Nat
  | [], month, day => (month, day + 1)
  | length :: rest, month, day =>
    if day < length then (month, day + 1) else monthDay rest (month + 1) (day - length)

def clock (seconds : Int) : Wall :=
  let days := seconds / 86400
  let inDay := (seconds % 86400).toNat
  let (year, day) := yearDay days
  let (month, day) := monthDay (monthLengths (isLeap year)) 1 day
  { year, month, day, weekday := ((days + 1) % 7).toNat
    hour := inDay / 3600, minute := inDay / 60 % 60, second := inDay % 60 }

example : clock (738944 * 86400 + 45296) = ⟨2024, 2, 29, 4, 12, 34, 56⟩ := by decide

namespace SpecSchedule
variable (s : SpecSchedule)

def dayMatches (t : Wall) : Bool :=
  let domMatch := s.Dom.getLsbD t.day
  let dowMatch := s.Dow.getLsbD t.weekday
  if s.Dom.getLsbD 63 ∨ s.Dow.getLsbD 63 then domMatch && dowMatch else domMatch || dowMatch

def accepts (t : Wall) : Bool :=
  s.Month.getLsbD t.month && s.dayMatches t && s.Hour.getLsbD t.hour &&
    s.Minute.getLsbD t.minute && s.Second.getLsbD t.second

/-- One round of the search. The library moves on by months, days, hours and minutes where these
do not match, here it is always by a second. -/
def searchRound (wall : Int → Wall) (yearLimit : Int) (t : Int) : Int ⊕ Option Int :=
  if yearLimit < (wall t).year then .inr none
  else if s.accepts (wall t) then .inr (some t)
  else .inl (t + second)

def search (wall : Int → Wall) (t : Int) : Option Int :=
  let start := t + second - t % second
  (loopFor (s.searchRound wall ((wall start).year + 5)) (6 * 366 * 86400 + 1) start).join

end SpecSchedule

/-- What the library takes from the Go runtime: the errors of the time zone database, the seconds a
location is ahead of UTC, the lower case of letters beyond ASCII, and the reading of durations,
which contain no white space. -/
structure Platform where
  zones : String → Option Text
  offset : Location → Int → Int
  unicode : String → String
  parseDuration : String → Except Text Int
  spaceless : ∀ s d, parseDuration s = .ok d → s.toList.all fun c => !isSpace c

namespace Platform
variable (p : Platform)

def wall (loc : Location) (t : Int) : Wall :=
  clock (t / second + if loc = .utc then 0 else p.offset loc t)

def schedule (s : SpecSchedule) : Schedule where
  location := s.Location
  after loc t := s.search (p.wall loc) t

def every (duration : Int) : Schedule :=
  let delay := max second duration
  { location := .localZone
    after := fun _ t => some (t + (delay - delay % second) - t % second) }

def parseDescriptor (descriptor : String) (loc : Location) : Except Text Schedule :=
  let first (r : Bounds) : Bits := 1 <<< r.min
  let spec (hour dom month dow : Bits) : Except Text Schedule :=
    .ok (p.schedule ⟨first .seconds, first .minutes, hour, dom, month, dow, loc⟩)
  if descriptor = "@yearly" ∨ descriptor = "@annually" then
    spec (first .hours) (first .dom) (first .months) Bounds.dow.all
  else if descriptor = "@monthly" then
    spec (first .hours) (first .dom) Bounds.months.all Bounds.dow.all
  else if descriptor = "@weekly" then
    spec (first .hours) Bounds.dom.all Bounds.months.all (first .dow)
  else if descriptor = "@daily" ∨ descriptor = "@midnight" then
    spec (first .hours) Bounds.dom.all Bounds.months.all Bounds.dow.all
  else if descriptor = "@hourly" then
    spec Bounds.hours.all Bounds.dom.all Bounds.months.all Bounds.dow.all
  else if Strings.hasPrefix descriptor "@every " then
    match p.parseDuration (Strings.trimPrefix descriptor "@every ") with
    | .error problem =>
      .error (sprintf "failed to parse duration %s: %s" [.str descriptor, problem])
    | .ok duration => .ok (every duration)
  else .error (sprintf "unrecognized descriptor: %s" [.str descriptor])

def host (unmarshal : String → Option (GoMap String Any)) : Host where
  zones := p.zones
  descriptor := p.parseDescriptor
  spec fields loc := (parseFields p.unicode fields loc).map p.schedule
  unmarshal := unmarshal

end Platform
end NexusPipe.Cron
