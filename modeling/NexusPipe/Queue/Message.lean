import NexusPipe.Cron
import NexusPipe.Library.Base64
import NexusPipe.Library.Json.Struct

namespace NexusPipe.Queue
open Library

def errInvalidMessageType : Text := .str "invalid message type"
def errInvalidPayload : Text := .str "invalid message payload"

inductive HeaderValue
  | nil
  | bool (b : Bool)
  | int (i : Int64)
  | float (value : Float64)
  | string (s : String)
  | list (items : List HeaderValue)
  | map (entries : List (String × HeaderValue))
  | unsupported (type : String)

abbrev Headers := GoMap String HeaderValue

structure Envelope where
  ID : String := ""
  MessageType : String := ""
  Source : String := ""
  Version : String := ""
  Timestamp : Time := .zero
  Headers : Option Headers := none
  Payload : Option (List UInt8) := none
  ContentType : String := ""
  Encoding : String := ""
  CorrelationID : String := ""
  ReplyTo : String := ""
  Priority : Int64 := 0
  TTL : Int64 := 0
  RetryCount : Int64 := 0

/-- What `encoding/json` leaves to other packages: the wording of syntax and base64 errors, the JSON
form of times and floats, and the order in which it finds the keys of a map before it sorts them. -/
structure JsonHost where
  syntaxError : List UInt8 → Text
  corruptInput : String → Text
  formatTime : Time → Except Text (List Char)
  parseTime : List Char → Except Text Time
  formatFloat : Rat → List Char
  headerOrder : GoMap.RangeOrder String HeaderValue

section
variable (host : JsonHost)

def sortByKey {α : Type} (entries : List (String × α)) : List (String × α) :=
  entries.mergeSort fun a b => a.1 ≤ b.1

def collect : List (String × Except Text Json) → Except Text (List (List Char × Json))
  | [] => .ok []
  | (key, j) :: entries =>
    j.bind fun j => (collect entries).map fun members => (Json.quote key, j) :: members

def encodeFloat : Float64 → Except Text Json
  | .finite value => .ok (.number (host.formatFloat value))
  | .infinite true => .error (.str "json: unsupported value: -Inf")
  | .infinite false => .error (.str "json: unsupported value: +Inf")
  | .nan => .error (.str "json: unsupported value: NaN")

mutual

def encodeValue : HeaderValue → Except Text Json
  | .nil => .ok .null
  | .bool b => .ok (.bool b)
  | .int i => .ok (.number (Json.decimal i.toInt))
  | .float value => encodeFloat host value
  | .string s => .ok (.string (Json.quote s))
  | .list items => (encodeItems items).map .array
  | .map entries => (collect (sortByKey (encodeEntries entries))).map .object
  | .unsupported type => .error (sprintf "json: unsupported type: %s" [.str type])

def encodeItems : List HeaderValue → Except Text (List Json)
  | [] => .ok []
  | v :: items => (encodeValue v).bind fun j => (encodeItems items).map fun js => j :: js

def encodeEntries : List (String × HeaderValue) → List (String × Except Text Json)
  | [] => []
  | (key, v) :: entries => (key, encodeValue v) :: encodeEntries entries

end

def encodeHeaders (headers : Headers) : Except Text Json :=
  let entries := (host.headerOrder headers).entries.map fun x => (x.1, x.2)
  (collect (sortByKey (encodeEntries host entries))).map .object

end

def jsonKind : Json → String
  | .null => "null"
  | .bool _ => "bool"
  | .number _ => "number"
  | .string _ => "string"
  | .array _ => "array"
  | .object _ => "object"

def unmarshalTypeError (kind field type : String) : Text :=
  sprintf "json: cannot unmarshal %s into Go struct field %s of type %s"
    [.str kind, .str ("Envelope." ++ field), .str type]

def numberKind (raw : List Char) : String := "number " ++ String.ofList raw

def literalValue (raw : List Char) : Rat :=
  let (sign, rest) := Json.scanSign raw
  let (whole, rest) := Json.scanDigits rest
  let (fraction, exponent) :=
    match rest with
    | [] => ([], [])
    | c :: rest => if c = '.' then Json.scanDigits rest else ([], c :: rest)
  let mantissa : Int := Nat.ofDigitChars 10 (whole ++ fraction) 0
  let scale := ((Json.intValue (exponent.drop 1 |>.filter (· ≠ '+'))).getD 0) - fraction.length
  let size := if 0 ≤ scale then (mantissa * (10 ^ scale.toNat : Nat) : Rat)
    else mkRat mantissa (10 ^ (-scale).toNat)
  if sign = [] then size else -size

def assign {α : Type} (key : String) (v : α) : List (String × α) → List (String × α)
  | [] => [(key, v)]
  | (key', v') :: entries =>
    if key' = key then (key, v) :: entries else (key', v') :: assign key v entries

mutual

def decodeValue : Json → HeaderValue × Option Text
  | .null => (.nil, none)
  | .bool b => (.bool b, none)
  | .number raw =>
    match Float64.ofRat (literalValue raw) with
    | .finite value => (.float (.finite value), none)
    | _ => (.nil, some (unmarshalTypeError (numberKind raw) "headers" "float64"))
  | .string raw => (.string (Json.unquote raw), none)
  | .array items => ((.list (decodeItems items).1), (decodeItems items).2)
  | .object members => ((.map (decodeEntries members []).1), (decodeEntries members []).2)

def decodeItems : List Json → List HeaderValue × Option Text
  | [] => ([], none)
  | j :: items =>
    ((decodeValue j).1 :: (decodeItems items).1, (decodeValue j).2.or (decodeItems items).2)

def decodeEntries : List (List Char × Json) → List (String × HeaderValue) →
    List (String × HeaderValue) × Option Text
  | [], entries => (entries, none)
  | (key, j) :: members, entries =>
    let later := decodeEntries members (assign (Json.unquote key) (decodeValue j).1 entries)
    (later.1, (decodeValue j).2.or later.2)

end

def decodeHeaders (headers : Headers) : List (List Char × Json) → Headers × Option Text
  | [] => (headers, none)
  | (key, j) :: members =>
    let later := decodeHeaders (headers.insert (Json.unquote key) (decodeValue j).1) members
    (later.1, (decodeValue j).2.or later.2)

def problem : Option Text → Json.Problem Text
  | none => .none
  | some err => .saved err

section
variable (host : JsonHost)

def stringField (name type : String) (omitempty : Bool) (get : Envelope → String)
    (set : Envelope → String → Envelope) : Json.Field Envelope Text where
  name
  write e := .ok (if omitempty ∧ get e = "" then none else some (.string (Json.quote (get e))))
  read e
    | .null => (e, .none)
    | .string raw => (set e (Json.unquote raw), .none)
    | j => (e, .saved (unmarshalTypeError (jsonKind j) name type))

def intField (name : String) (get : Envelope → Int64) (set : Envelope → Int64 → Envelope) :
    Json.Field Envelope Text where
  name
  write e := .ok (if get e = 0 then none else some (.number (Json.decimal (get e).toInt)))
  read e
    | .null => (e, .none)
    | .number raw =>
      match Json.intValue raw with
      | some i =>
        if -2 ^ 63 ≤ i ∧ i < 2 ^ 63 then (set e (.ofInt i), .none)
        else (e, .saved (unmarshalTypeError (numberKind raw) name "int"))
      | none => (e, .saved (unmarshalTypeError (numberKind raw) name "int"))
    | j => (e, .saved (unmarshalTypeError (jsonKind j) name "int"))

def timestampField : Json.Field Envelope Text where
  name := "timestamp"
  write e := (host.formatTime e.Timestamp).map fun raw => some (.string raw)
  read e
    | .null => (e, .none)
    | .string raw =>
      match host.parseTime raw with
      | .ok t => ({ e with Timestamp := t }, .none)
      | .error err => (e, .fatal err)
    | _ => (e, .fatal (.str "Time.UnmarshalJSON: input is not a JSON string"))

def headersField : Json.Field Envelope Text where
  name := "headers"
  write e :=
    match e.Headers with
    | none => .ok none
    | some headers => if headers.len = 0 then .ok none else (encodeHeaders host headers).map some
  read e
    | .null => ({ e with Headers := none }, .none)
    | .object members =>
      let decoded := decodeHeaders (e.Headers.getD ∅) members
      ({ e with Headers := some decoded.1 }, problem decoded.2)
    | j => (e, .saved (unmarshalTypeError (jsonKind j) "headers" "queue.Headers"))

def decodeByte (old : UInt8) : Json → UInt8 × Option Text
  | .null => (old, none)
  | .number raw =>
    match Json.intValue raw with
    | some i =>
      if 0 ≤ i ∧ i < 256 then (.ofNat i.toNat, none)
      else (old, some (unmarshalTypeError (numberKind raw) "payload" "uint8"))
    | none => (old, some (unmarshalTypeError (numberKind raw) "payload" "uint8"))
  | j => (old, some (unmarshalTypeError (jsonKind j) "payload" "uint8"))

def decodeBytes : List UInt8 → List Json → List UInt8 × Option Text
  | _, [] => ([], none)
  | old, j :: items =>
    let first := decodeByte (old.headD 0) j
    let later := decodeBytes old.tail items
    (first.1 :: later.1, first.2.or later.2)

def payloadField : Json.Field Envelope Text where
  name := "payload"
  write e :=
    .ok (some (match e.Payload with
      | none => .null
      | some bytes => .string (Json.quote (String.ofList (Base64.encode bytes)))))
  read e
    | .null => ({ e with Payload := none }, .none)
    | .string raw =>
      match Base64.decode (Json.unquote raw).toList with
      | some bytes => ({ e with Payload := some bytes }, .none)
      | none => (e, .saved (host.corruptInput (Json.unquote raw)))
    | .array items =>
      let decoded := decodeBytes (e.Payload.getD []) items
      ({ e with Payload := some decoded.1 }, problem decoded.2)
    | j => (e, .saved (unmarshalTypeError (jsonKind j) "payload" "[]uint8"))

def envelopeFields : List (Json.Field Envelope Text) := [
  stringField "id" "string" false (·.ID) fun e s => { e with ID := s },
  stringField "type" "queue.MessageType" false (·.MessageType) fun e s => { e with MessageType := s },
  stringField "source" "string" true (·.Source) fun e s => { e with Source := s },
  stringField "version" "string" true (·.Version) fun e s => { e with Version := s },
  timestampField host,
  headersField host,
  payloadField host,
  stringField "content_type" "string" true (·.ContentType) fun e s => { e with ContentType := s },
  stringField "encoding" "string" true (·.Encoding) fun e s => { e with Encoding := s },
  stringField "correlation_id" "string" true (·.CorrelationID)
    fun e s => { e with CorrelationID := s },
  stringField "reply_to" "string" true (·.ReplyTo) fun e s => { e with ReplyTo := s },
  intField "priority" (·.Priority) fun e i => { e with Priority := i },
  intField "ttl" (·.TTL) fun e i => { e with TTL := i },
  intField "retry_count" (·.RetryCount) fun e i => { e with RetryCount := i }]

end

namespace Envelope
variable (host : JsonHost) (e : Envelope)

def validate : Option Text :=
  if e.MessageType = "" then some (sprintf "%w: type is empty" [errInvalidMessageType])
  else match e.Payload with
    | none => some (sprintf "%w: payload is nil" [errInvalidPayload])
    | some _ => none

def setHeaders : Envelope :=
  let headers := e.Headers.getD ∅
  let headers := headers.insert "x-message-type" (.string e.MessageType)
  { e with Headers := some (headers.insert "x-message-version" (.string e.Version)) }

def marshal : Envelope × Except Text (List UInt8) :=
  match e.validate with
  | some err => (e, .error err)
  | none =>
    let e := e.setHeaders
    match Json.encodeFields e (envelopeFields host) with
    | .error err => (e, .error (sprintf "marshal envelope: %w" [err]))
    | .ok members => (e, .ok (Json.utf8 (Json.render (.object members))))

def decode (data : List UInt8) : Envelope × Option Text :=
  match Json.parse data with
  | none => (e, some (host.syntaxError data))
  | some (.object members) => Json.decodeMembers (envelopeFields host) e members
  | some .null => (e, none)
  | some j =>
    (e, some (sprintf "json: cannot unmarshal %s into Go value of type %s"
      [.str (jsonKind j), .str "queue.Envelope"]))

def unmarshal (data : List UInt8) : Envelope × Option Text :=
  if data = [] then (e, some (sprintf "%w: empty data" [errInvalidPayload]))
  else match e.decode host data with
    | (e, some err) => (e, some (sprintf "unmarshal envelope: %w" [err]))
    | (e, none) =>
      let e := { e with Headers := some (e.Headers.getD ∅) }
      (e, e.validate)

end Envelope

def deserialize (host : JsonHost) (data : List UInt8) : Except Text Envelope :=
  match ({} : Envelope).unmarshal host data with
  | (_, some err) => .error err
  | (e, none) => .ok e

structure Delivery where
  DeliveryTag : Nat
  Redelivered : Bool
  RoutingKey : String
  Body : List UInt8
  deriving DecidableEq, Repr

def envelopeFromDelivery (host : JsonHost) (d : Delivery) : Except Text Envelope :=
  deserialize host d.Body

end NexusPipe.Queue
