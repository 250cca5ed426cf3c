import NexusPipe.Go
import NexusPipe.Library.Schedule

namespace NexusPipe.Queue

def errConnectionClosed : Text := .str "rabbitmq connection is closed"

inductive ConnectionState
  | disconnected | connecting | connected | reconnecting
  deriving DecidableEq, Repr

structure Config where
  URL : String
  MaxRetry : Int
  ReconnectBase : Int
  ReconnectMax : Int
  Heartbeat : Int
  ChannelPoolSize : Int
  deriving DecidableEq, Repr

def defaultConfig : Config where
  URL := ""
  MaxRetry := 10
  ReconnectBase := second
  ReconnectMax := 30 * second
  Heartbeat := 10 * second
  ChannelPoolSize := 5

structure AmqpChannel where
  conn : Nat
  closed : Bool := false
  deriving DecidableEq, Repr

/-- Where the one goroutine that connects is: in the `reconnectLoop` of the current connection, or
in a `connect`. Attempt 0 is the `connect` of `NewRabbitMQ`. -/
inductive ConnectPhase
  | watching
  | backingOff (attempt : Nat)
  | dialling (attempt : Nat)
  | opening (attempt i : Nat) -- before `r.conn.Channel()` in the round `i` of `initChannelPool`
  | sending (attempt i ch : Nat) -- before `r.channels <- ch` in that round
  | returned (err : Option Text)
  deriving DecidableEq

/-- Connections and channels are numbered in the order they were opened in. `waiting` counts the
calls of `newChannel` before their lock of `mu`, `asking` holds the connection that each later one
has read, and `acquired` is what the calls of `AcquireChannel` returned. -/
structure RabbitMQ where
  cfg : Config
  state : ConnectionState
  phase : ConnectPhase
  conns : List Bool := [] -- true while the connection is open
  conn : Option Nat := none
  opened : List AmqpChannel := []
  channels : List Nat := []
  waiting : Nat := 0
  asking : List Nat := []
  acquired : List (Except Text Nat) := []
  deriving DecidableEq

def newRabbitMQ (cfg : Config) : Except Fault RabbitMQ :=
  if cfg.URL = "" then .error (.error (.str "rabbitmq URL is required"))
  else
    let cfg := if cfg.ReconnectBase = 0 then
      { cfg with ReconnectBase := defaultConfig.ReconnectBase } else cfg
    let cfg := if cfg.ReconnectMax = 0 then
      { cfg with ReconnectMax := defaultConfig.ReconnectMax } else cfg
    let cfg := if cfg.Heartbeat = 0 then { cfg with Heartbeat := defaultConfig.Heartbeat } else cfg
    let cfg := if cfg.ChannelPoolSize = 0 then
      { cfg with ChannelPoolSize := defaultConfig.ChannelPoolSize } else cfg
    if cfg.ChannelPoolSize < 0 then .error (.panic "makechan: size out of range")
    else .ok { cfg, state := .connecting, phase := .dialling 0 }

inductive RabbitAction
  | acquire
  | readConn -- a `newChannel` locks `mu` and reads `r.conn`
  | openChannel (call : Nat) (err : Option Text)
  | release (ch : Option Nat)
  | breakChannel (ch : Nat)
  | loseConnection
  | notice -- `reconnectLoop` receives from `notifyClose`
  | reconnect -- the timer of an attempt fires and `connect` locks `mu`
  | dial (err : Option Text)
  | openPooled (err : Option Text)
  | send
  | finish
  deriving DecidableEq

namespace RabbitMQ
variable (r : RabbitMQ)

def size : Nat := r.cfg.ChannelPoolSize.toNat

def connOpen (conn : Nat) : Bool := r.conns.getD conn false

def connected : Bool := r.conn.elim false r.connOpen

def channelClosed (ch : Nat) : Bool := (r.opened[ch]?).elim true (·.closed)

def locked : Bool :=
  match r.phase with
  | .dialling _ | .opening _ _ | .sending _ _ _ => true
  | _ => false

def inUse : Bool :=
  match r.phase with
  | .dialling attempt | .opening attempt _ | .sending attempt _ _ => attempt ≠ 0
  | .returned err => err.isNone
  | _ => true

def closeChannel (ch : Nat) : RabbitMQ :=
  { r with opened := r.opened.modify ch fun channel => { channel with closed := true } }

def closeConn : RabbitMQ :=
  match r.conn with
  | none => r
  | some conn =>
    { r with
      conns := r.conns.set conn false
      opened := r.opened.map fun channel =>
        if channel.conn = conn then { channel with closed := true } else channel }

def acquire : RabbitMQ :=
  match r.channels with
  | [] => { r with waiting := r.waiting + 1 }
  | ch :: channels =>
    if r.channelClosed ch then { r with channels, waiting := r.waiting + 1 }
    else { r with channels, acquired := r.acquired ++ [.ok ch] }

def readConn : RabbitMQ :=
  let r := { r with waiting := r.waiting - 1 }
  match r.conn with
  | none => { r with acquired := r.acquired ++ [.error errConnectionClosed] }
  | some conn =>
    if r.connOpen conn then { r with asking := r.asking ++ [conn] }
    else { r with acquired := r.acquired ++ [.error errConnectionClosed] }

def openOn (conn : Nat) (err : Option Text) : Except Text (Nat × RabbitMQ) :=
  match err with
  | some err => .error err
  | none =>
    if r.connOpen conn then
      .ok (r.opened.length, { r with opened := r.opened ++ [{ conn }] })
    else .error (.str "channel/connection is not open")

def openChannel (call conn : Nat) (err : Option Text) : RabbitMQ :=
  let r := { r with asking := r.asking.eraseIdx call }
  match r.openOn conn err with
  | .error err => { r with acquired := r.acquired ++ [.error (sprintf "open channel: %w" [err])] }
  | .ok (ch, r) => { r with acquired := r.acquired ++ [.ok ch] }

def release : Option Nat → RabbitMQ
  | none => r
  | some ch =>
    if r.channels.length < r.size then { r with channels := r.channels ++ [ch] }
    else r.closeChannel ch

def attempt (n : Nat) : RabbitMQ :=
  if n ≤ r.cfg.MaxRetry then { r with state := .reconnecting, phase := .backingOff n }
  else { r with state := .disconnected, phase := .returned none }

def connectFailed (n : Nat) (err : Text) : RabbitMQ :=
  let r := { r with state := .disconnected }
  if n = 0 then
    { r with phase := .returned (some (sprintf "initial connection failed: %w" [err])) }
  else r.attempt (n + 1)

def dial (n : Nat) : Option Text → RabbitMQ
  | some err => r.connectFailed n (sprintf "dial failed: %w" [err])
  | none =>
    { r with
      conns := r.conns ++ [true]
      conn := some r.conns.length
      state := .connected
      phase := .opening n 0 }

def openPooled (n i : Nat) (err : Option Text) : RabbitMQ :=
  match r.conn with
  | none => r
  | some conn =>
    match r.openOn conn err with
    | .ok (ch, r) => { r with phase := .sending n i ch }
    | .error err =>
      r.closeConn.connectFailed n (sprintf "channel pool init failed: %w"
        [sprintf "create channel %d: %w" [.int i, err]])

def step : RabbitAction → Option RabbitMQ
  | .acquire => if r.inUse then some r.acquire else none
  | .readConn => if 0 < r.waiting ∧ ¬ r.locked then some r.readConn else none
  | .openChannel call err => r.asking[call]?.map fun conn => r.openChannel call conn err
  | .release ch =>
    if r.inUse ∧ ∀ c ∈ ch, c < r.opened.length then some (r.release ch) else none
  | .breakChannel ch => some (r.closeChannel ch)
  | .loseConnection => if r.connected then some r.closeConn else none
  | .notice =>
    match r.phase with
    | .watching => if r.connected then none else some (r.attempt 1)
    | _ => none
  | .reconnect =>
    match r.phase with
    | .backingOff n =>
      let r := if r.connected then r.closeConn else r
      some { r with state := .connecting, phase := .dialling n }
    | _ => none
  | .dial err =>
    match r.phase with
    | .dialling n => some (r.dial n err)
    | _ => none
  | .openPooled err =>
    match r.phase with
    | .opening n i => if i < r.size then some (r.openPooled n i err) else none
    | _ => none
  | .send =>
    match r.phase with
    | .sending n i ch =>
      if r.channels.length < r.size then
        some { r with channels := r.channels ++ [ch], phase := .opening n (i + 1) }
      else none
    | _ => none
  | .finish =>
    match r.phase with
    | .opening _ i => if i < r.size then none else some { r with phase := .watching }
    | _ => none

end RabbitMQ

def randInt64 (now n : Int) : Except Fault Int :=
  if n = 0 then .error (.panic "integer divide by zero") else .ok (now.tmod n)

def calculateBackoff (now attempt base max : Int) : Except Fault Int :=
  let shift := min (toInt64 (attempt - 1)) 30
  if shift < 0 then .error (.panic "negative shift amount")
  else
    let d := toInt64 (base * 2 ^ shift.toNat)
    let d := if d > max then max else d
    if d > millisecond then do
      let jitter ← randInt64 now (d.tdiv 4)
      return toInt64 (d + jitter)
    else .ok d

end NexusPipe.Queue
