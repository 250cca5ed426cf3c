import NexusPipe.Cron
import NexusPipe.Strings

namespace NexusPipe

namespace Auth
open Library Strings

/-- The package `bcrypt` and what is assumed of it; `salt` is what it draws at random. -/
structure Bcrypt where
  generateFromPassword : (salt : List UInt8) → (password : String) → (cost : Int) → Except Text String
  compareHashAndPassword : (hash password : String) → Option Text
  tooLong : ∀ salt password cost, 72 < password.length →
    generateFromPassword salt password cost = .error (.str "bcrypt: password length exceeds 72 bytes")
  compare_iff : ∀ salt password cost hash, generateFromPassword salt password cost = .ok hash →
    ∀ other, compareHashAndPassword hash other = none ↔ other = password

def errInvalidAPIKey : Text := .str "invalid API key"
def errAPIKeyRevoked : Text := .str "API key has been revoked"
def errAPIKeyExpired : Text := .str "API key has expired"
def errKeyPrefixInvalid : Text := .str "invalid API key prefix"
def errRateLimitExceeded : Text := .str "rate limit exceeded"

def apiKeyPrefix : String := "nxp_"
def apiKeyLength : Nat := 48
def bcryptCost : Int := 12

structure APIKey where
  ID : String
  KeyPrefix : String
  KeyHash : String
  Name : String
  UserID : String
  Permissions : List String
  Revoked : Bool
  ExpiresAt : Time
  CreatedAt : Time
  LastUsedAt : Time
  deriving DecidableEq, Repr

structure APIKeyStorage (σ : Type) where
  save : σ → APIKey → Except Text σ
  findByPrefix : σ → String → Except Text APIKey
  revoke : σ → String → Except Text σ
  delete : σ → String → Except Text σ

abbrev MemoryStorage := GoMap String APIKey

namespace MemoryStorage
variable (s : MemoryStorage)

def save (key : APIKey) : Except Text MemoryStorage := .ok (s.insert key.ID key)

def findByPrefix (order : GoMap.RangeOrder String APIKey) (head : String) : Except Text APIKey :=
  match (order s).entries.find? (·.2.KeyPrefix = head) with
  | some entry => .ok entry.2
  | none => .error (sprintf "API key not found with prefix: %s" [.str head])

def revoke (id : String) : Except Text MemoryStorage :=
  match s.lookup id with
  | none => .error (sprintf "API key not found: %s" [.str id])
  | some key => .ok (s.insert id { key with Revoked := true })

def delete (id : String) : Except Text MemoryStorage := .ok (s.erase id)

end MemoryStorage

def memoryStorage (order : GoMap.RangeOrder String APIKey) : APIKeyStorage MemoryStorage where
  save := MemoryStorage.save
  findByPrefix s := MemoryStorage.findByPrefix s order
  revoke := MemoryStorage.revoke
  delete := MemoryStorage.delete

structure RateLimitEntry where
  count : Int
  windowStart : Time
  deriving DecidableEq, Repr

structure APIKeyManager (σ : Type) where
  rateLimits : GoMap String RateLimitEntry
  rateLimitRate : Int
  rateLimitWindow : Int
  storage : APIKeyStorage σ
  state : σ

structure APIKeyManagerOption where
  rate : Int
  window : Int

def newAPIKeyManager {σ : Type} (storage : APIKeyStorage σ) (state : σ)
    (opts : List APIKeyManagerOption) : APIKeyManager σ :=
  opts.foldl (fun m opt => { m with rateLimitRate := opt.rate, rateLimitWindow := opt.window })
    { rateLimits := ∅, rateLimitRate := 100, rateLimitWindow := 1 * minute, storage, state }

def hashKey (bcrypt : Bcrypt) (salt : List UInt8) (key : String) : Except Text String :=
  bcrypt.generateFromPassword salt key bcryptCost

def verifyKey (bcrypt : Bcrypt) (key hash : String) : Option Text :=
  bcrypt.compareHashAndPassword hash key

def generateRandomKey (length : Nat) (random : Nat → UInt8) : String :=
  hexEncode ((List.range length).map random)

def generateKeyID (random : Nat → UInt8) : String := hexEncode ((List.range 16).map random)

def APIKey.expired (key : APIKey) (now : Time) : Bool :=
  !key.ExpiresAt.isZero && now.after key.ExpiresAt

namespace APIKeyManager
variable {σ : Type} (bcrypt : Bcrypt) (m : APIKeyManager σ)

def generateKeyFrom (rawKey : String) (keyID : Nat → UInt8) (salt : List UInt8) (userID name : String)
    (permissions : List String) (expiresAt now : Time) :
    Except Fault (String × APIKey × APIKeyManager σ) := do
  let head := apiKeyPrefix ++ (← sliceTo rawKey 8)
  let hashedKey ← (hashKey bcrypt salt rawKey).mapError fun err =>
    .error (sprintf "failed to hash API key: %w" [err])
  let apiKey : APIKey :=
    { ID := generateKeyID keyID, KeyPrefix := head, KeyHash := hashedKey, Name := name,
      UserID := userID, Permissions := permissions, Revoked := false, ExpiresAt := expiresAt,
      CreatedAt := now, LastUsedAt := .zero }
  let state ← (m.storage.save m.state apiKey).mapError fun err =>
    .error (sprintf "failed to store API key: %w" [err])
  let fullKey := head ++ (← sliceFrom rawKey 8)
  return (fullKey, apiKey, { m with state })

def generateKey (random keyID : Nat → UInt8) (salt : List UInt8) (userID name : String)
    (permissions : List String) (expiresAt now : Time) :
    Except Fault (String × APIKey × APIKeyManager σ) :=
  m.generateKeyFrom bcrypt (generateRandomKey apiKeyLength random) keyID salt userID name permissions
    expiresAt now

def touch (now : Time) (apiKey : APIKey) : APIKey × APIKeyManager σ :=
  let apiKey := { apiKey with LastUsedAt := now }
  match m.storage.save m.state apiKey with
  | .ok state => (apiKey, { m with state })
  | .error _ => (apiKey, m)

def validateKey (now : Time) (fullKey : String) : Except Fault (APIKey × APIKeyManager σ) :=
  if !hasPrefix fullKey apiKeyPrefix then .error (.error errKeyPrefixInvalid)
  else do
    let head ← sliceTo fullKey (apiKeyPrefix.length + 8)
    let apiKey ← (m.storage.findByPrefix m.state head).mapError fun _ => .error errInvalidAPIKey
    if apiKey.Revoked then .error (.error errAPIKeyRevoked)
    else if apiKey.expired now then .error (.error errAPIKeyExpired)
    else do
      let rawSecret ← sliceFrom fullKey head.length
      if (verifyKey bcrypt fullKey apiKey.KeyHash).isSome &&
          (verifyKey bcrypt rawSecret apiKey.KeyHash).isSome then
        .error (.error errInvalidAPIKey)
      else .ok (m.touch now apiKey)

def revokeKey (id : String) : Except Text (APIKeyManager σ) :=
  (m.storage.revoke m.state id).map fun state => { m with state }

def deleteKey (id : String) : Except Text (APIKeyManager σ) :=
  (m.storage.delete m.state id).map fun state => { m with state }

def checkRateLimit (now : Time) (key : String) : Option Text × APIKeyManager σ :=
  let fresh := (none, { m with rateLimits := m.rateLimits.insert key ⟨1, now⟩ })
  match m.rateLimits.lookup key with
  | none => fresh
  | some entry =>
    if m.rateLimitWindow < now.sub entry.windowStart then fresh
    else
      let count := toInt64 (entry.count + 1)
      (if m.rateLimitRate < count then some errRateLimitExceeded else none,
        { m with rateLimits := m.rateLimits.insert key { entry with count } })

def checkRateLimits {σ : Type} (m : APIKeyManager σ) :
    List (Time × String) → List (Time × String × Option Text)
  | [] => []
  | (now, key) :: calls =>
    let (answer, m) := m.checkRateLimit now key
    (now, key, answer) :: m.checkRateLimits calls

end APIKeyManager

inductive KeyCall
  | generateKey (random keyID : Nat → UInt8) (salt : List UInt8) (userID name : String)
      (permissions : List String) (expiresAt now : Time)
  | revokeKey (id : String)
  | deleteKey (id : String)

inductive KeyResult
  | generated (result : Except Fault (String × APIKey))
  | done (err : Option Text)

variable {σ : Type} (bcrypt : Bcrypt)

def APIKeyManager.call (m : APIKeyManager σ) : KeyCall → KeyResult × APIKeyManager σ
  | .generateKey random keyID salt userID name permissions expiresAt now =>
    match m.generateKey bcrypt random keyID salt userID name permissions expiresAt now with
    | .ok (fullKey, apiKey, m') => (.generated (.ok (fullKey, apiKey)), m')
    | .error fault => (.generated (.error fault), m)
  | .revokeKey id =>
    match m.revokeKey id with
    | .ok m' => (.done none, m')
    | .error err => (.done (some err), m)
  | .deleteKey id =>
    match m.deleteKey id with
    | .ok m' => (.done none, m')
    | .error err => (.done (some err), m)

def APIKeyManager.calls (m : APIKeyManager σ) :
    List KeyCall → List (KeyCall × KeyResult) × APIKeyManager σ
  | [] => ([], m)
  | c :: rest =>
    let (result, m') := m.call bcrypt c
    let (log, last) := m'.calls rest
    ((c, result) :: log, last)

end Auth
end NexusPipe
