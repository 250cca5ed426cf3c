import NexusPipe.Auth.JWT
import NexusPipe.Auth.RBAC
import NexusPipe.Library.Base64

namespace NexusPipe.Api.Middleware
open Library Strings Auth

structure Request where
  Path : String
  header : String → String
  query : String → String

inductive ContextRoles
  | strings (roles : List String)
  | otherType
  deriving DecidableEq, Repr

structure Context where
  user_id : Option String := none
  username : Option String := none
  email : Option String := none
  roles : Option ContextRoles := none
  permissions : Option (List String) := none
  auth_method : Option String := none
  claims : Option Claims := none
  api_key : Option APIKey := none
  deriving DecidableEq, Repr

inductive Handled
  | next (context : Context)
  | abort (status : Nat) (err : Text) (wwwAuthenticate : Option String)
  deriving DecidableEq, Repr

def Handled.reachesNext : Handled → Bool
  | .next _ => true
  | .abort .. => false

def unauthorized (err : Text) : Handled := .abort 401 err none

variable (c : Context)

def setUserContext (userID username email : String) (roles permissions : List String)
    (authMethod : String) : Context :=
  { c with
    user_id := some userID
    username := some username
    email := some email
    roles := some (.strings roles)
    permissions := some permissions
    auth_method := some authMethod }

def basicPair (authHeader : String) : Except Text (String × String) :=
  match Base64.decode (trimPrefix authHeader "Basic ").toList with
  | none => .error (.str "invalid base64 encoding in Basic auth")
  | some decoded =>
    match splitN2 (String.ofList (decoded.map fun b => Char.ofNat b.toNat)) ':' with
    | [name, password] => .ok (name, password)
    | _ => .error (.str "invalid Basic auth format")

def basicAuthHandler (authHeader : String) : Except Text Context :=
  (basicPair authHeader).map fun pair =>
    setUserContext c pair.1 pair.1 "" [roleViewer] [] "basic"

def roleOf (unicode : String → String) (key : APIKey) : String :=
  match key.Permissions with
  | [] => roleViewer
  | first :: _ => toLower unicode first

def setKeyContext (unicode : String → String) (key : APIKey) : Context :=
  { setUserContext c key.UserID key.Name "" [roleOf unicode key] [] "apikey" with api_key := some key }

def setClaimsContext (claims : Claims) : Context :=
  { setUserContext c claims.UserID claims.Username claims.Email claims.Roles claims.Permissions "jwt" with
    claims := some claims }

variable {PrivateKey PublicKey σ : Type} (jwt : Jwt PrivateKey PublicKey) (bcrypt : Bcrypt)
  (unicode : String → String) (now : Time) (request : Request)

structure AuthConfig (PrivateKey PublicKey σ : Type) where
  JWTManager : Option (JWTManager PrivateKey PublicKey)
  APIKeyManager : Option (APIKeyManager σ)
  SkipPaths : List String

def authMiddleware (config : AuthConfig PrivateKey PublicKey σ) :
    Except Fault (Handled × AuthConfig PrivateKey PublicKey σ) :=
  let authHeader := request.header "Authorization"
  let unsupported := .ok (unauthorized (.str "unsupported authorization method"), config)
  if request.Path ∈ config.SkipPaths then .ok (.next c, config)
  else if authHeader = "" then
    .ok (unauthorized (.str "authorization header is required"), config)
  else if hasPrefix authHeader "Bearer " then
    match config.JWTManager with
    | none => unsupported
    | some m =>
      match extractBearerToken authHeader with
      | .error err => .ok (unauthorized err, config)
      | .ok token =>
        match m.validateToken jwt now token with
        | .error err => .ok (unauthorized err, config)
        | .ok claims => .ok (.next (setClaimsContext c claims), config)
  else if hasPrefix authHeader "Basic " then
    match basicAuthHandler c authHeader with
    | .error err => .ok (unauthorized err, config)
    | .ok c => .ok (.next c, config)
  else
    match config.APIKeyManager with
    | none => unsupported
    | some m =>
      match m.validateKey bcrypt now authHeader with
      | .error (.panic reason) => .error (.panic reason)
      | .error (.error _) => .ok (unauthorized (.str "invalid API key"), config)
      | .ok (key, m) =>
        .ok (.next (setKeyContext c unicode key), { config with APIKeyManager := some m })

def jwtAuthMiddleware (m : JWTManager PrivateKey PublicKey) : Handled :=
  let authHeader := request.header "Authorization"
  if authHeader = "" then unauthorized (.str "authorization header is required")
  else
    match extractBearerToken authHeader with
    | .error err => unauthorized err
    | .ok token =>
      match m.validateToken jwt now token with
      | .error err => unauthorized err
      | .ok claims => .next (setClaimsContext c claims)

def presentedKey : String :=
  if request.header "X-API-Key" = "" then request.query "api_key" else request.header "X-API-Key"

def acceptKey (m : APIKeyManager σ) (apiKey : String) : Except Fault (Handled × APIKeyManager σ) :=
  if apiKey = "" then .ok (unauthorized (.str "API key is required"), m)
  else
    match m.checkRateLimit now apiKey with
    | (some _, m) => .ok (.abort 429 (.str "rate limit exceeded") none, m)
    | (none, m) =>
      match m.validateKey bcrypt now apiKey with
      | .error (.panic reason) => .error (.panic reason)
      | .error (.error err) => .ok (unauthorized err, m)
      | .ok (key, m) => .ok (.next (setKeyContext c unicode key), m)

def apiKeyAuthMiddleware (m : APIKeyManager σ) : Except Fault (Handled × APIKeyManager σ) :=
  let authHeader := request.header "Authorization"
  if presentedKey request ≠ "" then acceptKey c bcrypt unicode now m (presentedKey request)
  else if hasPrefix authHeader "Bearer " ∨ hasPrefix authHeader "Basic " then .ok (.next c, m)
  else acceptKey c bcrypt unicode now m authHeader

def basicAuthMiddleware (_credentials : GoMap String String) : Handled :=
  let authHeader := request.header "Authorization"
  let challenge := some "Basic realm=\"nexuspipe\""
  if authHeader = "" then .abort 401 (.str "authorization required") challenge
  else
    match basicAuthHandler c authHeader with
    | .error err => .abort 401 err challenge
    | .ok c => .next c

def requirePermission (enforcer : RBACEnforcer) (depth : Nat) (resource action : String) :
    Option Handled :=
  match c.roles with
  | none => some (.abort 403 (.str "no roles found in context") none)
  | some .otherType => some (.abort 403 (.str "invalid roles in context") none)
  | some (.strings roleList) =>
    (roleList.anyM fun role => enforcer.checkPermission depth role resource action).map fun granted =>
      if granted then .next c else .abort 403 (.str "insufficient permissions") none

end NexusPipe.Api.Middleware
