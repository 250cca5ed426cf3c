import NexusPipe.Auth.APIKey

namespace NexusPipe.Auth
open Strings

def errTokenExpired : Text := .str "token has expired"
def errTokenInvalid : Text := .str "token is invalid"
def errTokenMalformed : Text := .str "token is malformed"
def errTokenNotValidYet : Text := .str "token is not valid yet"

structure Claims where
  ID : String
  Subject : String
  Issuer : String
  IssuedAt : Option Int
  NotBefore : Option Int
  ExpiresAt : Option Int
  UserID : String
  Username : String
  Email : String
  Roles : List String
  Permissions : List String
  TokenType : String
  deriving DecidableEq, Repr

inductive SigningKey (PrivateKey : Type)
  | hmac (secret : String)
  | rsa (key : PrivateKey)

inductive VerificationKey (PublicKey : Type)
  | hmac (secret : String)
  | rsa (key : PublicKey)

def SigningKey.alg {PrivateKey : Type} : SigningKey PrivateKey → String
  | .hmac _ => "HS256"
  | .rsa _ => "RS256"

structure Token where
  alg : String
  claims : Claims
  deriving DecidableEq, Repr

/-- The errors of the library; `ValidateToken` asks for the first three. -/
inductive JwtError
  | expired
  | notValidYet
  | malformed
  | other (text : Text)
  deriving DecidableEq, Repr

def JwtError.text : JwtError → Text
  | .expired => .str "token is expired"
  | .notValidYet => .str "token is not valid yet"
  | .malformed => .str "token is malformed"
  | .other text => text

def numericDate (t : Time) : Int := t.instant / second * second

structure Claims.Issued (claims : Claims) : Prop where
  tokenType : claims.TokenType = "access" ∨ claims.TokenType = "refresh"
  issuedAt : ∀ t ∈ claims.IssuedAt, second ∣ t
  notBefore : ∀ t ∈ claims.NotBefore, second ∣ t
  expiresAt : ∀ t ∈ claims.ExpiresAt, second ∣ t

/-- Signing and reading tokens, and what is assumed of it. `reread` is what becomes of claims that are
written as JSON and read again, where a text that is not UTF-8 changes. -/
structure Jwt (PrivateKey PublicKey : Type) where
  signedString : SigningKey PrivateKey → Claims → Except Text String
  parseUnverified : String → Except JwtError Token
  verify : VerificationKey PublicKey → String → Bool
  reread : Claims → Claims
  signs_hmac : ∀ secret claims, ∃ token, signedString (.hmac secret) claims = .ok token
  parse_signed : ∀ key claims token, signedString key claims = .ok token →
    parseUnverified token = .ok ⟨key.alg, reread claims⟩
  verify_signed : ∀ secret claims token, signedString (.hmac secret) claims = .ok token →
    verify (.hmac secret) token = true
  reread_issued : ∀ claims, claims.Issued →
    (reread claims).TokenType = claims.TokenType ∧ (reread claims).IssuedAt = claims.IssuedAt ∧
      (reread claims).NotBefore = claims.NotBefore ∧ (reread claims).ExpiresAt = claims.ExpiresAt

def Claims.expired (claims : Claims) (now : Time) (leeway : Int) : Bool :=
  match claims.ExpiresAt with
  | some exp => !(now.instant < exp + leeway)
  | none => false

def Claims.notValidYet (claims : Claims) (now : Time) (leeway : Int) : Bool :=
  match claims.NotBefore with
  | some nbf => now.instant < nbf - leeway
  | none => false

def Jwt.parseWithClaims {PrivateKey PublicKey : Type} (jwt : Jwt PrivateKey PublicKey) (now : Time)
    (token : String) (keyFunc : String → Except Text (VerificationKey PublicKey)) (leeway : Int)
    (validMethods : List String) : Except (List JwtError) Claims :=
  match jwt.parseUnverified token with
  | .error err => .error [err]
  | .ok parsed =>
    if parsed.alg ∉ validMethods then
      .error [.other (sprintf "token signature is invalid: signing method %v is invalid"
        [.str parsed.alg])]
    else
      match keyFunc parsed.alg with
      | .error err =>
        .error [.other (sprintf "token is unverifiable: error while executing keyfunc: %v" [err])]
      | .ok key =>
        if !jwt.verify key token then
          .error [.other (.str "token signature is invalid: signature is invalid")]
        else
          let failures := (if parsed.claims.expired now leeway then [JwtError.expired] else []) ++
            if parsed.claims.notValidYet now leeway then [.notValidYet] else []
          if failures = [] then .ok parsed.claims else .error failures

inductive SigningMethod (PrivateKey PublicKey : Type)
  | HS256 (secretKey : String)
  | RS256 (privateKey : PrivateKey) (publicKey : PublicKey)

structure JWTManager (PrivateKey PublicKey : Type) where
  signingMethod : SigningMethod PrivateKey PublicKey
  accessExpiry : Int
  refreshExpiry : Int
  issuer : String

def newJWTManager (PrivateKey PublicKey : Type) : JWTManager PrivateKey PublicKey where
  signingMethod := .HS256 "nexuspipe-default-secret-change-in-production"
  accessExpiry := 15 * minute
  refreshExpiry := 7 * 24 * hour
  issuer := "nexuspipe"

structure User where
  userID : String
  username : String
  email : String
  roles : List String
  permissions : List String
  deriving DecidableEq, Repr

namespace JWTManager
variable {PrivateKey PublicKey : Type} (jwt : Jwt PrivateKey PublicKey)
  (m : JWTManager PrivateKey PublicKey)

def signingKey : SigningKey PrivateKey :=
  match m.signingMethod with
  | .RS256 privateKey _ => .rsa privateKey
  | .HS256 secretKey => .hmac secretKey

def verificationKey : VerificationKey PublicKey :=
  match m.signingMethod with
  | .RS256 _ publicKey => .rsa publicKey
  | .HS256 secretKey => .hmac secretKey

def methodFamily : List String :=
  match m.signingMethod with
  | .RS256 .. => ["RS256", "RS384", "RS512"]
  | .HS256 _ => ["HS256", "HS384", "HS512"]

def keyFunc (alg : String) : Except Text (VerificationKey PublicKey) :=
  if alg ∈ m.methodFamily then .ok m.verificationKey
  else .error (sprintf "unexpected signing method: %v" [.str alg])

def validMethods : List String :=
  match m.signingMethod with
  | .RS256 .. => ["RS256"]
  | .HS256 _ => ["HS256"]

def claimsFor (now : Time) (jti : String) (user : User) (expiry : Int) (tokenType : String) :
    Claims where
  ID := jti
  Subject := user.userID
  Issuer := m.issuer
  IssuedAt := some (numericDate now)
  NotBefore := some (numericDate now)
  ExpiresAt := some (numericDate (now.add expiry))
  UserID := user.userID
  Username := user.username
  Email := user.email
  Roles := user.roles
  Permissions := user.permissions
  TokenType := tokenType

def generateToken (now : Time) (jti : String) (user : User) : Except Text String :=
  (jwt.signedString m.signingKey (m.claimsFor now jti user m.accessExpiry "access")).mapError fun err =>
    sprintf "failed to sign token: %w" [err]

def generateRefreshToken (now : Time) (jti : String) (user : User) : Except Text String :=
  (jwt.signedString m.signingKey (m.claimsFor now jti user m.refreshExpiry "refresh")).mapError
    fun err => sprintf "failed to sign refresh token: %w" [err]

def leeway : Int := 30 * second

def validateToken (now : Time) (token : String) : Except Text Claims :=
  match jwt.parseWithClaims now token m.keyFunc leeway m.validMethods with
  | .ok claims => .ok claims
  | .error errs =>
    if .expired ∈ errs then .error errTokenExpired
    else if .notValidYet ∈ errs then .error errTokenNotValidYet
    else if .malformed ∈ errs then .error errTokenMalformed
    else .error (sprintf "%w: %v" (errTokenInvalid :: errs.map JwtError.text))

def refreshToken (now : Time) (jti token : String) : Except Fault String :=
  match m.validateToken jwt now token with
  | .error err => .error (.error err)
  | .ok claims =>
    if claims.TokenType ≠ "access" then
      .error (.error (.str "only access tokens can be refreshed"))
    else
      match claims.IssuedAt with
      | none => .error (.panic "invalid memory address or nil pointer dereference")
      | some issuedAt =>
        if m.refreshExpiry < now.sub ⟨issuedAt, .localZone⟩ then .error (.error errTokenExpired)
        else
          (m.generateToken jwt now jti ⟨claims.UserID, claims.Username, claims.Email, claims.Roles,
            claims.Permissions⟩).mapError .error

end JWTManager

def extractBearerToken (authHeader : String) : Except Text String :=
  if authHeader = "" then .error (.str "authorization header is missing")
  else
    match splitN2 authHeader ' ' with
    | [scheme, token] =>
      -- `strings.EqualFold`; no letter of `bearer` folds with anything beyond ASCII
      if lowerASCII scheme = "bearer" then .ok token
      else .error (.str "invalid authorization header format, expected 'Bearer <token>'")
    | _ => .error (.str "invalid authorization header format, expected 'Bearer <token>'")

end NexusPipe.Auth
