import NexusPipe.Strings

namespace NexusPipe.Api.Middleware
open Strings

inductive CORSMode
  | allowAll | whitelist | sameOrigin
  | other (text : String) (unknown : text ∉ ["allow-all", "whitelist", "same-origin"])
  deriving DecidableEq

structure CORSConfig where
  AllowedOrigins : List String
  Mode : CORSMode
  deriving DecidableEq

def matchOrigin (origin allowed : String) : Bool :=
  if allowed = "*" then true
  else if allowed = origin then true
  else if hasPrefix allowed "https://*." then
    let suffix := trimPrefix allowed "https://*."
    hasSuffix origin ("." ++ suffix) || origin = "https://" ++ suffix
  else if hasPrefix allowed "http://*." then
    let suffix := trimPrefix allowed "http://*."
    hasSuffix origin ("." ++ suffix) || origin = "http://" ++ suffix
  else if contains allowed "*" then
    contains origin (replaceAll allowed '*' "[^/]+")
  else false

def isSameOrigin (origin : String) : Bool :=
  hasPrefix origin "http://localhost" || hasPrefix origin "https://localhost" ||
    hasPrefix origin "http://127.0.0.1" || origin = ""

def isOriginAllowed (origin : String) (config : CORSConfig) : Bool :=
  match config.Mode with
  | .allowAll => true
  | .sameOrigin => isSameOrigin origin
  | _ => config.AllowedOrigins.any fun allowed => allowed = "*" || matchOrigin origin allowed

structure CORSHandlerConfig extends CORSConfig where
  AllowedMethods : List String
  AllowedHeaders : List String
  ExposedHeaders : List String
  AllowCredentials : Bool
  MaxAge : Int

def normalizeConfig (config : CORSHandlerConfig) : CORSHandlerConfig :=
  let orElse (given default : List String) := if given = [] then default else given
  { config with
    AllowedOrigins := orElse config.AllowedOrigins ["*"]
    AllowedMethods :=
      orElse config.AllowedMethods ["GET", "POST", "PUT", "PATCH", "DELETE", "OPTIONS"]
    AllowedHeaders :=
      orElse config.AllowedHeaders ["Origin", "Content-Type", "Accept", "Authorization"]
    MaxAge := if config.MaxAge = 0 then 12 * hour else config.MaxAge }

def resolveOrigin (origin : String) (config : CORSHandlerConfig) : Option String :=
  if config.Mode = .allowAll ∧ ¬ config.AllowCredentials then some "*"
  else if config.AllowedOrigins.any fun allowed => allowed = "*" || matchOrigin origin allowed then
    some origin
  else if config.Mode = .allowAll then some origin
  else config.AllowedOrigins.head?

inductive Passage
  | next
  | abortWithStatus (code : Nat)
  deriving DecidableEq

structure CORSAnswer where
  headers : List (String × String) := []
  passage : Passage
  deriving DecidableEq

/-- The handler, with the method of the request and its `Origin` header. `maxAge` is the text of a
number of whole seconds. -/
def cors (maxAge : Int → String) (config : CORSHandlerConfig) (method origin : String) :
    Option CORSAnswer :=
  let config := normalizeConfig config
  if origin = "" then some { passage := .next }
  else if ¬ isOriginAllowed origin config.toCORSConfig then
    some { passage := .abortWithStatus 403 }
  else (resolveOrigin origin config).map fun allow =>
    { headers :=
        [("Access-Control-Allow-Origin", allow),
          ("Access-Control-Allow-Methods", join config.AllowedMethods ", "),
          ("Access-Control-Allow-Headers", join config.AllowedHeaders ", "),
          ("Access-Control-Expose-Headers", join config.ExposedHeaders ", "),
          ("Access-Control-Max-Age", maxAge config.MaxAge)] ++
        if config.AllowCredentials then [("Access-Control-Allow-Credentials", "true")] else []
      passage := if method = "OPTIONS" then .abortWithStatus 204 else .next }

end NexusPipe.Api.Middleware
