import NexusPipe.Api.Middleware
import NexusPipe.Proof.Auth.APIKey
import NexusPipe.Proof.Auth.JWT

namespace NexusPipe.Proof.Api.Middleware
open Library Strings NexusPipe.Auth NexusPipe.Api.Middleware
open Proof.Auth.APIKey Proof.Auth.JWT

variable {PrivateKey PublicKey σ : Type} {jwt : Jwt PrivateKey PublicKey} {bcrypt : Bcrypt}
  {unicode : String → String} {now : Time} {request : Request} {c c' : Context}
  {config : AuthConfig PrivateKey PublicKey σ}

variable {first : String}

theorem not_hasPrefix {second : String} (apart : first.toList.take 2 ≠ second.toList.take 2)
    (long : 2 ≤ first.length) (long' : 2 ≤ second.length) (found : hasPrefix h first = true) :
    hasPrefix h second = false := by
  rw [Bool.eq_false_iff]
  intro found'
  obtain ⟨rest, split⟩ := hasPrefix_iff.mp found
  obtain ⟨rest', split'⟩ := hasPrefix_iff.mp found'
  rw [← String.length_toList] at long long'
  have heads := congrArg (List.take 2) (split.trans split'.symm)
  rw [List.take_append_of_le_length long, List.take_append_of_le_length long'] at heads
  exact apart heads

theorem not_scheme_of_key (found : hasPrefix h apiKeyPrefix = true) :
    hasPrefix h "Bearer " = false ∧ hasPrefix h "Basic " = false :=
  ⟨not_hasPrefix (by decide) (by decide) (by decide) found,
    not_hasPrefix (by decide) (by decide) (by decide) found⟩

theorem ne_empty_of_hasPrefix (nonempty : first ≠ "") (found : hasPrefix h first = true) :
    h ≠ "" := by
  rintro rfl
  obtain ⟨rest, split⟩ := hasPrefix_iff.mp found
  have : first.toList = [] := by simp_all
  exact nonempty (String.toList_inj.mp this)

inductive Admits (jwt : Jwt PrivateKey PublicKey) (bcrypt : Bcrypt) (unicode : String → String)
    (now : Time) (request : Request) (c : Context) (config : AuthConfig PrivateKey PublicKey σ) :
    Context → Prop
  | skipped (skip : request.Path ∈ config.SkipPaths) :
      Admits jwt bcrypt unicode now request c config c
  | bearer {m : JWTManager PrivateKey PublicKey} {token : String} {claims : Claims}
      (checked : request.Path ∉ config.SkipPaths)
      (scheme : hasPrefix (request.header "Authorization") "Bearer " = true)
      (manager : config.JWTManager = some m)
      (carried : extractBearerToken (request.header "Authorization") = .ok token)
      (valid : m.validateToken jwt now token = .ok claims) :
      Admits jwt bcrypt unicode now request c config (setClaimsContext c claims)
  | basic {c' : Context} (checked : request.Path ∉ config.SkipPaths)
      (scheme : hasPrefix (request.header "Authorization") "Basic " = true)
      (pair : basicAuthHandler c (request.header "Authorization") = .ok c') :
      Admits jwt bcrypt unicode now request c config c'
  | key {m m' : APIKeyManager σ} {key : APIKey} (checked : request.Path ∉ config.SkipPaths)
      (manager : config.APIKeyManager = some m)
      (valid : m.validateKey bcrypt now (request.header "Authorization") = .ok (key, m')) :
      Admits jwt bcrypt unicode now request c config (setKeyContext c unicode key)

theorem authMiddleware_next_iff :
    (∃ config', authMiddleware c jwt bcrypt unicode now request config = .ok (.next c', config')) ↔
      Admits jwt bcrypt unicode now request c config c' := by
  unfold authMiddleware
  constructor
  · rintro ⟨config', reached⟩
    simp only at reached
    split at reached
    · next skip =>
        cases reached
        exact .skipped skip
    split at reached
    · cases reached
    next checked _ =>
    split at reached
    · next scheme =>
        split at reached
        · cases reached
        split at reached
        · cases reached
        split at reached
        · cases reached
        cases reached
        exact .bearer checked scheme ‹_› ‹_› ‹_›
    split at reached
    · next scheme =>
        split at reached
        · cases reached
        cases reached
        exact .basic checked scheme ‹_›
    split at reached
    · cases reached
    split at reached
    · cases reached
    · cases reached
    · cases reached
      exact .key checked ‹_› ‹_›
  · intro admits
    cases admits with
    | skipped skip => exact ⟨config, by rw [if_pos skip]⟩
    | bearer checked scheme manager carried valid =>
      refine ⟨config, ?_⟩
      rw [if_neg checked, if_neg (ne_empty_of_hasPrefix (by decide) scheme), if_pos scheme]
      simp only [manager, carried, valid]
    | basic checked scheme pair =>
      have notBearer : hasPrefix (request.header "Authorization") "Bearer " = false :=
        not_hasPrefix (by decide) (by decide) (by decide) scheme
      refine ⟨config, ?_⟩
      rw [if_neg checked, if_neg (ne_empty_of_hasPrefix (by decide) scheme),
        if_neg (Bool.eq_false_iff.mp notBearer), if_pos scheme]
      simp only [pair]
    | @key m m' key checked manager valid =>
      -- a valid key starts with `nxp_`, so the branches before are not taken
      have scheme := (validateKey_eq_ok_iff.mp valid).1
      obtain ⟨notBearer, notBasic⟩ := not_scheme_of_key scheme
      refine ⟨{ config with APIKeyManager := some m' }, ?_⟩
      rw [if_neg checked, if_neg (ne_empty_of_hasPrefix (by decide) scheme),
        if_neg (Bool.eq_false_iff.mp notBearer), if_neg (Bool.eq_false_iff.mp notBasic)]
      simp only [manager, valid]

theorem checkRateLimit_storage (m : APIKeyManager σ) (now : Time) (key : String) :
    (m.checkRateLimit now key).2.storage = m.storage ∧
      (m.checkRateLimit now key).2.state = m.state := by
  unfold APIKeyManager.checkRateLimit
  simp only
  split
  · exact ⟨rfl, rfl⟩
  · split <;> exact ⟨rfl, rfl⟩

variable {m m' : APIKeyManager σ} {key : String}

theorem validateKey_of_rateLimited (storage : m'.storage = m.storage) (state : m'.state = m.state)
    (valid : m'.validateKey bcrypt now key = .ok accepted) :
    ∃ accepted, m.validateKey bcrypt now key = .ok accepted := by
  obtain ⟨scheme, long, found, lookup, live, current, verified, -⟩ := validateKey_eq_ok_iff.mp valid
  rw [storage, state] at lookup
  exact ⟨m.touch now found,
    validateKey_eq_ok_iff.mpr ⟨scheme, long, found, lookup, live, current, verified, rfl⟩⟩

theorem valid_of_acceptKey (reached : acceptKey c bcrypt unicode now m key = .ok (.next c', m')) :
    ∃ accepted, m.validateKey bcrypt now key = .ok accepted := by
  obtain ⟨storage, state⟩ := checkRateLimit_storage m now key
  unfold acceptKey at reached
  split at reached
  · cases reached
  split at reached
  · cases reached
  next limited admitted =>
  rw [admitted] at storage state
  split at reached
  · cases reached
  · cases reached
  · next valid => exact validateKey_of_rateLimited storage state valid

theorem basicPair_empty : ∃ err, basicPair "" = .error err := ⟨_, rfl⟩

theorem basicAuthMiddleware_next_iff (credentials : GoMap String String) :
    (∃ c', basicAuthMiddleware c request credentials = .next c') ↔
      ∃ pair, basicPair (request.header "Authorization") = .ok pair := by
  unfold basicAuthMiddleware basicAuthHandler
  simp only
  split
  · next missing =>
      obtain ⟨err, fails⟩ := basicPair_empty
      simp [missing, fails]
  · cases basicPair (request.header "Authorization") with
    | error | ok => simp [Except.map]

theorem trimPrefix_eq_self_iff (h : String) (nonempty : head ≠ "") :
    trimPrefix h head = h ↔ hasPrefix h head = false := by
  unfold trimPrefix
  split
  · next found =>
      rw [found]
      refine iff_of_false (fun same => nonempty ?_) (by decide)
      obtain ⟨rest, split⟩ := hasPrefix_iff.mp found
      have lengths := congrArg String.length same
      rw [String.length_ofList, List.length_drop, ← String.length_toList (s := h), ← split,
        List.length_append, String.length_toList] at lengths
      exact String.length_eq_zero_iff.mp (by omega)
  · next missing => simp [missing]

theorem router_next_iff (jwtSecret : String) :
    (∃ stored, Api.authMiddleware jwtSecret request = .ok stored) ↔
      hasPrefix (request.header "Authorization") "Bearer " = true := by
  have trimmed := trimPrefix_eq_self_iff (request.header "Authorization")
    (show "Bearer " ≠ "" by decide)
  unfold Api.authMiddleware
  simp only [trimmed]
  by_cases found : hasPrefix (request.header "Authorization") "Bearer " = true
  · rw [if_neg (ne_empty_of_hasPrefix (by decide) found), if_neg (by rw [found]; decide)]
    exact iff_of_true ⟨_, rfl⟩ found
  · refine iff_of_false ?_ found
    rintro ⟨stored, reached⟩
    rw [Bool.not_eq_true] at found
    rw [if_pos found] at reached
    split at reached <;> cases reached

def carriedKeys (request : Request) : List String :=
  [request.header "X-API-Key", request.query "api_key", request.header "Authorization"]

inductive Credential (jwt : Jwt PrivateKey PublicKey) (bcrypt : Bcrypt) (now : Time)
    (request : Request) (config : AuthConfig PrivateKey PublicKey σ)
    (credentials : GoMap String String) : Prop
  -- signed with the right key and not expired, up to the leeway
  | token {m : JWTManager PrivateKey PublicKey} {token : String} {parsed : Token}
      (manager : config.JWTManager = some m)
      (carried : extractBearerToken (request.header "Authorization") = .ok token)
      (signed : jwt.verify m.verificationKey token = true)
      (read : jwt.parseUnverified token = .ok parsed)
      (current : parsed.claims.expired now JWTManager.leeway = false)
  | key {m : APIKeyManager σ} {key : String} {accepted : APIKey × APIKeyManager σ}
      (manager : config.APIKeyManager = some m) (carried : key ∈ carriedKeys request)
      (valid : m.validateKey bcrypt now key = .ok accepted)
  | password {name password : String}
      (carried : basicPair (request.header "Authorization") = .ok (name, password))
      (configured : credentials.lookup name = some password)

theorem credential_of_admits (checked : request.Path ∉ config.SkipPaths)
    (basic : hasPrefix (request.header "Authorization") "Basic " = true →
      (∃ pair, basicPair (request.header "Authorization") = .ok pair) →
        Credential jwt bcrypt now request config credentials)
    (admits : Admits jwt bcrypt unicode now request c config c') :
    Credential jwt bcrypt now request config credentials := by
  cases admits with
  | skipped skip => exact absurd skip checked
  | bearer _ _ manager carried valid =>
    obtain ⟨read, signed, current, -⟩ := validateToken_eq_ok_iff.mp valid
    exact .token manager carried signed read current
  | basic _ scheme pair =>
    obtain ⟨pair, decoded, -⟩ := map_eq_ok.mp pair
    exact basic scheme ⟨pair, decoded⟩
  | key _ manager valid => exact .key manager (by simp [carriedKeys]) valid

theorem credential_of_apiKeyAuth (manager : config.APIKeyManager = some m)
    (reached : apiKeyAuthMiddleware c bcrypt unicode now request m = .ok (.next c', m'))
    (passed : presentedKey request = "" →
      hasPrefix (request.header "Authorization") "Bearer " = true ∨
        hasPrefix (request.header "Authorization") "Basic " = true →
          Credential jwt bcrypt now request config credentials) :
    Credential jwt bcrypt now request config credentials := by
  unfold apiKeyAuthMiddleware at reached
  simp only at reached
  split at reached
  · obtain ⟨accepted, valid⟩ := valid_of_acceptKey reached
    refine .key manager ?_ valid
    unfold presentedKey
    split <;> simp [carriedKeys]
  next absent =>
  split at reached
  · next scheme => exact passed (not_not.mp absent) scheme
  · obtain ⟨accepted, valid⟩ := valid_of_acceptKey reached
    exact .key manager (by simp [carriedKeys]) valid

theorem credential_needed_iff (jwt : Jwt PrivateKey PublicKey) (bcrypt : Bcrypt)
    (unicode : String → String) (now : Time) (request : Request) (c : Context)
    (config : AuthConfig PrivateKey PublicKey σ) (credentials : GoMap String String)
    (jwtSecret : String) :
    let header := request.header "Authorization"
    let authorized := Credential jwt bcrypt now request config credentials
    ((request.Path ∉ config.SkipPaths →
        (∃ c' config', authMiddleware c jwt bcrypt unicode now request config =
          .ok (.next c', config')) → authorized) ↔
      (request.Path ∉ config.SkipPaths → hasPrefix header "Basic " = true →
        (∃ pair, basicPair header = .ok pair) → authorized)) ∧
    ((∀ m, config.APIKeyManager = some m →
        (∃ c' m', apiKeyAuthMiddleware c bcrypt unicode now request m = .ok (.next c', m')) →
          authorized) ↔
      (config.APIKeyManager.isSome → presentedKey request = "" →
        hasPrefix header "Bearer " = true ∨ hasPrefix header "Basic " = true → authorized)) ∧
    (((∃ c', basicAuthMiddleware c request credentials = .next c') → authorized) ↔
      ((∃ pair, basicPair header = .ok pair) → authorized)) ∧
    (((∃ stored, Api.authMiddleware jwtSecret request = .ok stored) → authorized) ↔
      (hasPrefix header "Bearer " = true → authorized)) := by
  refine ⟨⟨fun sound checked scheme ⟨pair, decoded⟩ => ?_, fun basic checked => ?_⟩, ⟨?_, ?_⟩, ?_, ?_⟩
  · have handled : basicAuthHandler c (request.header "Authorization") = .ok _ :=
      map_eq_ok.mpr ⟨pair, decoded, rfl⟩
    exact sound checked ⟨_, authMiddleware_next_iff.mpr (.basic checked scheme handled)⟩
  · rintro ⟨c', reached⟩
    exact credential_of_admits checked (basic checked) (authMiddleware_next_iff.mp reached)
  · intro sound present absent scheme
    obtain ⟨m, manager⟩ := Option.isSome_iff_exists.mp present
    refine sound m manager ⟨c, m, ?_⟩
    unfold apiKeyAuthMiddleware
    rw [if_neg (not_not.mpr absent), if_pos scheme]
  · rintro passed m manager ⟨c', m', reached⟩
    exact credential_of_apiKeyAuth manager reached (passed (by rw [manager]; rfl))
  · rw [basicAuthMiddleware_next_iff]
  · rw [router_next_iff]

def requestWith (authorization : String) : Request where
  Path := "/api/v1/pipelines"
  header name := if name = "Authorization" then authorization else ""
  query _ := ""

theorem passes_without_credential : ∃ config : AuthConfig Unit Unit MemoryStorage,
    ∀ (jwt : Jwt Unit Unit) (bcrypt : Bcrypt) (unicode : String → String) (now : Time) (c : Context),
      (¬ Credential jwt bcrypt now (requestWith "Basic YTpi") config ∅ ∧
        (∃ c' config', authMiddleware c jwt bcrypt unicode now (requestWith "Basic YTpi") config =
          .ok (.next c', config')) ∧ (∃ m, config.APIKeyManager = some m ∧
          ∃ c' m', apiKeyAuthMiddleware c bcrypt unicode now (requestWith "Basic YTpi") m =
            .ok (.next c', m')) ∧
        ∃ c', basicAuthMiddleware c (requestWith "Basic YTpi") ∅ = .next c') ∧
      ¬ Credential jwt bcrypt now (requestWith "Bearer x") config ∅ ∧
        ∃ stored, Api.authMiddleware "secret" (requestWith "Bearer x") = .ok stored := by
  let config : AuthConfig Unit Unit MemoryStorage :=
    ⟨none, some (newAPIKeyManager (memoryStorage GoMap.anyOrder) ∅ []), []⟩
  have bare (jwt : Jwt Unit Unit) (bcrypt : Bcrypt) (now : Time) (authorization : String)
      (noKey : hasPrefix authorization apiKeyPrefix = false) :
      ¬ Credential jwt bcrypt now (requestWith authorization) config ∅ := by
    rintro (⟨manager, -⟩ | ⟨-, carried, valid⟩ | ⟨-, configured⟩)
    · cases manager
    · have scheme := (validateKey_eq_ok_iff.mp valid).1
      have empty : hasPrefix "" apiKeyPrefix = false := by decide
      simp only [carriedKeys, List.mem_cons, List.not_mem_nil, or_false] at carried
      rcases carried with rfl | rfl | rfl
      · exact Bool.noConfusion (empty.symm.trans scheme)
      · exact Bool.noConfusion (empty.symm.trans scheme)
      · exact Bool.noConfusion (noKey.symm.trans scheme)
    · cases configured
  refine ⟨config, fun jwt bcrypt unicode now c => ⟨⟨bare _ _ _ _ (by decide), ?_, ?_, ?_⟩,
    bare _ _ _ _ (by decide), ⟨_, rfl⟩⟩⟩
  · exact ⟨_, authMiddleware_next_iff.mpr (.basic (by simp [config]) (by decide) rfl)⟩
  · exact ⟨_, rfl, c, _, rfl⟩
  · exact ⟨_, rfl⟩

end NexusPipe.Proof.Api.Middleware
