import NexusPipe.Proof.Api.Middleware.Auth

namespace NexusPipe.Proof.Api.Middleware
open Library Strings NexusPipe.Auth NexusPipe.Api.Middleware
open Proof.Auth.APIKey Proof.Auth.JWT

variable {PrivateKey PublicKey σ : Type} {jwt : Jwt PrivateKey PublicKey} {bcrypt : Bcrypt}
  {unicode : String → String} {m : JWTManager PrivateKey PublicKey} {now issued : Time}
  {request : Request} {c c' : Context} {config : AuthConfig PrivateKey PublicKey σ}
  {jti token : String} {user : User}

theorem splitN2_eq_cons (split : splitN2 h sep = [scheme, rest]) :
    scheme = String.ofList (h.toList.takeWhile (· ≠ sep)) := by
  unfold splitN2 at split
  split at split
  · simp only [List.cons.injEq] at split
    exact split.1.symm
  · simp at split

theorem lowerASCII_scheme (carried : extractBearerToken h = .ok token) :
    lowerASCII (String.ofList (h.toList.takeWhile (· ≠ ' '))) = "bearer" := by
  unfold extractBearerToken at carried
  split at carried
  · cases carried
  split at carried
  · next scheme rest split =>
      split at carried
      · next lower => rwa [← splitN2_eq_cons split]
      · cases carried
  · cases carried

theorem not_hasPrefix_of_bearer (carried : extractBearerToken h = .ok token) :
    hasPrefix h "Basic " = false ∧ hasPrefix h apiKeyPrefix = false := by
  have lower := congrArg String.toList (lowerASCII_scheme carried)
  simp only [lowerASCII, String.toList_ofList] at lower
  constructor
  · rw [Bool.eq_false_iff]
    intro found
    obtain ⟨rest, split⟩ := hasPrefix_iff.mp found
    have scheme : h.toList = 'B' :: 'a' :: 's' :: 'i' :: 'c' :: ' ' :: rest := split.symm
    simp [scheme] at lower
  · rw [Bool.eq_false_iff]
    intro found
    obtain ⟨rest, split⟩ := hasPrefix_iff.mp found
    have scheme : h.toList = 'n' :: 'x' :: 'p' :: '_' :: rest := split.symm
    have other : lowerChar 'n' ≠ 'b' := by decide
    simp [scheme, other] at lower

theorem extractBearerToken_bearer (token : String) :
    extractBearerToken ("Bearer " ++ token) = .ok token := by
  have chars : ("Bearer " ++ token).toList =
      'B' :: 'e' :: 'a' :: 'r' :: 'e' :: 'r' :: ' ' :: token.toList := by
    rw [String.toList_append]
    rfl
  have scheme : lowerASCII "Bearer" = "bearer" := by decide
  unfold extractBearerToken splitN2
  rw [chars]
  simp [scheme]

theorem jwtAuthMiddleware_next_iff
    (carried : extractBearerToken (request.header "Authorization") = .ok token) :
    (jwtAuthMiddleware c jwt now request m).reachesNext = true ↔
      ∃ claims, m.validateToken jwt now token = .ok claims := by
  have present : request.header "Authorization" ≠ "" := by
    intro missing
    rw [missing] at carried
    cases carried
  unfold jwtAuthMiddleware
  simp only [if_neg present, carried]
  cases m.validateToken jwt now token with
  | error err => simp [unauthorized, Handled.reachesNext]
  | ok claims => simp [Handled.reachesNext]

theorem valid_of_admits (checked : request.Path ∉ config.SkipPaths)
    (manager : config.JWTManager = some m)
    (carried : extractBearerToken (request.header "Authorization") = .ok token)
    (admits : Admits jwt bcrypt unicode now request c config c') :
    ∃ claims, m.validateToken jwt now token = .ok claims := by
  obtain ⟨notBasic, notKey⟩ := not_hasPrefix_of_bearer carried
  cases admits with
  | skipped skip => exact absurd skip checked
  | @bearer m' token' claims _ _ manager' carried' valid =>
    obtain rfl : m = m' := Option.mem_unique manager manager'
    obtain rfl : token = token' := ok_unique carried carried'
    exact ⟨claims, valid⟩
  | basic _ scheme _ => exact Bool.noConfusion (notBasic.symm.trans scheme)
  | key _ _ valid =>
    exact Bool.noConfusion (notKey.symm.trans (validateKey_eq_ok_iff.mp valid).1)

def AccessTokenOf (jwt : Jwt PrivateKey PublicKey) (user : User) (token : String) : Prop :=
  ∃ alg claims, jwt.parseUnverified token = .ok ⟨alg, claims⟩ ∧ claims.TokenType = "access" ∧
    user = ⟨claims.UserID, claims.Username, claims.Email, claims.Roles, claims.Permissions⟩

structure Separated (σ : Type) (jwt : Jwt PrivateKey PublicKey) (bcrypt : Bcrypt)
    (unicode : String → String) (m : JWTManager PrivateKey PublicKey) (issued : Time) (user : User)
    (now : Time) (token : String) : Prop where
  authMiddleware : ∀ (c : Context) (request : Request) (config : AuthConfig PrivateKey PublicKey σ),
    extractBearerToken (request.header "Authorization") = .ok token →
      config.JWTManager = some m → request.Path ∉ config.SkipPaths →
        ¬ ∃ c' config', authMiddleware c jwt bcrypt unicode now request config = .ok (.next c', config')
  jwtAuthMiddleware : ∀ (c : Context) (request : Request),
    extractBearerToken (request.header "Authorization") = .ok token →
      (jwtAuthMiddleware c jwt now request m).reachesNext = false
  exchanged : now.instant < refreshDeadline m issued → ∀ jti, ∃ access,
    m.refreshToken jwt now jti token = .ok access ∧ AccessTokenOf jwt user access

theorem kinds_separated_iff (σ : Type) (jwt : Jwt PrivateKey PublicKey) (bcrypt : Bcrypt)
    (unicode : String → String) (m : JWTManager PrivateKey PublicKey) (issued : Time) (jti : String)
    (user : User) (elapsed : Nat) :
    (∀ token, m.generateRefreshToken jwt issued jti user = .ok token →
      Separated σ jwt bcrypt unicode m issued user (issued.add elapsed) token) ↔
    ∀ token, m.generateRefreshToken jwt issued jti user = .ok token →
      refreshDeadline m issued + (if jwt.verify m.verificationKey token then JWTManager.leeway else 0) ≤
        issued.instant + elapsed := by
  refine forall_congr' fun token => forall_congr' fun generated => ?_
  have later : issued.instant ≤ (issued.add elapsed).instant := by
    simp only [Time.add]
    omega
  have accepted := validateToken_refresh_iff generated later
  have slack : 0 ≤ JWTManager.leeway := by decide
  constructor
  · intro separated
    have expired : ¬ (issued.add elapsed).instant < refreshDeadline m issued := by
      intro current
      obtain ⟨access, exchanged, -⟩ := separated.exchanged current jti
      obtain ⟨fault, refused⟩ := refreshToken_of_refresh generated (issued.add elapsed) jti
      cases refused.symm.trans exchanged
    have rejected : ¬ ∃ claims, m.validateToken jwt (issued.add elapsed) token = .ok claims := by
      have carried : extractBearerToken ((requestWith ("Bearer " ++ token)).header "Authorization") =
          .ok token := extractBearerToken_bearer token
      intro valid
      have refused := separated.jwtAuthMiddleware {} _ carried
      exact Bool.noConfusion (refused.symm.trans ((jwtAuthMiddleware_next_iff carried).mpr valid))
    rw [accepted] at rejected
    simp only [Time.add] at expired rejected
    split
    · next verified =>
        have late : ¬ _ := fun soon => rejected ⟨verified, soon⟩
        omega
    · omega
  · intro past
    have rejected : ¬ ∃ claims, m.validateToken jwt (issued.add elapsed) token = .ok claims := by
      rw [accepted]
      rintro ⟨verified, soon⟩
      rw [if_pos verified] at past
      simp only [Time.add] at soon
      omega
    refine ⟨fun c request config carried manager checked => ?_, fun c request carried => ?_, ?_⟩
    · rintro ⟨c', reached⟩
      exact rejected (valid_of_admits checked manager carried (authMiddleware_next_iff.mp reached))
    · rw [Bool.eq_false_iff, ne_eq, jwtAuthMiddleware_next_iff carried]
      exact rejected
    · intro current
      simp only [Time.add] at current
      split at past <;> omega

theorem refresh_token_opens_middlewares : ∃ user : User,
    ∀ (jwt : Jwt Unit Unit) (bcrypt : Bcrypt) (unicode : String → String) (issued : Time)
      (jti : String), ∃ token,
      (newJWTManager Unit Unit).generateRefreshToken jwt issued jti user = .ok token ∧
        (∃ c' config', authMiddleware {} jwt bcrypt unicode issued (requestWith ("Bearer " ++ token))
          (⟨some (newJWTManager Unit Unit), none, []⟩ : AuthConfig Unit Unit MemoryStorage) =
            .ok (.next c', config')) ∧
        (jwtAuthMiddleware {} jwt issued (requestWith ("Bearer " ++ token))
          (newJWTManager Unit Unit)).reachesNext = true ∧
        ∀ jti, (newJWTManager Unit Unit).refreshToken jwt issued jti token =
          .error (.error (.str "only access tokens can be refreshed")) := by
  refine ⟨⟨"u1", "user", "", ["admin"], ["read"]⟩, fun jwt bcrypt unicode issued jti => ?_⟩
  obtain ⟨token, signed⟩ := jwt.signs_hmac _ _
  have generated : (newJWTManager Unit Unit).generateRefreshToken jwt issued jti
      ⟨"u1", "user", "", ["admin"], ["read"]⟩ = .ok token := mapError_eq_ok.mpr signed
  have carried : extractBearerToken ((requestWith ("Bearer " ++ token)).header "Authorization") =
      .ok token := extractBearerToken_bearer token
  have soon : issued.instant <
      refreshDeadline (newJWTManager Unit Unit) issued + JWTManager.leeway := by
    have := lt_numericDate_add (issued.add (newJWTManager Unit Unit).refreshExpiry)
    have : second ≤ (newJWTManager Unit Unit).refreshExpiry + JWTManager.leeway := by decide
    simp only [refreshDeadline, Time.add] at *
    omega
  obtain ⟨claims, valid⟩ := (validateToken_refresh_iff generated le_rfl).mpr
    ⟨jwt.verify_signed _ _ token signed, soon⟩
  refine ⟨token, generated, ⟨setClaimsContext {} claims, authMiddleware_next_iff.mpr ?_⟩,
    (jwtAuthMiddleware_next_iff carried).mpr ⟨claims, valid⟩, refreshToken_of_valid generated valid⟩
  refine .bearer (by simp) (hasPrefix_iff.mpr ?_) rfl carried valid
  exact ⟨token.toList, (String.toList_append ..).symm⟩

end NexusPipe.Proof.Api.Middleware
