import Mathlib.Data.Countable.Basic
import Mathlib.Logic.Equiv.List
import NexusPipe.Auth.JWT
import NexusPipe.Library.Except

namespace NexusPipe.Proof.Auth.JWT
open Library Strings NexusPipe.Auth JWTManager

variable {PrivateKey PublicKey : Type} {m : JWTManager PrivateKey PublicKey} {now issued : Time}
  {token : String} {claims : Claims}

theorem mem_validMethods_iff : alg ∈ m.validMethods ↔ alg = m.signingKey.alg := by
  unfold validMethods signingKey
  cases m.signingMethod <;> simp [SigningKey.alg]

theorem keyFunc_alg : m.keyFunc m.signingKey.alg = .ok m.verificationKey := by
  refine if_pos ?_
  unfold methodFamily signingKey
  cases m.signingMethod <;> simp [SigningKey.alg]

theorem validateToken_eq_ok_iff : m.validateToken jwt now token = .ok claims ↔
    jwt.parseUnverified token = .ok ⟨m.signingKey.alg, claims⟩ ∧
      jwt.verify m.verificationKey token = true ∧ claims.expired now leeway = false ∧
          claims.notValidYet now leeway = false := by
  have unwrap : m.validateToken jwt now token = .ok claims ↔
      jwt.parseWithClaims now token m.keyFunc leeway m.validMethods = .ok claims := by
    unfold validateToken
    cases jwt.parseWithClaims now token m.keyFunc leeway m.validMethods with
    | ok claims' => simp
    | error errs =>
      simp only [reduceCtorEq, iff_false]
      split_ifs <;> simp
  rw [unwrap, Jwt.parseWithClaims]
  cases jwt.parseUnverified token with
  | error err => simp
  | ok parsed =>
    obtain ⟨alg, claims'⟩ := parsed
    by_cases method : alg = m.signingKey.alg
    · subst method
      simp only [mem_validMethods_iff, not_true, if_false, keyFunc_alg, Except.ok.injEq,
        Token.mk.injEq, true_and]
      cases jwt.verify m.verificationKey token with
      | false => simp
      | true =>
        simp only [Bool.not_true, Bool.false_eq_true, if_false, true_and]
        cases late : claims'.expired now leeway <;>
          cases early : claims'.notValidYet now leeway
        · constructor
          · rintro ⟨⟩
            exact ⟨rfl, late, early⟩
          · rintro ⟨rfl, -⟩
            rfl
        all_goals
          refine iff_of_false (by simp) ?_
          rintro ⟨rfl, late', early'⟩
          simp_all
    · simp [mem_validMethods_iff, method]

theorem issued_claimsFor (m : JWTManager PrivateKey PublicKey) (issued : Time) (jti : String)
    (user : User) (expiry : Int) (known : tokenType = "access" ∨ tokenType = "refresh") :
    (m.claimsFor issued jti user expiry tokenType).Issued where
  tokenType := known
  issuedAt := by
    rintro t ⟨⟩
    exact Int.dvd_mul_left _ _
  notBefore := by
    rintro t ⟨⟩
    exact Int.dvd_mul_left _ _
  expiresAt := by
    rintro t ⟨⟩
    exact Int.dvd_mul_left _ _

theorem numericDate_le (t : Time) : numericDate t ≤ t.instant :=
  Int.ediv_mul_le t.instant (by decide)

theorem lt_numericDate_add (t : Time) : t.instant < numericDate t + second := by
  have := Int.lt_ediv_add_one_mul_self t.instant (show 0 < second by decide)
  rwa [Int.add_mul, Int.one_mul] at this

def refreshDeadline (m : JWTManager PrivateKey PublicKey) (issued : Time) : Int :=
  numericDate (issued.add m.refreshExpiry)

theorem validateToken_refresh_iff
    (generated : m.generateRefreshToken jwt issued jti user = .ok token)
    (later : issued.instant ≤ now.instant) :
    (∃ claims, m.validateToken jwt now token = .ok claims) ↔
      jwt.verify m.verificationKey token = true ∧
        now.instant < refreshDeadline m issued + leeway := by
  have signed := mapError_eq_ok.mp generated
  have parsed := jwt.parse_signed _ _ token signed
  obtain ⟨-, -, notBefore, expiresAt⟩ :=
    jwt.reread_issued _ (issued_claimsFor m issued jti user m.refreshExpiry (.inr rfl))
  have early : (jwt.reread (m.claimsFor issued jti user m.refreshExpiry "refresh")).notValidYet now
      leeway = false := by
    have := numericDate_le issued
    have : 0 ≤ leeway := by decide
    rw [Claims.notValidYet, notBefore]
    simp only [claimsFor, decide_eq_false_iff_not]
    omega
  have late : (jwt.reread (m.claimsFor issued jti user m.refreshExpiry "refresh")).expired now
      leeway = !decide (now.instant < refreshDeadline m issued + leeway) := by
    rw [Claims.expired, expiresAt]
    rfl
  simp only [validateToken_eq_ok_iff, parsed, Except.ok.injEq, Token.mk.injEq, true_and,
    exists_eq_left', early, late]
  simp

theorem tokenType_of_refresh (generated : m.generateRefreshToken jwt issued jti user = .ok token)
    (valid : m.validateToken jwt now token = .ok claims) : claims.TokenType = "refresh" := by
  have parsed := jwt.parse_signed _ _ token (mapError_eq_ok.mp generated)
  obtain ⟨kind, -⟩ :=
    jwt.reread_issued _ (issued_claimsFor m issued jti user m.refreshExpiry (.inr rfl))
  obtain ⟨parsed', -⟩ := validateToken_eq_ok_iff.mp valid
  rw [parsed, Except.ok.injEq, Token.mk.injEq] at parsed'
  rw [← parsed'.2, kind]
  rfl

theorem refreshToken_of_valid (generated : m.generateRefreshToken jwt issued jti user = .ok token)
    (valid : m.validateToken jwt now token = .ok claims) (jti' : String) :
    m.refreshToken jwt now jti' token =
      .error (.error (.str "only access tokens can be refreshed")) := by
  have kind : claims.TokenType ≠ "access" := by
    rw [tokenType_of_refresh generated valid]
    decide
  simp only [refreshToken, valid, if_pos kind]

theorem refreshToken_of_refresh (generated : m.generateRefreshToken jwt issued jti user = .ok token)
    (now : Time) (jti' : String) : ∃ fault, m.refreshToken jwt now jti' token = .error fault := by
  cases valid : m.validateToken jwt now token with
  | error err =>
    refine ⟨.error err, ?_⟩
    simp only [refreshToken, valid]
  | ok claims => exact ⟨_, refreshToken_of_valid generated valid jti'⟩

/-- What one refresh asks of the times; the first token of a session does not enter into it. -/
def Timely (m : JWTManager PrivateKey PublicKey) (issued now : Time) : Prop :=
  numericDate issued - leeway ≤ now.instant ∧
    now.instant < numericDate (issued.add m.accessExpiry) + leeway ∧
    now.sub ⟨numericDate issued, .localZone⟩ ≤ m.refreshExpiry

section
variable {jwt : Jwt PrivateKey PublicKey} (hmac : m.signingMethod = .HS256 secret)
include hmac

theorem exists_generateToken (now : Time) (jti : String) (user : User) :
    ∃ token, m.generateToken jwt now jti user = .ok token ∧
      jwt.verify m.verificationKey token = true := by
  rw [generateToken, signingKey, verificationKey, hmac]
  obtain ⟨token, signed⟩ := jwt.signs_hmac secret (m.claimsFor now jti user m.accessExpiry "access")
  exact ⟨token, mapError_eq_ok.mpr signed, jwt.verify_signed _ _ token signed⟩

theorem refreshToken_of_timely (generated : m.generateToken jwt issued jti user = .ok token)
    (timely : Timely m issued now) (jti' : String) : ∃ user' token',
      m.refreshToken jwt now jti' token = .ok token' ∧
        m.generateToken jwt now jti' user' = .ok token' := by
  obtain ⟨token₀, generated₀, verified⟩ := exists_generateToken hmac issued jti user
  obtain rfl := ok_unique generated generated₀
  have parsed := jwt.parse_signed _ _ token (mapError_eq_ok.mp generated)
  obtain ⟨kind, issuedAt, notBefore, expiresAt⟩ :=
    jwt.reread_issued _ (issued_claimsFor m issued jti user m.accessExpiry (.inl rfl))
  generalize jwt.reread (m.claimsFor issued jti user m.accessExpiry "access") = claims at *
  have valid : m.validateToken jwt now token = .ok claims := by
    rw [validateToken_eq_ok_iff, Claims.expired, Claims.notValidYet, expiresAt, notBefore]
    simp [parsed, verified, claimsFor, timely.1, timely.2.1]
  obtain ⟨token', generated', -⟩ := exists_generateToken hmac now jti'
    ⟨claims.UserID, claims.Username, claims.Email, claims.Roles, claims.Permissions⟩
  refine ⟨_, token', ?_, generated'⟩
  simp [refreshToken, valid, kind, issuedAt, claimsFor, timely.2.2.not_gt, generated', Except.mapError]

theorem timely_session_goes_on (generated : m.generateToken jwt issued jti user = .ok token)
    {calls : List (Time × String)} (timely : (issued :: calls.map Prod.fst).IsChain (Timely m)) :
    ∃ last, calls.foldlM (fun token call => m.refreshToken jwt call.1 call.2 token) token = .ok last := by
  induction calls generalizing issued jti user token with
  | nil => exact ⟨token, rfl⟩
  | cons call calls ih =>
    obtain ⟨first, rest⟩ := List.isChain_cons_cons.mp timely
    obtain ⟨user', token', refreshed, generated'⟩ := refreshToken_of_timely hmac generated first call.2
    obtain ⟨last, ended⟩ := ih generated' rest
    rw [List.foldlM_cons]
    exact ⟨last, bind_eq_ok.mpr ⟨token', refreshed, ended⟩⟩

end

theorem session_of_twenty_minutes :
    let m := { newJWTManager Unit Unit with refreshExpiry := 10 * minute }
    let calls := [(Time.zero.add (10 * minute), "a"), (Time.zero.add (20 * minute), "b")]
    (Time.zero :: calls.map Prod.fst).IsChain (Timely m) ∧ ∀ jwt user, ∃ token last,
      m.generateToken jwt .zero "" user = .ok token ∧
        calls.foldlM (fun token call => m.refreshToken jwt call.1 call.2 token) token = .ok last := by
  intro m calls
  have timely : (Time.zero :: calls.map Prod.fst).IsChain (Timely m) :=
    .cons_cons (by unfold Timely; decide) (.cons_cons (by unfold Timely; decide) (.singleton _))
  refine ⟨timely, fun jwt user => ?_⟩
  have hmac : m.signingMethod = .HS256 _ := rfl
  obtain ⟨token, generated, -⟩ := exists_generateToken hmac .zero "" user
  obtain ⟨last, ended⟩ := timely_session_goes_on hmac generated timely
  exact ⟨token, last, generated, ended⟩

theorem countable_claims : Countable Claims := by
  have : Countable Char :=
    Function.Injective.countable (f := Char.toNat) fun _ _ => Char.toNat_inj.mp
  have : Countable String :=
    Function.Injective.countable (f := String.toList) fun _ _ => String.toList_inj.mp
  let parts (claims : Claims) :=
    ([claims.ID, claims.Subject, claims.Issuer, claims.UserID, claims.Username, claims.Email,
      claims.TokenType], [claims.IssuedAt, claims.NotBefore, claims.ExpiresAt], claims.Roles,
      claims.Permissions)
  have injective : Function.Injective parts := by
    rintro ⟨⟩ ⟨⟩ same
    simp only [parts, Prod.mk.injEq, List.cons.injEq] at same
    simp_all
  exact injective.countable

instance : Nonempty (Jwt PrivateKey PublicKey) := by
  classical
  have := countable_claims
  obtain ⟨number, distinct⟩ := exists_injective_nat Claims
  let write (claims : Claims) := String.ofList (List.replicate (number claims) 'a')
  have read_write (claims claims' : Claims) (same : write claims = write claims') :
      claims = claims' := by
    have lengths := congrArg String.length same
    simp only [write, String.length_ofList, List.length_replicate] at lengths
    exact distinct lengths
  refine ⟨{
    signedString := fun key claims =>
      match key with
      | .hmac _ => .ok (write claims)
      | .rsa _ => .error (.str "")
    parseUnverified := fun token =>
      if found : ∃ claims, write claims = token then .ok ⟨"HS256", found.choose⟩ else .error .malformed
    verify := fun _ _ => true
    reread := id
    signs_hmac := fun _ claims => ⟨write claims, rfl⟩
    parse_signed := ?_
    verify_signed := fun _ _ _ _ => rfl
    reread_issued := fun _ _ => ⟨rfl, rfl, rfl, rfl⟩ }⟩
  intro key claims token signed
  cases key with
  | rsa _ => cases signed
  | hmac secret =>
    obtain rfl := Except.ok.inj signed
    have found : ∃ claims', write claims' = write claims := ⟨claims, rfl⟩
    simp only [dif_pos found, SigningKey.alg, read_write _ _ found.choose_spec, id]

end NexusPipe.Proof.Auth.JWT
