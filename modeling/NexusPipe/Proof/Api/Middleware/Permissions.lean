import Mathlib.Data.Set.Finite.Basic
import NexusPipe.Proof.Api.Middleware.Auth
import NexusPipe.Proof.Auth.RBAC

namespace NexusPipe.Proof.Api.Middleware
open Library Strings NexusPipe.Auth NexusPipe.Api.Middleware List
open Proof.Auth.APIKey Proof.Auth.RBAC

variable {PrivateKey PublicKey σ : Type} {jwt : Jwt PrivateKey PublicKey} {bcrypt : Bcrypt}
  {unicode : String → String} {now : Time} {request : Request} {c c' : Context}
  {config : AuthConfig PrivateKey PublicKey σ} {m : APIKeyManager σ} {e : RBACEnforcer}
  {resource action : String} {ps : List String}

theorem requirePermission_next_iff (loaded : Loaded e) : (∃ bound, ∀ depth, bound ≤ depth →
        requirePermission c e depth resource action = some (.next c)) ↔
      ∃ roles, c.roles = some (.strings roles) ∧
        ∃ role ∈ roles, Decides e role resource action true := by
  have checks (roles : List String) {depth : Nat} (deep : 5 ≤ depth) :
      ∃ b, (roles.anyM fun role => e.checkPermission depth role resource action) = some b ∧
        (b = true ↔ ∃ role ∈ roles, Decides e role resource action true) := by
    refine exists_anyM_eq_some fun role _ => ?_
    simp only [decides_true_iff loaded]
    exact checkPermission_spec loaded role resource action deep
  constructor
  · rintro ⟨bound, returns⟩
    have reached := returns _ (le_max_left bound 5)
    unfold requirePermission at reached
    split at reached
    · cases reached
    · cases reached
    · next roles stored =>
        obtain ⟨b, answered, meaning⟩ := checks roles (le_max_right bound 5)
        rw [answered, Option.map_some] at reached
        cases b with
        | false => cases reached
        | true => exact ⟨roles, stored, meaning.mp rfl⟩
  · rintro ⟨roles, stored, granted⟩
    refine ⟨5, fun depth deep => ?_⟩
    obtain ⟨b, answered, meaning⟩ := checks roles deep
    simp only [requirePermission, stored, answered, Option.map_some, meaning.mpr granted, if_true]

def withPermissions (ps : List String) (m : APIKeyManager σ) : APIKeyManager σ :=
  { m with
    storage := { m.storage with
      findByPrefix := fun state head =>
        (m.storage.findByPrefix state head).map fun key => { key with Permissions := ps } } }

def roleFrom (unicode : String → String) : List String → String
  | [] => roleViewer
  | first :: _ => toLower unicode first

theorem roleOf_eq (unicode : String → String) (key : APIKey) :
    roleOf unicode key = roleFrom unicode key.Permissions := by
  unfold roleOf
  cases key.Permissions <;> rfl

theorem touch_permissions (m : APIKeyManager σ) (now : Time) (key : APIKey) :
    (m.touch now key).1.Permissions = key.Permissions := by
  unfold APIKeyManager.touch
  simp only
  split <;> rfl

theorem validateKey_withPermissions (ps : List String) (h : String) :
    (∃ key m', (withPermissions ps m).validateKey bcrypt now h = .ok (key, m')) ↔
      ∃ accepted, m.validateKey bcrypt now h = .ok accepted := by
  constructor
  · rintro ⟨key, m', valid⟩
    obtain ⟨scheme, long, found, lookup, live, current, verified, -⟩ := validateKey_eq_ok_iff.mp valid
    obtain ⟨stored, lookup', rfl⟩ := map_eq_ok.mp lookup
    exact ⟨m.touch now stored,
      validateKey_eq_ok_iff.mpr ⟨scheme, long, stored, lookup', live, current, verified, rfl⟩⟩
  · rintro ⟨accepted, valid⟩
    obtain ⟨scheme, long, found, lookup, live, current, verified, -⟩ := validateKey_eq_ok_iff.mp valid
    have lookup' : (withPermissions ps m).storage.findByPrefix (withPermissions ps m).state (headOf h) =
        .ok { found with Permissions := ps } := map_eq_ok.mpr ⟨found, lookup, rfl⟩
    exact ⟨_, _, validateKey_eq_ok_iff.mpr ⟨scheme, long, _, lookup', live, current, verified, rfl⟩⟩

theorem permissions_of_valid
    (valid : (withPermissions ps m).validateKey bcrypt now h = .ok (key, m')) :
    key.Permissions = ps := by
  obtain ⟨-, -, found, lookup, -, -, -, touched⟩ := validateKey_eq_ok_iff.mp valid
  obtain ⟨stored, -, rfl⟩ := map_eq_ok.mp lookup
  have := touch_permissions (withPermissions ps m) now { stored with Permissions := ps }
  rwa [← touched] at this

def Accepts (jwt : Jwt PrivateKey PublicKey) (bcrypt : Bcrypt) (unicode : String → String) (now : Time)
    (request : Request) (c : Context) (config : AuthConfig PrivateKey PublicKey σ) (m : APIKeyManager σ)
    (e : RBACEnforcer) (resource action : String) (ps : List String) : Prop :=
  ∃ c', (∃ config', authMiddleware c jwt bcrypt unicode now request
      { config with APIKeyManager := some (withPermissions ps m) } = .ok (.next c', config')) ∧
    ∃ bound, ∀ depth, bound ≤ depth → requirePermission c' e depth resource action = some (.next c')

def Presented (bcrypt : Bcrypt) (now : Time) (request : Request)
    (config : AuthConfig PrivateKey PublicKey σ) (m : APIKeyManager σ) : Prop :=
  request.Path ∉ config.SkipPaths ∧
    ∃ accepted, m.validateKey bcrypt now (request.header "Authorization") = .ok accepted

theorem accepts_iff_of_presented (loaded : Loaded e)
    (presented : Presented bcrypt now request config m) (ps : List String) :
    Accepts jwt bcrypt unicode now request c config m e resource action ps ↔
      Decides e (roleFrom unicode ps) resource action true := by
  obtain ⟨checked, accepted, valid⟩ := presented
  obtain ⟨notBearer, notBasic⟩ := not_scheme_of_key (validateKey_eq_ok_iff.mp valid).1
  unfold Accepts
  simp only [authMiddleware_next_iff, requirePermission_next_iff loaded]
  constructor
  · rintro ⟨c', admits, roles, stored, role, member, decides⟩
    cases admits with
    | skipped skip => exact absurd skip checked
    | bearer _ scheme => exact Bool.noConfusion (notBearer.symm.trans scheme)
    | basic _ scheme => exact Bool.noConfusion (notBasic.symm.trans scheme)
    | @key m' m'' key _ manager valid' =>
      cases manager
      cases stored
      rw [mem_singleton.mp member, roleOf_eq, permissions_of_valid valid'] at decides
      exact decides
  · intro decides
    obtain ⟨key, m', valid'⟩ := (validateKey_withPermissions ps _).mpr ⟨accepted, valid⟩
    refine ⟨setKeyContext c unicode key, .key checked rfl valid', [roleOf unicode key], rfl, _,
      mem_singleton_self _, ?_⟩
    rw [roleOf_eq, permissions_of_valid valid']
    exact decides

theorem accepts_of_not_presented (absent : ¬ Presented bcrypt now request config m)
    (ps ps' : List String) :
    Accepts jwt bcrypt unicode now request c config m e resource action ps →
      Accepts jwt bcrypt unicode now request c config m e resource action ps' := by
  rintro ⟨c', reached, permitted⟩
  refine ⟨c', authMiddleware_next_iff.mpr ?_, permitted⟩
  cases authMiddleware_next_iff.mp reached with
  | skipped skip => exact .skipped skip
  | bearer checked scheme manager carried valid => exact .bearer checked scheme manager carried valid
  | basic checked scheme pair => exact .basic checked scheme pair
  | key checked manager valid =>
    cases manager
    exact absurd ⟨checked, (validateKey_withPermissions ps _).mp ⟨_, _, valid⟩⟩ absent

/-- Reordering the list does not change the decision, and adding to it does not take it back. -/
def OrderFree (accepts : List String → Prop) (ps : List String) : Prop :=
  (∀ ps', ps'.Perm ps → (accepts ps' ↔ accepts ps)) ∧
    ∀ before p after, ps = before ++ after → accepts ps → accepts (before ++ p :: after)

def rolesFrom (unicode : String → String) (ps : List String) : List String :=
  if ps = [] then [roleViewer] else ps.map (toLower unicode)

theorem exists_unknown_role (e : RBACEnforcer) (unicode : String → String) :
    ∃ p, e.definition (toLower unicode p) = none := by
  let name (n : Nat) := String.ofList (replicate n 'a')
  have distinct : Function.Injective name := by
    intro n n' same
    have lengths := congrArg String.length same
    simpa only [name, String.length_ofList, length_replicate] using lengths
  obtain ⟨_, ⟨n, rfl⟩, unused⟩ :=
    (Set.infinite_range_of_injective distinct).exists_notMem_finset (e.roles.keys ∪ e.customRoles.keys)
  have lower : toLower unicode (name n) = name n := by
    have ascii : (name n).toList.all (·.toNat < 128) = true := by
      refine all_eq_true.mpr fun ch member => ?_
      rw [String.toList_ofList] at member
      rw [eq_of_mem_replicate member]
      decide
    rw [toLower, if_pos ascii, lowerASCII, String.toList_ofList, map_replicate]
    rfl
  rw [Finset.mem_union, not_or, Finmap.mem_keys, Finmap.mem_keys] at unused
  refine ⟨name n, ?_⟩
  rw [lower, RBACEnforcer.definition, Finmap.lookup_eq_none.mpr unused.1,
    Finmap.lookup_eq_none.mpr unused.2, Option.none_or]

theorem roleFrom_mem_rolesFrom {ps' : List String} (perm : ps'.Perm ps) :
    roleFrom unicode ps' ∈ rolesFrom unicode ps := by
  unfold rolesFrom
  cases ps' with
  | nil => simp [List.Perm.nil_eq perm, roleFrom]
  | cons first rest =>
    have member : first ∈ ps := perm.mem_iff.mp mem_cons_self
    rw [if_neg (ne_nil_of_mem member)]
    exact mem_map_of_mem member

theorem exists_perm_roleFrom (member : role ∈ rolesFrom unicode ps) :
    ∃ ps', ps'.Perm ps ∧ roleFrom unicode ps' = role := by
  unfold rolesFrom at member
  split at member
  · next empty =>
      exact ⟨ps, .refl ps, by rw [empty, mem_singleton.mp member]; rfl⟩
  · obtain ⟨p, listed, rfl⟩ := mem_map.mp member
    exact ⟨p :: ps.erase p, (perm_cons_erase listed).symm, rfl⟩

theorem decision_order_free_iff (jwt : Jwt PrivateKey PublicKey) (bcrypt : Bcrypt)
    (unicode : String → String) (now : Time) (request : Request) (c : Context)
    (config : AuthConfig PrivateKey PublicKey σ) (m : APIKeyManager σ) (calls : List AddCustomRole)
    (resource action : String) (ps : List String) : OrderFree
        (Accepts jwt bcrypt unicode now request c config m (enforcerAfter calls) resource action) ps ↔
      (Presented bcrypt now request config m → ∀ role ∈ rolesFrom unicode ps,
        ¬ Decides (enforcerAfter calls) role resource action true) := by
  have loaded := loaded_after calls
  by_cases presented : Presented bcrypt now request config m
  · have meaning (ps : List String) :
        Accepts jwt bcrypt unicode now request c config m (enforcerAfter calls) resource action ps ↔
          Decides (enforcerAfter calls) (roleFrom unicode ps) resource action true :=
      accepts_iff_of_presented loaded presented ps
    simp only [OrderFree, meaning, presented, true_imp_iff]
    constructor
    · rintro ⟨orders, grows⟩ role member decides
      obtain ⟨ps', perm, rfl⟩ := exists_perm_roleFrom member
      -- a name that is no role, put in front, takes the decision back
      obtain ⟨p, unknown⟩ := exists_unknown_role (enforcerAfter calls) unicode
      have added := grows [] p ps rfl ((orders ps' perm).mp decides)
      obtain ⟨roleDef, found, -⟩ := (decides_true_iff loaded).mp added
      cases unknown.symm.trans found
    · intro refused
      have never (ps' : List String) (perm : ps'.Perm ps) :
          ¬ Decides (enforcerAfter calls) (roleFrom unicode ps') resource action true :=
        refused _ (roleFrom_mem_rolesFrom perm)
      refine ⟨fun ps' perm => iff_of_false (never ps' perm) (never ps (.refl ps)), ?_⟩
      intro before p after _ decides
      exact absurd decides (never ps (.refl ps))
  · have same := @accepts_of_not_presented _ _ _ jwt bcrypt unicode now request c config m
      (enforcerAfter calls) resource action presented
    refine iff_of_true ⟨fun ps' _ => ⟨same ps' ps, same ps ps'⟩, ?_⟩ ?_
    · exact fun before p after _ => same ps (before ++ p :: after)
    · exact fun present => absurd present presented

def oneKeyManager : APIKeyManager Unit :=
  newAPIKeyManager
    { save := fun _ _ => .ok ()
      findByPrefix := fun _ _ => .ok
        { ID := "k1", KeyPrefix := "nxp_12345678", KeyHash := "secret", Name := "ci", UserID := "u1",
          Permissions := [], Revoked := false, ExpiresAt := .zero, CreatedAt := .zero,
          LastUsedAt := .zero }
      revoke := fun _ _ => .ok ()
      delete := fun _ _ => .ok () } () []

theorem added_permission_rejects : ∃ config : AuthConfig Unit Unit Unit,
    ∀ (jwt : Jwt Unit Unit) (unicode : String → String) (now : Time) (c : Context),
      let accepts := Accepts jwt default unicode now (requestWith "nxp_12345678secret") c config
        oneKeyManager (enforcerAfter []) "secret" "delete"
      accepts ["admin"] ∧ accepts ["admin", "guest"] ∧ ¬ accepts ["guest", "admin"] := by
  refine ⟨⟨none, none, []⟩, fun jwt unicode now c => ?_⟩
  have presented : Presented default now (requestWith "nxp_12345678secret")
      (⟨none, none, []⟩ : AuthConfig Unit Unit Unit) oneKeyManager :=
    ⟨by simp, _, validateKey_eq_ok_iff.mpr
      ⟨by decide, by decide, _, rfl, rfl, rfl, .inr (by decide), rfl⟩⟩
  have loaded := loaded_after []
  have lower (p : String) (ascii : p.toList.all (·.toNat < 128) = true) :
      toLower unicode p = lowerASCII p := if_pos ascii
  simp only [accepts_iff_of_presented loaded presented, roleFrom]
  rw [lower "admin" (by decide), lower "guest" (by decide)]
  refine ⟨decides_of_eq loaded (by decide), decides_of_eq loaded (by decide), ?_⟩
  intro decides
  obtain ⟨roleDef, found, -⟩ := (decides_true_iff loaded).mp decides
  cases found

end NexusPipe.Proof.Api.Middleware
