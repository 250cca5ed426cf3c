import NexusPipe.Library.Except
import NexusPipe.Auth.APIKey

namespace NexusPipe.Proof.Auth.APIKey
open Library Strings NexusPipe.Auth APIKeyManager List

variable {σ : Type} {bcrypt : Bcrypt} {m : APIKeyManager σ} {now : Time} {s : String}

def headOf (s : String) : String := String.ofList (s.toList.take 12)

def secretOf (s : String) : String := String.ofList (s.toList.drop 12)

theorem length_headOf (fits : 12 ≤ s.length) : (headOf s).length = 12 := by
  rw [headOf, String.length_ofList, length_take, String.length_toList]
  omega

theorem validateKey_of_short (found : hasPrefix s apiKeyPrefix) (short : s.length < 12) :
    m.validateKey bcrypt now s = .error (.panic "slice bounds out of range") := by
  have bounds : sliceTo s (apiKeyPrefix.length + 8) = .error (.panic "slice bounds out of range") :=
    if_neg (by rw [not_le]; exact short)
  rw [validateKey, found, bounds]
  rfl

theorem validateKey_eq (found : hasPrefix s apiKeyPrefix) (fits : 12 ≤ s.length) :
    m.validateKey bcrypt now s =
      match m.storage.findByPrefix m.state (headOf s) with
      | .error _ => .error (.error errInvalidAPIKey)
      | .ok key =>
        if key.Revoked then .error (.error errAPIKeyRevoked)
        else if key.expired now then .error (.error errAPIKeyExpired)
        else if (verifyKey bcrypt s key.KeyHash).isSome &&
            (verifyKey bcrypt (secretOf s) key.KeyHash).isSome then
          .error (.error errInvalidAPIKey)
        else .ok (m.touch now key) := by
  have head : sliceTo s (apiKeyPrefix.length + 8) = .ok (headOf s) := sliceTo_eq fits
  have secret : sliceFrom s (headOf s).length = .ok (secretOf s) := by
    rw [length_headOf fits]
    exact sliceFrom_eq fits
  rw [validateKey, found, head]
  simp only [Bool.not_true, Bool.false_eq_true, if_false, bind, Except.bind]
  cases m.storage.findByPrefix m.state (headOf s) with
  | error err => rfl
  | ok key => simp only [Except.mapError, secret]

theorem not_panics_iff : (∀ reason, m.validateKey bcrypt now s ≠ .error (.panic reason)) ↔
    ¬ (hasPrefix s apiKeyPrefix ∧ s.length < 12) := by
  constructor
  · rintro returns ⟨found, short⟩
    exact returns _ (validateKey_of_short found short)
  · intro safe reason
    by_cases found : hasPrefix s apiKeyPrefix
    · have fits : 12 ≤ s.length := not_lt.mp fun short => safe ⟨found, short⟩
      rw [validateKey_eq found fits]
      repeat' split
      all_goals simp
    · simp [validateKey, found]

theorem validateKey_eq_ok_iff :
    m.validateKey bcrypt now s = .ok accepted ↔ hasPrefix s apiKeyPrefix ∧ 12 ≤ s.length ∧
      ∃ key, m.storage.findByPrefix m.state (headOf s) = .ok key ∧ key.Revoked = false ∧
        key.expired now = false ∧ (verifyKey bcrypt s key.KeyHash = none ∨
          verifyKey bcrypt (secretOf s) key.KeyHash = none) ∧ accepted = m.touch now key := by
  by_cases found : hasPrefix s apiKeyPrefix
  · by_cases fits : 12 ≤ s.length
    · rw [validateKey_eq found fits]
      cases m.storage.findByPrefix m.state (headOf s) with
      | error err => simp
      | ok key =>
        simp only [found, fits, Except.ok.injEq, exists_eq_left', true_and]
        cases key.Revoked <;> cases key.expired now <;>
          cases verifyKey bcrypt s key.KeyHash <;>
          cases verifyKey bcrypt (secretOf s) key.KeyHash <;> simp [eq_comm]
    · simp [validateKey_of_short found (not_le.mp fits), fits]
  · simp [validateKey, found]

theorem full_key_rejected
    (generated : m.generateKeyFrom bcrypt rawKey keyID salt userID name permissions expiresAt created =
      .ok (fullKey, key, m')) (found : m'.storage.findByPrefix m'.state key.KeyPrefix = .ok key) :
    ¬ ∃ accepted, m'.validateKey bcrypt now fullKey = .ok accepted := by
  obtain ⟨start, sliced, generated⟩ := bind_eq_ok.mp generated
  obtain ⟨hash, hashed, generated⟩ := bind_eq_ok.mp generated
  obtain ⟨state, -, generated⟩ := bind_eq_ok.mp generated
  obtain ⟨rest, sliced', generated⟩ := bind_eq_ok.mp generated
  have long : 8 ≤ rawKey.length := by
    by_contra short
    rw [sliceTo, if_neg short] at sliced
    cases sliced
  rw [sliceTo_eq long, Except.ok.injEq] at sliced
  rw [sliceFrom_eq long, Except.ok.injEq] at sliced'
  rw [mapError_eq_ok] at hashed
  cases generated
  have whole : (apiKeyPrefix ++ start ++ rest).toList = apiKeyPrefix.toList ++ rawKey.toList := by
    rw [← sliced, ← sliced']
    simp
  have longer : (apiKeyPrefix ++ start ++ rest).length = 4 + rawKey.length := by
    rw [← String.length_toList, whole, length_append, String.length_toList, String.length_toList]
    rfl
  have head : headOf (apiKeyPrefix ++ start ++ rest) = apiKeyPrefix ++ start := by
    rw [headOf, whole, ← sliced]
    apply String.toList_inj.mp
    simp [apiKeyPrefix]
  -- either comparison succeeds for the raw key only, and both strings differ from it in length
  have accepts := bcrypt.compare_iff salt rawKey bcryptCost hash hashed
  rintro ⟨_, accepted⟩
  rw [validateKey_eq_ok_iff, head] at accepted
  obtain ⟨-, -, key, found', -, -, whole' | secret, -⟩ := accepted
  · obtain rfl := ok_unique found found'
    have same := congrArg String.length ((accepts _).mp whole')
    omega
  · obtain rfl := ok_unique found found'
    have same := congrArg String.length ((accepts _).mp secret)
    rw [secretOf, String.length_ofList, length_drop, String.length_toList] at same
    omega

theorem length_generateRandomKey (length : Nat) (random : Nat → UInt8) :
    (generateRandomKey length random).length = 2 * length := by
  rw [generateRandomKey, length_hexEncode, length_map, length_range]

def hashFailure : Fault :=
  .error (sprintf "failed to hash API key: %w" [.str "bcrypt: password length exceeds 72 bytes"])

theorem generateKey_fails (random keyID : Nat → UInt8) (salt : List UInt8) (userID name : String)
    (permissions : List String) (expiresAt created : Time) :
    m.generateKey bcrypt random keyID salt userID name permissions expiresAt created =
      .error hashFailure := by
  have length := length_generateRandomKey apiKeyLength random
  have fails := bcrypt.tooLong salt (generateRandomKey apiKeyLength random) bcryptCost
    (by rw [length]; decide)
  rw [generateKey, generateKeyFrom, sliceTo_eq (by rw [length]; decide), hashKey, fails]
  rfl

theorem call_generateKey (random keyID : Nat → UInt8) (salt : List UInt8) (userID name : String)
    (permissions : List String) (expiresAt created : Time) :
    m.call bcrypt (.generateKey random keyID salt userID name permissions expiresAt created) =
      (.generated (.error hashFailure), m) := by
  rw [call, generateKey_fails]

theorem calls_cons (c : KeyCall) (calls : List KeyCall) : m.calls bcrypt (c :: calls) =
      ((c, (m.call bcrypt c).1) :: ((m.call bcrypt c).2.calls bcrypt calls).1,
        ((m.call bcrypt c).2.calls bcrypt calls).2) :=
  rfl

def Live (now : Time) (log : List (KeyCall × KeyResult)) (s : String) : Prop :=
  ∃ before c key after, log = before ++ (c, .generated (.ok (s, key))) :: after ∧
    (∀ later ∈ after, later.1 ≠ .revokeKey key.ID ∧ later.1 ≠ .deleteKey key.ID) ∧
      key.expired now = false

structure Correct (bcrypt : Bcrypt) (m : APIKeyManager σ) (calls : List KeyCall) (now : Time)
    (s : String) : Prop where
  generates : ∀ c fault, (c, KeyResult.generated (.error fault)) ∉ (m.calls bcrypt calls).1
  returns : ∀ reason, (m.calls bcrypt calls).2.validateKey bcrypt now s ≠ .error (.panic reason)
  accepts : (∃ accepted, (m.calls bcrypt calls).2.validateKey bcrypt now s = .ok accepted) ↔
    Live now (m.calls bcrypt calls).1 s

def drawn : KeyCall → Option String
  | .generateKey random .. => some (generateRandomKey apiKeyLength random)
  | _ => none

structure Empty (order : GoMap.RangeOrder String APIKey) (m : APIKeyManager MemoryStorage) : Prop where
  storage : m.storage = memoryStorage order
  state : m.state = ∅

variable {m : APIKeyManager MemoryStorage}

theorem empty_new (order : GoMap.RangeOrder String APIKey) (opts : List APIKeyManagerOption) :
    Empty order (newAPIKeyManager (memoryStorage order) ∅ opts) := by
  refine foldlRecOn opts _ ⟨rfl, rfl⟩ fun m empty opt _ => ?_
  exact ⟨empty.storage, empty.state⟩

theorem findByPrefix_empty (empty : Empty order m) (head : String) :
    ∃ err, m.storage.findByPrefix m.state head = .error err := by
  have none : (order m.state).entries.find? (·.2.KeyPrefix = head) = none := by
    refine find?_eq_none.mpr fun entry member => ?_
    have found : m.state.lookup entry.1 = some entry.2 := (order m.state).mem_entries.mp member
    rw [empty.state, Finmap.lookup_empty] at found
    cases found
  refine ⟨sprintf "API key not found with prefix: %s" [.str head], ?_⟩
  rw [empty.storage]
  simp only [memoryStorage, MemoryStorage.findByPrefix, none]

theorem empty_call (empty : Empty order m) (c : KeyCall) : Empty order (m.call bcrypt c).2 := by
  cases c with
  | generateKey random keyID salt userID name permissions expiresAt created =>
    rw [call_generateKey]
    exact empty
  | revokeKey id =>
    have fails : m.revokeKey id = .error (sprintf "API key not found: %s" [.str id]) := by
      simp [revokeKey, empty.storage, empty.state, memoryStorage, MemoryStorage.revoke, Except.map]
    simp only [call, fails]
    exact empty
  | deleteKey id =>
    have stays : m.deleteKey id = .ok { m with state := (∅ : MemoryStorage).erase id } := by
      simp [deleteKey, empty.storage, empty.state, memoryStorage, MemoryStorage.delete, Except.map]
    simp only [call, stays]
    refine ⟨empty.storage, Finmap.ext_lookup fun k => ?_⟩
    rw [GoMap.lookup_erase_eq]
    split <;> simp

def Fruitless (entry : KeyCall × KeyResult) : Prop :=
  (∃ raw, drawn entry.1 = some raw) ∧ entry.2 = .generated (.error hashFailure) ∨
    drawn entry.1 = none ∧ ∃ err, entry.2 = .done err

theorem fruitless_call (c : KeyCall) : Fruitless (c, (m.call bcrypt c).1) := by
  cases c with
  | generateKey random keyID salt userID name permissions expiresAt created =>
    exact .inl ⟨⟨_, rfl⟩, by rw [call_generateKey]⟩
  | revokeKey | deleteKey =>
    refine .inr ⟨rfl, ?_⟩
    simp only [call]
    split <;> exact ⟨_, rfl⟩

theorem calls_spec (bcrypt : Bcrypt) (empty : Empty order m) (calls : List KeyCall) :
    Empty order (m.calls bcrypt calls).2 ∧ (m.calls bcrypt calls).1.map Prod.fst = calls ∧
      ∀ entry ∈ (m.calls bcrypt calls).1, Fruitless entry := by
  induction calls generalizing m with
  | nil => exact ⟨empty, rfl, by simp [calls]⟩
  | cons c calls ih =>
    obtain ⟨last, made, rest⟩ := ih (empty_call empty c)
    rw [calls_cons]
    refine ⟨last, congrArg (c :: ·) made, fun entry member => ?_⟩
    rcases mem_cons.mp member with rfl | member
    · exact fruitless_call c
    · exact rest entry member

theorem not_accepted (empty : Empty order m) :
    ¬ ∃ accepted, m.validateKey bcrypt now s = .ok accepted := by
  rintro ⟨accepted, ok⟩
  obtain ⟨-, -, key, found, -⟩ := validateKey_eq_ok_iff.mp ok
  obtain ⟨err, missing⟩ := findByPrefix_empty empty (headOf s)
  cases missing.symm.trans found

theorem keys_correct_iff (bcrypt : Bcrypt) (order : GoMap.RangeOrder String APIKey)
    (opts : List APIKeyManagerOption) (calls : List KeyCall) (now : Time) (s : String) :
    Correct bcrypt (newAPIKeyManager (memoryStorage order) ∅ opts) calls now s ↔
      (∀ c ∈ calls, drawn c = none) ∧ ¬ (hasPrefix s apiKeyPrefix ∧ s.length < 12) := by
  obtain ⟨empty, made, fruitless⟩ := calls_spec bcrypt (empty_new order opts) calls
  constructor
  · intro correct
    refine ⟨fun c member => ?_, not_panics_iff.mp correct.returns⟩
    rw [← made] at member
    obtain ⟨⟨_, result⟩, logged, rfl⟩ := mem_map.mp member
    rcases fruitless _ logged with ⟨-, rfl⟩ | ⟨nothing, -⟩
    · exact absurd logged (correct.generates _ _)
    · exact nothing
  · rintro ⟨idle, safe⟩
    refine ⟨fun c fault member => ?_, not_panics_iff.mpr safe, iff_of_false (not_accepted empty) ?_⟩
    · rcases fruitless _ member with ⟨⟨raw, draws⟩, -⟩ | ⟨-, err, result⟩
      · have nothing := idle c (made ▸ mem_map_of_mem member)
        cases draws.symm.trans nothing
      · cases result
    · rintro ⟨before, c, key, after, split, -⟩
      rw [split] at fruitless
      rcases fruitless _ (mem_append_right before mem_cons_self) with
        ⟨-, result⟩ | ⟨-, err, result⟩
      · cases result
      · cases result

theorem generation_fails_validation_panics : ∃ calls : List KeyCall,
    ((calls.filterMap drawn).map fun rawKey => rawKey.toList.take 8).Nodup ∧
      ∀ (bcrypt : Bcrypt) (order : GoMap.RangeOrder String APIKey) (opts : List APIKeyManagerOption),
        let m := newAPIKeyManager (memoryStorage order) ∅ opts
        (m.calls bcrypt calls).1.map Prod.snd = [.generated (.error hashFailure)] ∧
          ∀ now, (m.calls bcrypt calls).2.validateKey bcrypt now "nxp_" =
            .error (.panic "slice bounds out of range") := by
  refine ⟨[.generateKey (fun _ => 0) (fun _ => 0) [] "u1" "ci" ["admin"] .zero .zero],
    nodup_singleton _, fun bcrypt order opts => ⟨?_, fun now => ?_⟩⟩
  · rw [calls_cons, call_generateKey]
    rfl
  · exact validateKey_of_short (hasPrefix_iff.mpr prefix_rfl) (by decide)

instance : Inhabited Bcrypt where
  default :=
    { generateFromPassword := fun _ password _ =>
        if 72 < password.length then .error (.str "bcrypt: password length exceeds 72 bytes")
        else .ok password
      compareHashAndPassword := fun hash password => if password = hash then none else some (.str "")
      tooLong := fun _ _ _ long => if_pos long
      compare_iff := by
        intro salt password cost hash hashed other
        split at hashed
        · cases hashed
        · cases hashed
          simp }

end NexusPipe.Proof.Auth.APIKey
