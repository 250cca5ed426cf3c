import NexusPipe.Library.Schedule
import NexusPipe.Pkg.Retry

namespace NexusPipe.Proof.Pkg.Retry
open Library NexusPipe.Pkg.Retry

section
variable {V E : Type} {config : Config E} {call : DoCall V E} {s : LoopState E}

inductive Rounded (config : Config E) (call : DoCall V E) (s : LoopState E) :
    LoopState E ⊕ LoopEnd V E → Prop
  | checked (more : s.attempt ≤ config.MaxAttempts) (done : call.checked s.attempt = some err) :
      Rounded config call s (.inr (.canceled err s.attempts))
  | succeeded {val : V} (more : s.attempt ≤ config.MaxAttempts)
      (live : call.checked s.attempt = none) (outcome : call.outcome s.attempt = .ok val) :
      Rounded config call s (.inr (.succeeded val s.attempt))
  | permanent (more : s.attempt ≤ config.MaxAttempts)
      (live : call.checked s.attempt = none) (outcome : call.outcome s.attempt = .error err)
      (final : config.retryable err = false) :
      Rounded config call s (.inr (.failed (some err) s.attempt))
  | waited (more : s.attempt < config.MaxAttempts)
      (live : call.checked s.attempt = none) (outcome : call.outcome s.attempt = .error err)
      (retryable : config.retryable err = true) (stopped : call.waited s.attempt = some done) :
      Rounded config call s (.inr (.canceled done s.attempt))
  | again {err : E} (more : s.attempt ≤ config.MaxAttempts)
      (live : call.checked s.attempt = none) (outcome : call.outcome s.attempt = .error err)
      (retryable : config.retryable err = true) :
      Rounded config call s (.inl ⟨toInt64 (s.attempt + 1), s.attempt, some err⟩)
  | exhausted (last : config.MaxAttempts < s.attempt) :
      Rounded config call s (.inr (.failed s.lastErr s.attempts))

variable (config call s) in
theorem nextRound_cases : Rounded config call s (nextRound config call s) := by
  unfold nextRound
  by_cases more : s.attempt ≤ config.MaxAttempts
  · rw [if_pos more]
    cases live : call.checked s.attempt with
    | some err => exact .checked more live
    | none =>
      cases outcome : call.outcome s.attempt with
      | ok val => exact .succeeded more live outcome
      | error err =>
        cases retryable : config.retryable err with
        | false =>
          simp only [retryable]
          exact .permanent more live outcome retryable
        | true =>
          simp only [retryable, Bool.not_true, Bool.false_eq_true, if_false]
          by_cases earlier : s.attempt < config.MaxAttempts
          · rw [if_pos earlier]
            cases stopped : call.waited s.attempt with
            | some done => exact .waited earlier live outcome retryable stopped
            | none => exact .again more live outcome retryable
          · rw [if_neg earlier]
            exact .again more live outcome retryable
  · rw [if_neg more]
    exact .exhausted (Int.not_le.mp more)

end

section
variable {F V E : Type}

def sign (f : F) (call : DoCall V E) : DoCall (F × V) (F × E) :=
  { call with
    outcome := fun attempt => ((call.outcome attempt).map (Prod.mk f)).mapError (Prod.mk f) }

variable {f : F} {call : DoCall V E}

theorem sign_outcome : (∀ val, (sign f call).outcome attempt = .ok val → val.1 = f) ∧
      (∀ err, (sign f call).outcome attempt = .error err → err.1 = f) := by
  simp only [sign]
  cases call.outcome attempt with
  | ok v =>
    constructor
    · rintro val ⟨⟩
      rfl
    · rintro err ⟨⟩
  | error e =>
    constructor
    · rintro val ⟨⟩
    · rintro err ⟨⟩
      rfl

def EndsBy (f : F) : LoopEnd (F × V) (F × E) → Prop
  | .canceled _ _ => True
  | .succeeded val _ => val.1 = f
  | .failed lastErr _ => ∃ err, lastErr = some err ∧ err.1 = f

theorem loop_endsBy {config : Config (F × E)} (attempts : 1 ≤ config.MaxAttempts)
    (ended : loopFor (nextRound config (sign f call)) fuel {} = some ending) : EndsBy f ending := by
  have exit := loopFor_exit
    (fun s => s.attempt ≤ config.MaxAttempts ∨ ∃ err, s.lastErr = some err ∧ err.1 = f)
    ?preserved (.inl attempts) ended
  case preserved =>
    intro s s' _ next
    have rounded := nextRound_cases config (sign f call) s
    rw [next] at rounded
    cases rounded with
    | again more live outcome => exact .inr ⟨_, rfl, sign_outcome.2 _ outcome⟩
  obtain ⟨s, holds, last⟩ := exit
  have rounded := nextRound_cases config (sign f call) s
  rw [last] at rounded
  cases rounded with
  | checked | waited => trivial
  | succeeded more live outcome => exact sign_outcome.1 _ outcome
  | permanent more live outcome => exact ⟨_, rfl, sign_outcome.2 _ outcome⟩
  | exhausted past => exact holds.resolve_left (Int.not_le.mpr past)

def SignedBy (f : F) (value : Option (F × V)) (err : Option (ResultErr (F × E))) : Prop :=
  (∃ v, value = some v ∧ err = none ∧ v.1 = f) ∨
    ∃ e, value = none ∧ err = some (.retryFailed (some e)) ∧ e.1 = f

def ProducedBy (f : F) (result : Result (F × V) (F × E)) : Prop :=
  (∀ v, result.Value = some v → v.1 = f) ∧
    ∀ e, result.Err = some (.retryFailed (some e)) → e.1 = f

theorem SignedBy.producedBy_iff (signed : SignedBy f value err) (attempts totalTime : Int) :
    ProducedBy g ⟨value, err, attempts, totalTime⟩ ↔ f = g := by
  rcases signed with ⟨v, rfl, rfl, rfl⟩ | ⟨e, rfl, rfl, rfl⟩ <;> simp [ProducedBy]

def Holds (lastRun : Option F) (r : Retryer (F × V) (F × E)) : Prop :=
  1 ≤ r.config.MaxAttempts ∧
    ∀ cache ∈ r.cache, ∀ key entry, cache.entries.lookup key = some entry →
      key = cacheKey ∧ ∃ f, lastRun = some f ∧ SignedBy f entry.value entry.err

variable {lastRun : Option F}

theorem Holds.read (holds : Holds lastRun r) (call : DoCall (F × V) (F × E)) :
    Holds lastRun (r.read call).2 ∧ ∀ entry, (r.read call).1 = some entry →
      ∃ f, lastRun = some f ∧ SignedBy f entry.value entry.err := by
  unfold Retryer.read
  cases present : r.cache with
  | none => exact ⟨holds, by simp⟩
  | some cache =>
    have stored := holds.2 cache present
    simp only [ResultCache.get]
    cases found : cache.entries.lookup cacheKey with
    | none => exact ⟨⟨holds.1, fun _ same => Option.some.inj same ▸ stored⟩, by simp⟩
    | some entry =>
      by_cases expired : (!entry.expiresAt.isZero && call.readAt.after entry.expiresAt) = true
      · simp only [if_pos expired]
        refine ⟨⟨holds.1, ?_⟩, by simp⟩
        rintro _ ⟨⟩ key entry' found'
        rw [GoMap.lookup_erase_eq] at found'
        split_ifs at found'
        exact stored key entry' found'
      · simp only [if_neg expired]
        refine ⟨⟨holds.1, fun _ same => Option.some.inj same ▸ stored⟩, ?_⟩
        rintro _ ⟨⟩
        exact (stored cacheKey entry found).2

theorem Holds.store (holds : Holds lastRun r) (call : DoCall (F × V) (F × E))
    (signed : SignedBy f value err) : Holds (some f) (r.store call value err) := by
  refine ⟨holds.1, ?_⟩
  intro stored same key entry found
  obtain ⟨cache, present, rfl⟩ := Option.map_eq_some_iff.mp same
  have others := holds.2 cache present key entry
  simp only [ResultCache.set, GoMap.lookup_insert_eq] at found
  by_cases here : key = cacheKey
  · rw [if_pos here] at found
    exact ⟨here, f, rfl, Option.some.inj found ▸ signed⟩
  · rw [if_neg here] at found
    split_ifs at found
    · rw [GoMap.lookup_erase_eq] at found
      split_ifs at found
      exact absurd (others found).1 here
    · exact absurd (others found).1 here

structure FunctionCall (F V E : Type) where
  fn : F
  fuel : Nat
  call : DoCall V E

def FunctionCall.signed (c : FunctionCall F V E) : DoCall (F × V) (F × E) := sign c.fn c.call

structure Traced (F V E : Type) where
  retryer : Retryer (F × V) (F × E)
  lastRun : Option F := none

def Traced.Answers (s : Traced F V E) (c : FunctionCall F V E) : Prop :=
  (s.retryer.read c.signed).1.isSome

instance (s : Traced F V E) (c : FunctionCall F V E) : Decidable (s.Answers c) :=
  inferInstanceAs (Decidable ((s.retryer.read c.signed).1.isSome = true))

def canceled (result : Result V E) : Bool :=
  match result.Err with
  | some (.contextCanceled _) => true
  | _ => false

def Traced.step (s : Traced F V E) (c : FunctionCall F V E) : Option (Traced F V E) :=
  (s.retryer.doCall c.fuel c.signed).map fun answer =>
    { retryer := answer.2
      lastRun := if s.Answers c ∨ canceled answer.1 then s.lastRun else some c.fn }

def OwnResult (s : Traced F V E) (c : FunctionCall F V E) : Prop :=
  ∀ result r, s.retryer.doCall c.fuel c.signed = some (result, r) → ProducedBy c.fn result

/-- A call that the cache answers passes the function that last ran to its end. -/
def SameFunction (s : Traced F V E) (c : FunctionCall F V E) : Prop :=
  s.Answers c → s.lastRun = some c.fn

variable {c : FunctionCall F V E}

theorem doCall_cases {s : Traced F V E} (holds : Holds s.lastRun s.retryer)
    (done : s.retryer.doCall c.fuel c.signed = some (result, r)) :
    (s.Answers c ∧ Holds s.lastRun r ∧
        ∃ f, s.lastRun = some f ∧ SignedBy f result.Value result.Err) ∨
      (¬ s.Answers c ∧ canceled result = true ∧ Holds s.lastRun r ∧ ProducedBy c.fn result) ∨
      (¬ s.Answers c ∧ canceled result = false ∧ Holds (some c.fn) r ∧
        SignedBy c.fn result.Value result.Err) := by
  have reads := holds.read c.signed
  unfold Retryer.doCall at done
  unfold Traced.Answers
  generalize s.retryer.read c.signed = answer at reads done
  obtain ⟨found, r'⟩ := answer
  cases found with
  | some entry =>
    cases done
    exact .inl ⟨rfl, reads.1, reads.2 entry rfl⟩
  | none =>
    obtain ⟨ending, ended, concluded⟩ := Option.map_eq_some_iff.mp done
    have ends := loop_endsBy reads.1.1 ended
    cases ending with
    | canceled err attempts =>
      cases concluded
      exact .inr (.inl ⟨by simp, rfl, reads.1, by simp [ProducedBy]⟩)
    | succeeded val attempts =>
      cases concluded
      have signed : SignedBy c.fn (some val) (none : Option (ResultErr (F × E))) :=
        .inl ⟨val, rfl, rfl, ends⟩
      exact .inr (.inr ⟨by simp, rfl, reads.1.store c.signed signed, signed⟩)
    | failed lastErr attempts =>
      obtain ⟨err, rfl, own⟩ := ends
      cases concluded
      have signed : SignedBy c.fn (none : Option (F × V)) (some (.retryFailed (some err))) :=
        .inr ⟨err, rfl, rfl, own⟩
      exact .inr (.inr ⟨by simp, rfl, reads.1.store c.signed signed, signed⟩)

theorem step_holds {s : Traced F V E} (holds : Holds s.lastRun s.retryer)
    (next : s.step c = some s') : Holds s'.lastRun s'.retryer := by
  obtain ⟨⟨result, r⟩, done, rfl⟩ := Option.map_eq_some_iff.mp next
  rcases doCall_cases holds done with ⟨hit, kept, -⟩ | ⟨-, stopped, kept, -⟩ |
    ⟨miss, ran, kept, -⟩
  · rwa [if_pos (.inl hit)]
  · rwa [if_pos (.inr stopped)]
  · rwa [if_neg (by simp [miss, ran])]

theorem ownResult_iff {s : Traced F V E} (holds : Holds s.lastRun s.retryer)
    (c : FunctionCall F V E) : OwnResult s c ↔ SameFunction s c := by
  constructor
  · intro own hit
    obtain ⟨entry, found⟩ := Option.isSome_iff_exists.mp hit
    have answers : s.retryer.doCall c.fuel c.signed =
        some (⟨entry.value, entry.err, 0, c.signed.finish.sub c.signed.start⟩,
          (s.retryer.read c.signed).2) := by
      rw [Retryer.doCall, ← Prod.mk.eta (p := s.retryer.read c.signed), found]
    obtain ⟨f, last, signed⟩ := (holds.read c.signed).2 entry found
    rw [last, (signed.producedBy_iff _ _).mp (own _ _ answers)]
  · intro same result r done
    rcases doCall_cases holds done with ⟨hit, -, f, last, signed⟩ | ⟨-, -, -, own⟩ | ⟨-, -, -, own⟩
    · exact (signed.producedBy_iff _ _).mpr (Option.mem_unique last (same hit))
    · exact own
    · exact (own.producedBy_iff _ _).mpr rfl

theorem results_own_iff (config : Config (F × E)) (ttl capacity : Int)
    (calls : List (FunctionCall F V E)) :
    Along Traced.step OwnResult ⟨(new config).withCache ttl capacity, none⟩ calls ↔
      Along Traced.step SameFunction ⟨(new config).withCache ttl capacity, none⟩ calls := by
  refine along_congr_of_invariant (fun s => Holds s.lastRun s.retryer)
    (fun s c s' holds next => step_holds holds next) (fun s c holds => ownResult_iff holds c) ⟨?_, ?_⟩
  · simp only [Retryer.withCache, new]
    split_ifs <;> omega
  · rintro cache ⟨⟩ key entry found
    simp [newResultCache] at found

end

noncomputable def someKey : FirstKey where
  pick keys := if nonempty : keys.Nonempty then nonempty.choose else ""
  member keys nonempty := by
    rw [dif_pos nonempty]
    exact nonempty.choose_spec

noncomputable def returning (f : Bool) (value : String) : FunctionCall Bool String String where
  fn := f
  fuel := 2
  call :=
    { outcome := fun _ => .ok value
      start := Time.zero, readAt := Time.zero, storedAt := Time.zero, finish := Time.zero
      first := someKey }

def threeAttempts : Config (Bool × String) where
  MaxAttempts := 3
  BaseDelay := 0
  MaxDelay := 0
  Strategy := 0
  Jitter := 0
  RetryableErr := none

theorem other_function_answered :
    let start : Traced Bool String String := ⟨(new threeAttempts).withCache 0 0, none⟩
    ¬ Along Traced.step OwnResult start [returning false "a", returning true "b"] ∧
      ((start.step (returning false "a")).bind fun s =>
        (s.retryer.doCall 2 (returning true "b").signed).map (·.1.Value)) =
          some (some (false, "a")) := by
  refine ⟨?_, rfl⟩
  rintro ⟨-, firstCall⟩
  obtain ⟨own, -⟩ := firstCall _ rfl
  cases (own _ _ rfl).1 _ rfl

end NexusPipe.Proof.Pkg.Retry
