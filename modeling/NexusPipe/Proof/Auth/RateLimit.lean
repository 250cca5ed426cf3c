import NexusPipe.Auth.APIKey
import NexusPipe.Proof.Go

namespace NexusPipe.Proof.Auth.RateLimit
open Library NexusPipe.Auth List

variable {σ : Type} {m : APIKeyManager σ} {now : Time} {key : String} {entry : RateLimitEntry}
  {times : List Time} {rate window first last : Int}

def count (entry : RateLimitEntry) : RateLimitEntry :=
  { entry with count := toInt64 (entry.count + 1) }

def check (rate window : Int) (now : Time) (found : Option RateLimitEntry) :
    Option Text × RateLimitEntry :=
  match found with
  | none => (none, ⟨1, now⟩)
  | some entry =>
    if window < now.sub entry.windowStart then (none, ⟨1, now⟩)
    else (if rate < (count entry).count then some errRateLimitExceeded else none, count entry)

def answers (rate window : Int) : Option RateLimitEntry → List Time → List (Time × Option Text)
  | _, [] => []
  | found, now :: times =>
    (now, (check rate window now found).1) ::
      answers rate window (check rate window now found).2 times

def timesOf (key : String) (calls : List (Time × String)) : List Time :=
  (calls.filter (·.2 = key)).map (·.1)

def answersOf (m : APIKeyManager σ) (calls : List (Time × String)) (key : String) :
    List (Time × Option Text) :=
  ((m.checkRateLimits calls).filter (·.2.1 = key)).map fun call => (call.1, call.2.2)

theorem checkRateLimit_eq :
    m.checkRateLimit now key =
      let (answer, entry) :=
        check m.rateLimitRate m.rateLimitWindow now (m.rateLimits.lookup key)
      (answer, { m with rateLimits := m.rateLimits.insert key entry }) := by
  unfold APIKeyManager.checkRateLimit check
  cases m.rateLimits.lookup key with
  | none => rfl
  | some entry =>
    dsimp only
    by_cases ended : m.rateLimitWindow < now.sub entry.windowStart
    · rw [if_pos ended, if_pos ended]
    · rw [if_neg ended, if_neg ended]
      rfl

theorem answersOf_eq (m : APIKeyManager σ) (calls : List (Time × String)) (key : String) :
    answersOf m calls key =
      answers m.rateLimitRate m.rateLimitWindow (m.rateLimits.lookup key) (timesOf key calls) := by
  induction calls generalizing m with
  | nil => rfl
  | cons call calls ih =>
    obtain ⟨now, other⟩ := call
    simp only [answersOf, timesOf] at ih
    rw [answersOf, APIKeyManager.checkRateLimits, checkRateLimit_eq]
    by_cases same : other = key
    · subst same
      simp [timesOf, answers, ih]
    · simp [timesOf, same, ih, Ne.symm same]

theorem mem_times (member : call ∈ answers rate window found times) : call.1 ∈ times := by
  induction times generalizing found with
  | nil => cases member
  | cons now times ih =>
    rcases mem_cons.mp member with rfl | later
    · exact mem_cons_self
    · exact mem_cons_of_mem now (ih later)

def Admitted (first last : Int) (call : Time × Option Text) : Bool :=
  call.2 = none ∧ first ≤ call.1.instant ∧ call.1.instant ≤ last

/-- What the window that has begun, and one that begins within the interval, can still admit. Before
the interval a new window may begin at any time. -/
def budget (rate first time : Int) : Option RateLimitEntry → Int
  | none => 2 * rate
  | some entry =>
    if time < first then 2 * rate
    else max 0 (rate - entry.count) + if entry.windowStart.instant < first then rate else 0

def Counts (room : Nat) (entry : RateLimitEntry) : Prop :=
  1 ≤ entry.count ∧ entry.count + room < 2 ^ 63

theorem count_eq (begun : 1 ≤ entry.count) (fits : entry.count + 1 < 2 ^ 63) :
    (count entry).count = entry.count + 1 :=
  toInt64_eq_self (by omega) fits

theorem check_counts (counts : ∀ entry ∈ found, Counts (room + 1) entry) (few : room + 1 < 2 ^ 63) :
    Counts room (check rate window now found).2 := by
  have new : Counts room ⟨1, now⟩ := ⟨Int.le_refl 1, by dsimp only; omega⟩
  cases found with
  | none => exact new
  | some entry =>
    obtain ⟨begun, fits⟩ := counts entry rfl
    have exactly := count_eq begun (by omega)
    have counted : Counts room (count entry) := ⟨by omega, by omega⟩
    unfold check
    dsimp only
    split_ifs
    · exact new
    · exact counted
    · exact counted

section
variable (positive : 1 ≤ rate) (nonneg : 0 ≤ window)
include positive

theorem budget_nonneg (found : Option RateLimitEntry) : 0 ≤ budget rate first time found := by
  cases found with
  | none =>
    rw [budget]
    omega
  | some entry =>
    rw [budget]
    split_ifs <;> omega

include nonneg

theorem check_budget (first : Int) (counts : ∀ entry ∈ found, Counts 1 entry)
    (later : found ≠ none → time ≤ now.instant) (inside : now.instant ≤ first + window) :
    budget rate first now.instant (check rate window now found).2 +
        (if (check rate window now found).1 = none ∧ first ≤ now.instant then 1 else 0) ≤
      budget rate first time found := by
  cases found with
  | none =>
    simp only [check, budget, true_and]
    split_ifs <;> omega
  | some entry =>
    obtain ⟨begun, fits⟩ := counts entry rfl
    have exactly := count_eq begun fits
    have later := later (Option.some_ne_none entry)
    by_cases ended : window < now.sub entry.windowStart
    · -- the new window outlasts the interval, and the one before began in front of it
      have before : window < now.instant - entry.windowStart.instant := by
        unfold Time.sub at ended
        omega
      simp only [check, if_pos ended, budget, true_and]
      split_ifs <;> omega
    · have same : (count entry).windowStart = entry.windowStart := rfl
      simp only [check, if_neg ended, budget, exactly, same]
      by_cases exceeded : rate < entry.count + 1
      · simp only [if_pos exceeded, reduceCtorEq, false_and, if_false]
        split_ifs <;> omega
      · simp only [if_neg exceeded, true_and]
        split_ifs <;> omega

theorem admitted_le_budget (time : Int) (found : Option RateLimitEntry)
    (sorted : times.Pairwise (·.instant ≤ ·.instant))
    (later : found ≠ none → ∀ now ∈ times, time ≤ now.instant) (few : times.length < 2 ^ 63)
    (counts : ∀ entry ∈ found, Counts times.length entry) :
    ((answers rate window found times).countP (Admitted first (first + window)) : Int) ≤
      budget rate first time found := by
  induction times generalizing found time with
  | nil => exact budget_nonneg positive found
  | cons now times ih =>
    obtain ⟨ordered, sorted⟩ := pairwise_cons.mp sorted
    by_cases inside : now.instant ≤ first + window
    · have fits : ∀ entry ∈ some (check rate window now found).2, Counts times.length entry :=
        fun _ same => Option.some.inj same ▸ check_counts counts few
      have rest := ih now.instant (some (check rate window now found).2) sorted (fun _ => ordered)
        (Nat.lt_of_succ_lt few) fits
      have step := check_budget positive nonneg first
        (fun entry same => ⟨(counts entry same).1, ?_⟩)
        (fun some => later some now mem_cons_self) inside
      · rw [answers, countP_cons]
        simp only [Admitted, inside, and_true, decide_eq_true_eq]
        split_ifs at step ⊢ <;> omega
      · have fits := (counts entry same).2
        rw [length_cons] at fits
        push_cast at fits ⊢
        omega
    · have late : ∀ call ∈ answers rate window found (now :: times),
          ¬ Admitted first (first + window) call := by
        intro call member
        have after : now.instant ≤ call.1.instant := by
          rcases mem_cons.mp (mem_times member) with same | other
          · rw [same]
          · exact ordered _ other
        simp only [Admitted, decide_eq_true_eq]
        omega
      rw [countP_eq_zero.mpr late]
      exact budget_nonneg positive found

end

def Sorted (calls : List (Time × String)) : Prop :=
  calls.Pairwise fun call later => call.1.instant ≤ later.1.instant

def noStorage : APIKeyStorage Unit where
  save _ _ := .ok ()
  findByPrefix _ _ := .error errInvalidAPIKey
  revoke _ _ := .ok ()
  delete _ _ := .ok ()

def sampleCalls : List (Time × String) :=
  [(⟨0, .utc⟩, "a"), (⟨4, .utc⟩, "a"), (⟨6, .utc⟩, "b"), (⟨6, .utc⟩, "a")]

theorem answers_replicate (entry : RateLimitEntry) (within : now.sub entry.windowStart ≤ window)
    (n : Nat) :
    answers rate window (some entry) (replicate n now) = (range n).map fun i =>
      (now, if rate < toInt64 (entry.count + (i + 1 : Nat)) then some errRateLimitExceeded
        else none) := by
  induction n generalizing entry with
  | zero => rfl
  | succ n ih =>
    have next (i : Nat) : toInt64 ((count entry).count + (i + 1 : Nat)) =
        toInt64 (entry.count + (i + 1 + 1 : Nat)) := by
      simp only [count, toInt64, Int.bmod_add_bmod]
      congr 1
      omega
    have counted : check rate window now (some entry) =
        (if rate < (count entry).count then some errRateLimitExceeded else none, count entry) :=
      if_neg (Int.not_lt.mpr within)
    rw [replicate_succ, answers, counted, ih (count entry) within,
      range_succ_eq_map, map_cons, map_map]
    simp only [next]
    rfl

end NexusPipe.Proof.Auth.RateLimit
