import NexusPipe.Api.Middleware.RateLimit
import NexusPipe.Library.Schedule

namespace NexusPipe.Proof.Api.Middleware
open Library NexusPipe.Api.Middleware Limiting Option

section
variable {N : Type} (num : Arithmetic N)

def tokensToAdd (bucket : TokenBucket N) (now : Time) : N :=
  num.mul (num.seconds (now.sub bucket.lastRefill)) bucket.rate

def uncapped (bucket : TokenBucket N) (now : Time) : TokenBucket N :=
  { bucket with tokens := num.add bucket.tokens (tokensToAdd num bucket now) }

def Midway (bucket current : TokenBucket N) : TakePc N → Prop
  | .start => current = bucket
  | .clocked _ => current = bucket
  | .measured now added => current = bucket ∧ added = tokensToAdd num bucket now
  | .summed now tokens => current = bucket ∧ tokens = (uncapped num bucket now).tokens
  | .added now => current = uncapped num bucket now
  | .exceeding now => current = uncapped num bucket now ∧
      num.lt (num.ofInt current.burst) current.tokens = true
  | .capped now => { current with lastRefill := now } = refillBucket num bucket now
  | .refilled now => current = refillBucket num bucket now
  | .enough now => current = refillBucket num bucket now ∧
      num.lt current.tokens (num.ofInt 1) = false
  | .counted now tokens => current = refillBucket num bucket now ∧
      num.lt current.tokens (num.ofInt 1) = false ∧ tokens = num.sub current.tokens (num.ofInt 1)
  | .short now => current = refillBucket num bucket now ∧
      num.lt current.tokens (num.ofInt 1) = true

variable {num} {bucket : TokenBucket N}

variable {now : Time}

theorem refillBucket_capped
    (full : num.lt (num.ofInt bucket.burst) (uncapped num bucket now).tokens = true) :
    refillBucket num bucket now =
      { bucket with tokens := num.ofInt bucket.burst, lastRefill := now } :=
  congrArg (fun tokens => { bucket with tokens := tokens, lastRefill := now }) (if_pos full)

theorem refillBucket_eq
    (under : ¬ num.lt (num.ofInt bucket.burst) (uncapped num bucket now).tokens = true) :
    refillBucket num bucket now = { uncapped num bucket now with lastRefill := now } :=
  congrArg (fun tokens => { bucket with tokens := tokens, lastRefill := now }) (if_neg under)

theorem Midway.step (midway : Midway num bucket current pc)
    (taken : takeStep num clock pc current = (.inl pc', next)) : Midway num bucket next pc' := by
  cases pc with
  | start =>
    cases taken
    exact midway
  | clocked now =>
    cases taken
    cases midway
    exact ⟨rfl, rfl⟩
  | measured now added =>
    obtain ⟨rfl, rfl⟩ := midway
    cases taken
    exact ⟨rfl, rfl⟩
  | summed now tokens =>
    obtain ⟨rfl, rfl⟩ := midway
    cases taken
    exact rfl
  | added now =>
    by_cases full : num.lt (num.ofInt current.burst) current.tokens = true
    · simp only [takeStep, if_pos full] at taken
      cases taken
      exact ⟨midway, full⟩
    · simp only [takeStep, if_neg full] at taken
      cases taken
      cases midway
      exact (refillBucket_eq full).symm
  | exceeding now =>
    obtain ⟨rfl, full⟩ := midway
    cases taken
    have capped : refillBucket num bucket now = _ := refillBucket_capped full
    exact capped.symm
  | capped now =>
    cases taken
    exact midway
  | refilled now =>
    by_cases short : num.lt current.tokens (num.ofInt 1) = true
    · simp only [takeStep, if_pos short] at taken
      cases taken
      exact ⟨midway, short⟩
    · simp only [takeStep, if_neg short] at taken
      cases taken
      exact ⟨midway, Bool.not_eq_true _ ▸ short⟩
  | enough now =>
    cases taken
    exact ⟨midway.1, midway.2, rfl⟩
  | counted | short => cases taken

variable {answer : Answer N}

theorem Midway.last (midway : Midway num bucket current pc)
    (taken : takeStep num clock pc current = (.inr (now, answer), next)) :
    take num bucket now = (answer, next) := by
  cases pc with
  | counted now tokens =>
    obtain ⟨rfl, enough, rfl⟩ := midway
    cases taken
    simp [take, enough]
  | short now =>
    obtain ⟨rfl, short⟩ := midway
    cases taken
    simp [take, short]
  | start | clocked | measured | summed | added | exceeding | capped | refilled | enough => cases taken

theorem midway_of_alone (alone : (taking num).Alone bucket pc current) :
    Midway num bucket current pc := by
  induction alone with
  | begins begins =>
    obtain ⟨now, rfl⟩ := begins
    rfl
  | step clock before next ih => exact ih.step next

theorem take_of_whole (whole : (taking num).Whole bucket (now, answer) next) :
    take num bucket now = (answer, next) := by
  obtain ⟨clock, before, last⟩ := whole
  exact (midway_of_alone before).last last

variable (num) in
def replay (bucket : TokenBucket N) (times : List Time) : List (Time × Answer N) × TokenBucket N :=
  times.foldl (fun (answers, bucket) now =>
    let (answer, bucket) := take num bucket now
    (answers ++ [(now, answer)], bucket)) ([], bucket)

def Sequential (num : Arithmetic N) (cell : Shared (TokenBucket N) (Time × Answer N)) : Prop :=
  ∃ order : List Time, order.Perm (cell.answers.map Prod.fst) ∧
    (replay num cell.initial order).1.Perm cell.answers

theorem replay_of_serial (serial : (taking num).Serial bucket answers next) :
    replay num bucket (answers.map Prod.fst) = (answers, next) := by
  induction serial with
  | nil => rfl
  | @snoc answers answer c₁ c₂ before last ih =>
    obtain ⟨now, answer⟩ := answer
    have served : take num c₁ now = (answer, c₂) := take_of_whole last
    rw [List.map_append, replay, List.foldl_append, ← replay, ih]
    simp [served]

end

section
variable {N R : Type} {num : Arithmetic N} {s s' : Limiting N R} {a : LimitingAction R}

def TakePc.begun : TakePc N → Bool
  | .start | .clocked _ => false
  | _ => true

def inside (b : Nat) : RequestPc N → Option (TakePc N)
  | .taking b' pc _ _ => if b' = b ∧ TakePc.begun pc then some pc else none
  | _ => none

variable {stages : List Stage} {pc : TakePc N} {error : String} {b : Nat}

theorem inside_before (before : TakePc.begun pc = false) :
    inside b' (.taking b pc error stages) = none :=
  if_neg fun here => Bool.eq_false_iff.mp before here.2

theorem inside_taking (begun : TakePc.begun pc = true) :
    inside b (.taking b pc error stages) = some pc :=
  if_pos ⟨rfl, begun⟩

theorem inside_taking_ne (other : b ≠ b') : inside b' (.taking b pc error stages) = none :=
  if_neg fun here => other here.1

variable {next bucket : TokenBucket N}

theorem takeStep_begun (clocked : pc ≠ .start)
    (taken : takeStep num clock pc bucket = (.inl pc', next)) : TakePc.begun pc' = true := by
  cases pc with
  | start => exact absurd rfl clocked
  | added | refilled =>
    simp only [takeStep, Prod.mk.injEq, Sum.inl.injEq] at taken
    obtain ⟨rfl, -⟩ := taken
    split_ifs <;> rfl
  | clocked | measured | summed | exceeding | capped | enough =>
    cases taken
    rfl
  | counted | short => cases taken

theorem begun_of_takeStep (taken : takeStep num clock pc bucket = (.inr answer, next)) :
    TakePc.begun pc = true := by
  cases pc with
  | counted | short => rfl
  | start | clocked | measured | summed | added | exceeding | capped | refilled | enough => cases taken

def reading : RequestPc N → Option Nat
  | .taking b (.clocked _) _ _ => some b
  | _ => none

/-- No request makes its first read of a bucket while another one is at it. -/
def Exclusive (s : Limiting N R) (a : LimitingAction R) : Prop :=
  ∀ b ∈ reading (s.requests a.request), ∀ r, inside b (s.requests r) = none

instance decidableExclusive [Fintype R] : Decidable (Exclusive s a) :=
  inferInstanceAs (Decidable (∀ b ∈ reading (s.requests a.request), ∀ r, inside b (s.requests r) = none))

structure Ordered (num : Arithmetic N) (s : Limiting N R) : Prop where
  bounded : ∀ r b pc, inside b (s.requests r) = some pc → b < s.heap.length
  cells : ∀ b cell, s.heap[b]? = some cell →
    (taking num).Guarded cell fun r => inside b (s.requests r)

theorem start_ordered (config : RateLimiterConfig N) (created : Time)
    (requests : R → Handler closures × String × String) :
    Ordered num (start num config created closures requests) := by
  have out (b : Nat) (r : R) :
      inside b ((start num config created closures requests).requests r) = none := by
    simp only [start]
    cases (requests r).1 with
    | globalRateLimit | ipRateLimit | userRateLimit | rateLimit => rfl
  constructor
  · intro r b pc here
    rw [out b r] at here
    cases here
  · intro b cell found
    obtain rfl := (List.mem_replicate.mp (List.mem_of_getElem? found)).2
    exact .inl ⟨out b, .nil⟩

variable [DecidableEq R]

inductive Stepped (num : Arithmetic N) (s : Limiting N R) (a : LimitingAction R) (s' : Limiting N R) :
    Prop
  | elsewhere (pc : RequestPc N) (out : ∀ b, inside b (s.requests a.request) = none)
      (out' : ∀ b, inside b pc = none)
      (made : ∃ fresh : Option (TokenBucket N), s'.heap = s.heap ++
        fresh.toList.map fun bucket => { initial := bucket, current := bucket })
      (requests : s'.requests = Function.update s.requests a.request pc)
  | advance {b : Nat} {pc pc' : TakePc N} {error : String} {stages : List Stage}
      {cell : Shared (TokenBucket N) (Time × Answer N)} {bucket : TokenBucket N}
      (here : s.requests a.request = .taking b pc error stages) (found : s.heap[b]? = some cell)
      (taken : takeStep num a.clock pc cell.current = (.inl pc', bucket))
      (heap : s'.heap = s.heap.set b { cell with current := bucket })
      (requests : s'.requests =
        Function.update s.requests a.request (.taking b pc' error stages))
  | finish {b : Nat} {pc : TakePc N} {error : String} {stages : List Stage} {next : RequestPc N}
      {answer : Time × Answer N} {cell : Shared (TokenBucket N) (Time × Answer N)}
      {bucket : TokenBucket N} (here : s.requests a.request = .taking b pc error stages)
      (found : s.heap[b]? = some cell)
      (taken : takeStep num a.clock pc cell.current = (.inr answer, bucket))
      (heap : s'.heap = s.heap.set b
        { cell with current := bucket, answers := cell.answers ++ [answer] })
      (out : ∀ b, inside b next = none)
      (requests : s'.requests = Function.update s.requests a.request next)

theorem elsewhere_of_goto {t : Limiting N R} {pc : RequestPc N}
    (out : ∀ b, inside b (s.requests a.request) = none) (heap : t.heap = s.heap)
    (requests : t.requests = s.requests) (out' : ∀ b, inside b pc = none) :
    Stepped num s a (t.goto a.request pc) := by
  refine .elsewhere pc out out' ⟨none, ?_⟩ ?_
  · rw [toList_none, List.map_nil, List.append_nil]
    exact heap
  · exact congrArg (fun requests => Function.update requests a.request pc) requests

theorem locate_elsewhere (out : ∀ b, inside b (s.requests a.request) = none)
    (next : s.locate a.request located error stages = some s') : Stepped num s a s' := by
  unfold locate at next
  split_ifs at next
  obtain rfl := some.inj next
  exact .elsewhere _ out (fun _ => inside_before rfl) ⟨located.2.1, rfl⟩ rfl

theorem step_cases (next : s.step num a = some s') : Stepped num s a s' := by
  simp only [step] at next
  cases here : s.requests a.request with
  | arriving stages =>
    have out (b : Nat) : inside b (s.requests a.request) = none := by rw [here]; rfl
    simp only [here] at next
    split_ifs at next
    · exact some.inj next ▸ elsewhere_of_goto out rfl rfl fun _ => rfl
    · exact some.inj next ▸ elsewhere_of_goto out rfl rfl fun _ => rfl
  | cleaning stages =>
    have out (b : Nat) : inside b (s.requests a.request) = none := by rw [here]; rfl
    simp only [here] at next
    exact some.inj next ▸ elsewhere_of_goto out rfl rfl fun _ => rfl
  | sweeping now threshold todo stages =>
    have out (b : Nat) : inside b (s.requests a.request) = none := by rw [here]; rfl
    cases todo with
    | nil =>
      simp only [here] at next
      exact some.inj next ▸ elsewhere_of_goto out rfl rfl fun _ => rfl
    | cons entry todo =>
      simp only [here] at next
      obtain ⟨b, -, swept⟩ := bind_eq_some_iff.mp next
      obtain ⟨cell, -, rfl⟩ := map_eq_some_iff.mp swept
      exact elsewhere_of_goto out rfl rfl fun _ => rfl
  | locating stages =>
    have out (b : Nat) : inside b (s.requests a.request) = none := by rw [here]; rfl
    cases stages with
    | nil =>
      simp only [here] at next
      exact some.inj next ▸ elsewhere_of_goto out rfl rfl fun _ => rfl
    | cons stage stages =>
      obtain ⟨target, error⟩ := stage
      cases target with
      | global closure =>
        simp only [here] at next
        exact some.inj next ▸ elsewhere_of_goto out rfl rfl fun _ => inside_before rfl
      | ip | user =>
        simp only [here] at next
        exact locate_elsewhere out next
  | taking b pc error stages =>
    simp only [here] at next
    obtain ⟨cell, found, rfl⟩ := map_eq_some_iff.mp next
    cases taken : takeStep num a.clock pc cell.current with
    | mk result bucket =>
      cases result with
      | inl pc' => exact .advance here found taken rfl rfl
      | inr answer =>
        obtain ⟨now, answer⟩ := answer
        refine .finish here found taken rfl (fun _ => ?_) rfl
        cases answer <;> rfl
  | responded response =>
    simp only [here] at next
    cases next

theorem inside_update (b : Nat) (r : R) (pc : RequestPc N) :
    (fun r' => inside b (Function.update s.requests r pc r')) =
      Function.update (fun r' => inside b (s.requests r')) r (inside b pc) :=
  Function.comp_update (inside b) s.requests r pc

theorem Ordered.elsewhere (ordered : Ordered num s) {pc : RequestPc N}
    (out : ∀ b, inside b (s.requests r) = none) (out' : ∀ b, inside b pc = none)
    {fresh : Option (TokenBucket N)}
    (made : s'.heap = s.heap ++ fresh.toList.map fun bucket => { initial := bucket, current := bucket })
    (requests : s'.requests = Function.update s.requests r pc) : Ordered num s' := by
  have same (b : Nat) : (fun r' => inside b (s'.requests r')) = fun r' => inside b (s.requests r') := by
    rw [requests, inside_update, out', ← out b]
    exact Function.update_eq_self r _
  constructor
  · intro r' b pc' here
    have before := ordered.bounded r' b pc' (congrFun (same b) r' ▸ here)
    rw [made, List.length_append]
    omega
  · intro b cell found
    rw [same b]
    rw [made] at found
    by_cases old : b < s.heap.length
    · rw [List.getElem?_append_left old] at found
      exact ordered.cells b cell found
    · rw [List.getElem?_append_right (Nat.le_of_not_lt old)] at found
      obtain ⟨bucket, -, rfl⟩ := List.mem_map.mp (List.mem_of_getElem? found)
      refine .inl ⟨fun r' => ?_, .nil⟩
      by_contra busy
      obtain ⟨pc', here⟩ := ne_none_iff_exists'.mp busy
      exact old (ordered.bounded r' b pc' here)

theorem Ordered.at_bucket (ordered : Ordered num s) {pc : RequestPc N}
    (found : s.heap[b]? = some cell) (heap : s'.heap = s.heap.set b cell')
    (requests : s'.requests = Function.update s.requests r pc)
    (others : ∀ b', b' ≠ b → inside b' (s.requests r) = none ∧ inside b' pc = none)
    (guarded : (taking num).Guarded cell' fun r' => inside b (s'.requests r')) :
    Ordered num s' := by
  have inRange : b < s.heap.length := (List.getElem?_eq_some_iff.mp found).1
  have same (b' : Nat) (other : b' ≠ b) :
      (fun r' => inside b' (s'.requests r')) = fun r' => inside b' (s.requests r') := by
    rw [requests, inside_update, (others b' other).2, ← (others b' other).1]
    exact Function.update_eq_self r _
  constructor
  · intro r' b' pc' here
    rw [heap, List.length_set]
    by_cases other : b' = b
    · exact other ▸ inRange
    · exact ordered.bounded r' b' pc' (congrFun (same b' other) r' ▸ here)
  · intro b' cell₁ found₁
    rw [heap] at found₁
    by_cases other : b' = b
    · subst other
      rw [List.getElem?_set_self inRange] at found₁
      exact some.inj found₁ ▸ guarded
    · rw [List.getElem?_set_ne (Ne.symm other)] at found₁
      rw [same b' other]
      exact ordered.cells b' cell₁ found₁

theorem step_ordered (ordered : Ordered num s) (exclusive : Exclusive s a)
    (next : s.step num a = some s') : Ordered num s' := by
  cases step_cases next with
  | elsewhere pc out out' made requests =>
    obtain ⟨fresh, made⟩ := made
    exact ordered.elsewhere out out' made requests
  | @advance b pc pc' error stages cell bucket here found taken heap requests =>
    have guarded := ordered.cells b cell found
    refine ordered.at_bucket found heap requests (fun b' other => ⟨?_, ?_⟩) ?_
    · exact here ▸ inside_taking_ne (Ne.symm other)
    · exact inside_taking_ne (Ne.symm other)
    · rw [requests, inside_update]
      by_cases first : pc = .start
      · subst first
        cases taken
        have out : inside b (s.requests a.request) = none := here ▸ inside_before rfl
        rw [inside_before rfl, ← out, Function.update_eq_self]
        exact guarded
      · rw [inside_taking (takeStep_begun first taken)]
        by_cases begun : TakePc.begun pc = true
        · exact guarded.advance (here ▸ inside_taking begun) taken
        · obtain ⟨now, rfl⟩ : ∃ now, pc = .clocked now := by
            cases pc with
            | start => exact absurd rfl first
            | clocked now => exact ⟨now, rfl⟩
            | measured | summed | added | exceeding | capped | refilled | enough | counted | short =>
              exact absurd rfl begun
          have empty := exclusive b (by rw [here]; rfl)
          exact guarded.enter (i := a.clock) empty ⟨now, rfl⟩ taken
  | @finish b pc error stages next answer cell bucket here found taken heap out requests =>
    refine ordered.at_bucket found heap requests (fun b' other => ⟨?_, out b'⟩) ?_
    · exact here ▸ inside_taking_ne (Ne.symm other)
    · rw [requests, inside_update, out b]
      have begun := begun_of_takeStep taken
      exact (ordered.cells b cell found).finish (here ▸ inside_taking begun) taken

theorem exclusive_answers_sequential {config : RateLimiterConfig N} {created : Time} {closures : Nat}
    {requests : R → Handler closures × String × String} {actions : List (LimitingAction R)}
    (run : runSchedule (Limiting.step num) (.start num config created closures requests) actions =
      some s)
    (exclusive : Along (Limiting.step num) Exclusive (.start num config created closures requests)
      actions) {cell : Shared (TokenBucket N) (Time × Answer N)} (bucket : cell ∈ s.heap) :
    Sequential num cell := by
  have ordered : Ordered num s :=
    runSchedule_invariant_along Exclusive (Ordered num) (fun _ _ _ => step_ordered) run exclusive
      (start_ordered config created requests)
  obtain ⟨b, found⟩ := List.mem_iff_getElem?.mp bucket
  obtain ⟨current, serial⟩ := (ordered.cells b cell found).serial
  refine ⟨cell.answers.map Prod.fst, .refl _, ?_⟩
  rw [replay_of_serial serial]

end

section

def noon : Time := ⟨43200 * second, .utc⟩

def oneToken : RateLimiterConfig Float64 :=
  ⟨.finite 1, 1, .finite 1, 1, .finite 1, 1, hour⟩

def twoRequests : Limiting Float64 Bool :=
  .start float64 oneToken noon 0 fun _ => (.ipRateLimit, "10.0.0.1", "")

noncomputable def steps (n : Nat) (request : Bool) : List (LimitingAction Bool) :=
  .replicate n ⟨request, noon, GoMap.anyOrder, GoMap.anyOrder⟩

def fullBucket : TokenBucket Float64 := ⟨.finite 1, noon, .finite 1, 1⟩

theorem in_turn_sequential :
    ∃ s, runSchedule (Limiting.step float64) twoRequests (steps 12 false ++ steps 10 true) = some s ∧
      s.heap = [⟨fullBucket, { fullBucket with tokens := .finite 0 },
        [(noon, .admitted), (noon, .rejected (.finite 1))]⟩] ∧
      ∀ cell ∈ s.heap, Sequential float64 cell := by
  have exclusive : Along (step float64) Exclusive twoRequests
      (steps 12 false ++ steps 10 true) := by decide +kernel
  refine exists_reached (fun s => s.heap = [⟨fullBucket, { fullBucket with tokens := .finite 0 },
    [(noon, .admitted), (noon, .rejected (.finite 1))]⟩]) (by decide +kernel) fun s run heap => ?_
  exact ⟨heap, fun cell bucket => exclusive_answers_sequential run exclusive bucket⟩

theorem one_token_admits_two : ∃ s, runSchedule (Limiting.step float64) twoRequests
        (steps 9 false ++ steps 12 true ++ steps 3 false) = some s ∧
      s.requests false = .responded .next ∧ s.requests true = .responded .next ∧
      ∃ cell ∈ s.heap, cell.initial = fullBucket ∧ ¬ Sequential float64 cell := by
  refine exists_reached (fun s => s.requests false = .responded .next ∧
    s.requests true = .responded .next ∧ s.heap = [⟨fullBucket,
      { fullBucket with tokens := .finite (-1) }, [(noon, .admitted), (noon, .admitted)]⟩])
    (by decide +kernel) ?_
  rintro s - ⟨first, second, heap⟩
  refine ⟨first, second, _, heap ▸ List.mem_singleton_self _, rfl, ?_⟩
  rintro ⟨order, requests, answers⟩
  obtain rfl : order = List.replicate 2 noon := List.perm_replicate.mp requests
  exact absurd answers (by decide +kernel)

end

end NexusPipe.Proof.Api.Middleware
