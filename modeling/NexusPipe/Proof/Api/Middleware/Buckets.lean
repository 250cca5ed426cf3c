import NexusPipe.Api.Middleware.Buckets
import NexusPipe.Proof.Go
import NexusPipe.Proof.Scheduler.Job
import Mathlib.Tactic.Linarith
import Mathlib.Tactic.Positivity

namespace NexusPipe.Proof.Api.Middleware.Buckets
open Library NexusPipe.Api.Middleware Buckets

variable {bucket : TokenBucket ℚ} {now created : Time} {rate : ℚ} {burst time later : Int}
  {closures : Nat} {s t : Buckets ℚ} {scope : Scope} {key : String}

def seconds (d : Int) : ℚ := d / second

def gain (bucket : TokenBucket ℚ) (now : Time) : ℚ :=
  seconds (now.sub bucket.lastRefill) * bucket.rate

structure Filled (rate : ℚ) (burst time : Int) (bucket : TokenBucket ℚ) : Prop where
  nonneg : 0 ≤ bucket.tokens
  capped : bucket.tokens ≤ burst
  rate : bucket.rate = rate
  burst : bucket.burst = burst
  past : bucket.lastRefill.instant ≤ time

theorem seconds_mono (le : d ≤ e) : seconds d ≤ seconds e := by
  unfold seconds
  gcongr
  decide

theorem refillBucket_rational (bucket : TokenBucket ℚ) (now : Time) :
    refillBucket rational bucket now =
      { bucket with tokens := min (bucket.burst : ℚ) (bucket.tokens + gain bucket now),
                    lastRefill := now } := by
  have capped (a b : ℚ) : (if rational.lt a b = true then a else b) = min a b := by
    by_cases lt : a < b
    · simp [rational, lt, lt.le]
    · simp [rational, lt, not_lt.mp lt]
  exact congrArg (fun tokens => { bucket with tokens := tokens, lastRefill := now }) (capped _ _)

theorem Filled.mono (filled : Filled rate burst time bucket) (le : time ≤ later) :
    Filled rate burst later bucket :=
  { filled with past := filled.past.trans le }

theorem gain_nonneg (positive : 0 < rate) (filled : Filled rate burst time bucket)
    (later : time ≤ now.instant) : 0 ≤ gain bucket now := by
  have forward : 0 ≤ now.sub bucket.lastRefill := by
    have past := filled.past
    unfold Time.sub
    omega
  have elapsed : 0 ≤ seconds (now.sub bucket.lastRefill) := by
    simpa [seconds] using seconds_mono forward
  rw [gain, filled.rate]
  positivity

theorem take_cases (bucket : TokenBucket ℚ) (now : Time) :
    let tokens := min (bucket.burst : ℚ) (bucket.tokens + gain bucket now)
    (tokens < 1 ∧ ∃ after, take rational bucket now =
      (.rejected after, { bucket with tokens := tokens, lastRefill := now })) ∨
    1 ≤ tokens ∧ take rational bucket now =
      (.admitted, { bucket with tokens := tokens - 1, lastRefill := now }) := by
  intro tokens
  unfold take
  have one : rational.ofInt 1 = 1 := Int.cast_one
  rw [refillBucket_rational, one]
  by_cases short : tokens < 1
  · exact .inl ⟨short, _, if_pos (decide_eq_true short)⟩
  · exact .inr ⟨not_lt.mp short, if_neg fun lt => short (of_decide_eq_true lt)⟩

theorem take_filled (positive : 0 < rate) (nonempty : 0 < burst)
    (filled : Filled rate burst time bucket) (later : time ≤ now.instant) :
    Filled rate burst now.instant (take rational bucket now).2 := by
  have gained := gain_nonneg positive filled later
  obtain ⟨held, -, rfl, rfl, -⟩ := filled
  have large : (0 : ℚ) ≤ bucket.burst := by exact_mod_cast nonempty.le
  have capped := min_le_left (bucket.burst : ℚ) (bucket.tokens + gain bucket now)
  rcases take_cases bucket now with ⟨short, after, taken⟩ | ⟨enough, taken⟩
  · rw [taken]
    exact ⟨le_min large (by linarith), capped, rfl, rfl, le_refl _⟩
  · rw [taken]
    exact ⟨by linarith, by linarith, rfl, rfl, le_refl _⟩

def Ordered : Int → List (TimedRequest ℚ closures) → Prop
  | _, [] => True
  | time, r :: rest => (∀ i, time ≤ (r.clock i).instant) ∧ Monotone (fun i => (r.clock i).instant) ∧
      ∃ later, (∀ i, (r.clock i).instant ≤ later) ∧ Ordered later rest

structure Alike (R : Int → Buckets ℚ → Buckets ℚ → Prop) : Prop where
  mono : ∀ {time later s t}, R time s t → time ≤ later → R later s t
  clean : ∀ {time s t order} {since now : Time}, R time s t → time ≤ now.instant →
    R now.instant (s.performCleanup order since now) (t.performCleanup order since now)
  take : ∀ {time s t} (target) {created now : Time}, R time s t → time ≤ created.instant →
    created.instant ≤ now.instant →
    (s.takeFrom rational created now target).1 = (t.takeFrom rational created now target).1 ∧
      R now.instant (s.takeFrom rational created now target).2
        (t.takeFrom rational created now target).2

section
variable (alike : Alike R) (related : R time s t)
include alike related

theorem serve_alike (stages : List Stage) (first : ∀ i, time ≤ (clock i).instant)
    (ordered : Monotone fun i => (clock i).instant) (last : ∀ i, (clock i).instant ≤ later) :
    (s.serve rational clock stages).1 = (t.serve rational clock stages).1 ∧
      R later (s.serve rational clock stages).2 (t.serve rational clock stages).2 := by
  induction stages generalizing s t time clock with
  | nil => exact ⟨rfl, alike.mono related ((first 0).trans (last 0))⟩
  | cons stage stages ih =>
    obtain ⟨same, next⟩ := alike.take stage.target related (first 0) (ordered zero_le_one)
    rw [serve, serve]
    generalize s.takeFrom rational (clock 0) (clock 1) stage.target = left at same next
    generalize t.takeFrom rational (clock 0) (clock 1) stage.target = right at same next
    obtain ⟨answer, s'⟩ := left
    obtain ⟨_, t'⟩ := right
    cases same
    cases answer with
    | rejected => exact ⟨rfl, alike.mono next (last 1)⟩
    | admitted =>
      exact ih next (fun i => ordered (by omega)) (fun i j le => ordered (by omega)) fun i => last _

theorem request_alike {r : TimedRequest ℚ closures} (first : ∀ i, time ≤ (r.clock i).instant)
    (ordered : Monotone fun i => (r.clock i).instant) (last : ∀ i, (r.clock i).instant ≤ later) :
    (s.request rational r).1 = (t.request rational r).1 ∧
      R later (s.request rational r).2 (t.request rational r).2 := by
  have shifted : Monotone fun i => (r.clock (i + 2)).instant := fun i j le => ordered (by omega)
  unfold request
  cases r.handler with
  | globalRateLimit =>
    exact serve_alike alike related _ (fun i => first _) shifted fun i => last _
  | ipRateLimit | userRateLimit | rateLimit =>
    exact serve_alike alike (alike.clean related (first 1)) _ (fun i => ordered (by omega)) shifted
      fun i => last _

theorem requests_alike {requests : List (TimedRequest ℚ closures)}
    (ordered : Ordered time requests) :
    (s.requests rational requests).1 = (t.requests rational requests).1 ∧
      ∃ later, R later (s.requests rational requests).2 (t.requests rational requests).2 := by
  induction requests generalizing s t time with
  | nil => exact ⟨rfl, time, related⟩
  | cons r rest ih =>
    obtain ⟨first, monotone, later, last, ordered⟩ := ordered
    obtain ⟨same, next⟩ := request_alike alike related first monotone last
    obtain ⟨equal, rest⟩ := ih next ordered
    exact ⟨congrArg₂ List.cons same equal, rest⟩

end

structure Settled (rates : Scope → ℚ) (bursts : Scope → Int) (time : Int) (s : Buckets ℚ) :
    Prop where
  never : s.limiter.cleanupInterval = 2 ^ 63
  new : ∀ created scope, s.limiter.newBucket rational created scope =
    ⟨bursts scope, created, rates scope, bursts scope⟩
  filled : ∀ scope key, ∀ bucket ∈ (s.keyed scope).lookup key,
    Filled (rates scope) (bursts scope) time bucket

theorem performCleanup_lookup {since : Time}
    (due : ¬ since.sub s.limiter.lastCleanup < s.limiter.cleanupInterval) :
    ((s.performCleanup order since now).keyed scope).lookup key =
      ((s.keyed scope).lookup key).filter fun bucket =>
        ¬ bucket.lastRefill.before (now.add (toInt64 (-2 * s.limiter.cleanupInterval))) := by
  rw [performCleanup, if_neg due]
  exact (order scope (s.keyed scope)).lookup_prune (fun _ bucket => bucket.lastRefill.before _) key

theorem performCleanup_of_unevicted (never : s.limiter.cleanupInterval = 2 ^ 63) :
    s.performCleanup order since now = s := by
  refine if_pos ?_
  rw [never, Time.sub]
  omega

def bucketOf (s : Buckets ℚ) (scope : Scope) (key : String) (created : Time) : TokenBucket ℚ :=
  ((s.keyed scope).lookup key).getD (s.limiter.newBucket rational created scope)

theorem takeKeyed_lookup (s : Buckets ℚ) (scope other : Scope) (key key' : String)
    (created now : Time) :
    ((s.takeKeyed rational scope key created now).2.keyed other).lookup key' =
      if other = scope ∧ key' = key then some (take rational (bucketOf s scope key created) now).2
      else (s.keyed other).lookup key' := by
  by_cases same : other = scope
  · subst same
    simp [takeKeyed, GoMap.lookup_insert_eq, bucketOf]
  · simp [takeKeyed, same]

section
variable (settled : Settled rates bursts time s)
include settled

theorem Settled.mono (le : time ≤ later) : Settled rates bursts later s :=
  ⟨settled.never, settled.new, fun scope key bucket found =>
    (settled.filled scope key bucket found).mono le⟩

theorem bucketOf_filled (nonempty : 0 < bursts scope) (key : String)
    (later : time ≤ created.instant) :
    Filled (rates scope) (bursts scope) created.instant (bucketOf s scope key created) := by
  rw [bucketOf]
  cases found : (s.keyed scope).lookup key with
  | none =>
    rw [Option.getD_none, settled.new]
    exact ⟨Int.cast_nonneg nonempty.le, le_refl _, rfl, rfl, le_refl _⟩
  | some bucket => exact (settled.filled scope key bucket found).mono later

theorem takeKeyed_settled (positive : 0 < rates scope) (nonempty : 0 < bursts scope) (key : String)
    (later : time ≤ created.instant) (forward : created.instant ≤ now.instant) :
    Settled rates bursts now.instant (s.takeKeyed rational scope key created now).2 := by
  refine ⟨settled.never, settled.new, fun other key' bucket found => ?_⟩
  rw [takeKeyed_lookup] at found
  split_ifs at found with same
  · cases found
    rw [same.1]
    exact take_filled positive nonempty (bucketOf_filled settled nonempty key later) forward
  · exact (settled.filled other key' bucket found).mono (later.trans forward)

end

def moment (t : Time) : ℚ := seconds t.instant

def budget (first length : ℚ) (bucket : TokenBucket ℚ) : ℚ :=
  if moment bucket.lastRefill < first then bucket.burst + length * bucket.rate
  else if moment bucket.lastRefill ≤ first + length then
    bucket.tokens + (first + length - moment bucket.lastRefill) * bucket.rate
  else 0

variable {first length : ℚ}

theorem gain_le (positive : 0 < rate) (filled : Filled rate burst time bucket)
    (later : time ≤ now.instant) :
    gain bucket now ≤ (moment now - moment bucket.lastRefill) * rate := by
  have saturated : now.sub bucket.lastRefill ≤ now.instant - bucket.lastRefill.instant := by
    have past := filled.past
    unfold Time.sub
    omega
  have elapsed : seconds (now.instant - bucket.lastRefill.instant) =
      moment now - moment bucket.lastRefill := by
    simp only [seconds, moment, Int.cast_sub, sub_div]
  rw [gain, filled.rate, ← elapsed]
  exact mul_le_mul_of_nonneg_right (seconds_mono saturated) positive.le

section
variable (positive : 0 < rate) (nonempty : 0 < burst) (long : 0 ≤ length)
include positive long

theorem budget_nonneg (first : ℚ) (filled : Filled rate burst time bucket) (nonempty : 0 < burst) :
    0 ≤ budget first length bucket := by
  obtain ⟨held, -, rfl, rfl, -⟩ := filled
  have large : (0 : ℚ) < bucket.burst := Int.cast_pos.mpr nonempty
  unfold budget
  split_ifs with before within
  · positivity
  · have left : 0 ≤ first + length - moment bucket.lastRefill := sub_nonneg.mpr within
    positivity
  · exact le_refl 0

theorem budget_le (filled : Filled rate burst time bucket) (nonempty : 0 < burst) :
    budget first length bucket ≤ burst + length * rate := by
  obtain ⟨held, capped, rfl, rfl, -⟩ := filled
  have large : (0 : ℚ) < bucket.burst := Int.cast_pos.mpr nonempty
  unfold budget
  split_ifs with before within
  · exact le_refl _
  · have since : 0 ≤ (moment bucket.lastRefill - first) * bucket.rate :=
      mul_nonneg (sub_nonneg.mpr (not_lt.mp before)) positive.le
    linarith
  · positivity

theorem take_budget (first : ℚ) (filled : Filled rate burst time bucket) (nonempty : 0 < burst)
    (later : time ≤ now.instant) :
    budget first length (take rational bucket now).2 +
        (if (take rational bucket now).1 = .admitted ∧ first ≤ moment now ∧
          moment now ≤ first + length then 1 else 0) ≤
      budget first length bucket := by
  have gained := gain_le positive filled later
  have enough := budget_nonneg positive long first filled nonempty
  have order : moment bucket.lastRefill ≤ moment now := seconds_mono (filled.past.trans later)
  obtain ⟨-, -, rfl, rfl, -⟩ := filled
  set tokens := min (bucket.burst : ℚ) (bucket.tokens + gain bucket now) with refilled
  have capped : tokens ≤ bucket.burst := min_le_left _ _
  have held : tokens ≤ bucket.tokens + gain bucket now := min_le_right _ _
  have moved (left : ℚ) :
      budget first length { bucket with tokens := left, lastRefill := now } +
          (if first ≤ moment now ∧ moment now ≤ first + length then tokens - left else 0) ≤
        budget first length bucket := by
    rcases lt_or_ge (moment now) first with before | since
    · rw [budget, if_pos before, budget, if_pos (order.trans_lt before),
        if_neg fun inside => not_le.mpr before inside.1, add_zero]
    · rcases le_or_gt (moment now) (first + length) with within | past
      · have passed := mul_nonneg (sub_nonneg.mpr since) positive.le
        rw [budget, if_neg (not_lt.mpr since), if_pos within, if_pos ⟨since, within⟩, budget]
        split_ifs with earlier inside
        · dsimp only
          linarith
        · dsimp only
          linarith
        · exact absurd (order.trans within) inside
      · rw [budget, if_neg (not_lt.mpr since), if_neg (not_le.mpr past),
          if_neg fun inside => not_le.mpr past inside.2, add_zero]
        exact enough
  rcases take_cases bucket now with ⟨-, after, taken⟩ | ⟨-, taken⟩
  · rw [taken]
    simpa [← refilled] using moved tokens
  · rw [taken]
    simpa [← refilled] using moved (tokens - 1)

end

theorem request_ip {r : TimedRequest ℚ closures} (never : s.limiter.cleanupInterval = 2 ^ 63)
    (handler : r.handler = .ipRateLimit) : ((s.request rational r).1 = .next ↔
      (take rational (bucketOf s .ip r.clientIP (r.clock 2)) (r.clock 3)).1 = .admitted) ∧
    (s.request rational r).2 = (s.takeKeyed rational .ip r.clientIP (r.clock 2) (r.clock 3)).2 := by
  have answer : (s.takeKeyed rational .ip r.clientIP (r.clock 2) (r.clock 3)).1 =
      (take rational (bucketOf s .ip r.clientIP (r.clock 2)) (r.clock 3)).1 := rfl
  simp only [request, handler, Handler.enter, performCleanup_of_unevicted never,
    serve, takeFrom, ← answer]
  generalize s.takeKeyed rational .ip r.clientIP (r.clock 2) (r.clock 3) = taken
  obtain ⟨answer, s'⟩ := taken
  cases answer <;> simp

def AdmittedIn (first length : ℚ) (call : TimedRequest ℚ closures × Response ℚ) : Bool :=
  call.2 = .next ∧ first ≤ moment (call.1.clock 3) ∧ moment (call.1.clock 3) ≤ first + length

section
variable {rates : Scope → ℚ} {bursts : Scope → Int} (positive : 0 < rates .ip)
  (nonempty : 0 < bursts .ip)
include positive nonempty

theorem requests_settled {requests : List (TimedRequest ℚ closures)}
    (settled : Settled rates bursts time s) (ordered : Ordered time requests)
    (client : ∀ r ∈ requests, r.handler = .ipRateLimit ∧ r.clientIP = ip) :
    ∃ later, Settled rates bursts later (s.requests rational requests).2 := by
  induction requests generalizing s time with
  | nil => exact ⟨time, settled⟩
  | cons r rest ih =>
    obtain ⟨first, monotone, later, last, ordered⟩ := ordered
    have served := request_ip settled.never (client r List.mem_cons_self).1
    have next := takeKeyed_settled settled positive nonempty r.clientIP (first 2)
      (monotone (by decide : 2 ≤ 3))
    rw [← served.2] at next
    exact ih (next.mono (last 3)) ordered fun r member => client r (List.mem_cons_of_mem _ member)

theorem admitted_le {requests : List (TimedRequest ℚ closures)} (long : 0 ≤ length)
    (settled : Settled rates bursts time s) (ordered : Ordered time requests)
    (client : ∀ r ∈ requests, r.handler = .ipRateLimit ∧ r.clientIP = ip)
    (enough : ∀ created, time ≤ created.instant →
      budget first length (bucketOf s .ip ip created) ≤ bound) :
    ((requests.zip (s.requests rational requests).1).countP (AdmittedIn first length) : ℚ) ≤
      bound := by
  induction requests generalizing s time bound with
  | nil =>
    refine le_trans ?_ (enough ⟨time, .utc⟩ (le_refl time))
    exact budget_nonneg positive long first (bucketOf_filled settled nonempty ip (le_refl time))
      nonempty
  | cons r rest ih =>
    obtain ⟨start, monotone, later, last, ordered⟩ := ordered
    obtain ⟨handler, rfl⟩ := client r List.mem_cons_self
    have forward : (r.clock 2).instant ≤ (r.clock 3).instant := monotone (by decide : 2 ≤ 3)
    obtain ⟨admitted, served⟩ := request_ip settled.never handler
    have filled := bucketOf_filled settled nonempty r.clientIP (start 2)
    have paid := take_budget positive long first filled nonempty forward
    have next := takeKeyed_settled settled positive nonempty r.clientIP (start 2) forward
    rw [← served] at next
    set bucket := bucketOf s .ip r.clientIP (r.clock 2)
    have left (created : Time) : bucketOf (s.request rational r).2 .ip r.clientIP created =
        (take rational bucket (r.clock 3)).2 := by
      rw [served, bucketOf, takeKeyed_lookup, if_pos ⟨rfl, rfl⟩, Option.getD_some]
    have rest := ih (next.mono (last 3)) ordered
      (fun r member => client r (List.mem_cons_of_mem _ member))
      fun created _ => (congrArg (budget first length) (left created)).le
    have enough := enough (r.clock 2) (start 2)
    rw [Buckets.requests, List.zip_cons_cons, List.countP_cons]
    simp only [AdmittedIn, admitted, decide_eq_true_eq]
    push_cast
    linarith

end

def rateOf (limiter : RateLimiter ℚ) : Scope → ℚ
  | .ip => limiter.ipRate
  | .user => limiter.userRate

def burstOf (limiter : RateLimiter ℚ) : Scope → Int
  | .ip => limiter.ipBurst
  | .user => limiter.userBurst

theorem start_settled (config : RateLimiterConfig ℚ) (created : Time) (time : Int) :
    let limiter := newRateLimiter rational config created
    Settled (rateOf limiter) (burstOf limiter) time
      (start rational config created).unevicted := by
  refine ⟨rfl, fun created scope => ?_, fun scope key bucket found => by cases found⟩
  cases scope <;> rfl

theorem given_rate (positive : 0 < given) (default : Int) :
    (if rational.eq given (rational.ofInt 0) then rational.ofInt default else given) = given :=
  if_neg (by simp [rational, positive.ne'])

theorem ip_requests_bounded (config : RateLimiterConfig ℚ) (positive : 0 < config.IPRate)
    (nonempty : 0 < config.IPBurst) (created : Time) (ip : String)
    {requests : List (TimedRequest ℚ closures)} (ordered : Ordered time requests)
    (client : ∀ r ∈ requests, r.handler = .ipRateLimit ∧ r.clientIP = ip) :
    let s := (start rational config created).unevicted
    (∀ bucket ∈ ((s.requests rational requests).2.keyed .ip).lookup ip,
      0 ≤ bucket.tokens ∧ bucket.tokens ≤ config.IPBurst) ∧
    ∀ first length : ℚ, 0 ≤ length →
      ((requests.zip (s.requests rational requests).1).countP (AdmittedIn first length) : ℚ) ≤
        config.IPBurst + config.IPRate * length := by
  intro s
  have settled := start_settled config created time
  have rate : rateOf (newRateLimiter rational config created) .ip = config.IPRate :=
    given_rate positive 10
  have burst : burstOf (newRateLimiter rational config created) .ip = config.IPBurst :=
    if_neg nonempty.ne'
  rw [← rate] at positive ⊢
  rw [← burst] at nonempty ⊢
  refine ⟨fun bucket found => ?_, fun first length long => ?_⟩
  · obtain ⟨later, settled⟩ := requests_settled positive nonempty settled ordered client
    have filled := settled.filled .ip ip bucket found
    exact ⟨filled.nonneg, filled.capped⟩
  · rw [mul_comm]
    exact admitted_le positive nonempty long settled ordered client fun created later =>
      budget_le positive long (bucketOf_filled settled nonempty ip later) nonempty

def sampleRequest (instant : Int) : TimedRequest ℚ 0 where
  handler := .ipRateLimit
  clientIP := "a"
  userID := ""
  clock _ := ⟨instant, .utc⟩
  order _ := GoMap.ascending Scheduler.textRank Scheduler.textRank_injective

def hourly : RateLimiterConfig ℚ := ⟨1, 1, 1 / 3600, 1, 1, 1, 5 * minute⟩

theorem sample_ordered (time : Int) (instants : List Int) (sorted : instants.Pairwise (· ≤ ·))
    (first : ∀ instant ∈ instants, time ≤ instant) : Ordered time (instants.map sampleRequest) := by
  induction instants generalizing time with
  | nil => trivial
  | cons instant instants ih =>
    obtain ⟨least, sorted⟩ := List.pairwise_cons.mp sorted
    exact ⟨fun _ => first instant List.mem_cons_self, fun _ _ _ => le_refl _, instant,
      fun _ => le_refl _, ih instant sorted least⟩

theorem ip_requests_bounded_sample :
    let s := (start rational hourly ⟨0, .utc⟩).unevicted
    let requests := [0, 10 * minute + 1].map sampleRequest
    ((requests.zip (s.requests rational requests).1).countP (AdmittedIn 0 601) : ℚ) ≤
      1 + 1 / 3600 * 601 := by
  have bounded := (ip_requests_bounded hourly (by norm_num [hourly]) (by decide) ⟨0, .utc⟩ "a"
    (sample_ordered 0 [0, 10 * minute + 1] (by decide) (by decide))
    (by simp [sampleRequest])).2 0 601 (by norm_num)
  simpa [hourly] using bounded

def Refills (rates : Scope → ℚ) (bursts : Scope → Int) (interval : Int) : Prop :=
  0 < interval ∧ 2 * interval ≤ 2 ^ 63 ∧ ∀ scope,
    (bursts scope : ℚ) ≤ seconds (min (2 * interval + 1) (2 ^ 63 - 1)) * rates scope

def Brim (time : Int) (bucket : TokenBucket ℚ) : Prop :=
  ∀ now : Time, time ≤ now.instant → (bucket.burst : ℚ) ≤ bucket.tokens + gain bucket now

structure Related (rates : Scope → ℚ) (bursts : Scope → Int) (time : Int) (s t : Buckets ℚ) :
    Prop where
  settled : Settled rates bursts time t
  refills : Refills rates bursts s.limiter.cleanupInterval
  new : s.limiter.newBucket rational = t.limiter.newBucket rational
  closures : s.closures = t.closures
  keyed : ∀ scope key, (s.keyed scope).lookup key = (t.keyed scope).lookup key ∨
    (s.keyed scope).lookup key = none ∧ ∃ bucket ∈ (t.keyed scope).lookup key, Brim time bucket

theorem refillBucket_full (filled : Filled rate burst time bucket)
    (full : (burst : ℚ) ≤ bucket.tokens + gain bucket now) :
    refillBucket rational bucket now = ⟨burst, now, rate, burst⟩ := by
  obtain ⟨-, -, rfl, rfl, -⟩ := filled
  rw [refillBucket_rational, min_eq_left full]

section
variable {rates : Scope → ℚ} {bursts : Scope → Int} (positive : ∀ scope, 0 < rates scope)
  (nonempty : ∀ scope, 0 < bursts scope)

theorem brim_of_idle (positive : 0 < rates scope) (refills : Refills rates bursts interval)
    (filled : Filled (rates scope) (bursts scope) time bucket)
    (idle : bucket.lastRefill.before (now.add (toInt64 (-2 * interval)))) :
    Brim now.instant bucket := by
  obtain ⟨some, wide, refills⟩ := refills
  intro later after
  have unwrapped : toInt64 (-2 * interval) = -2 * interval :=
    toInt64_eq_self (by omega) (by omega)
  have long : min (2 * interval + 1) (2 ^ 63 - 1) ≤ later.sub bucket.lastRefill := by
    simp only [Time.before, Time.add, unwrapped, decide_eq_true_eq] at idle
    unfold Time.sub
    omega
  have gained : (bursts scope : ℚ) ≤ gain bucket later := by
    rw [gain, filled.rate]
    exact (refills scope).trans (mul_le_mul_of_nonneg_right (seconds_mono long) positive.le)
  have held := filled.nonneg
  rw [filled.burst]
  linarith

theorem Related.mono (related : Related rates bursts time s t) (le : time ≤ later) :
    Related rates bursts later s t where
  settled := related.settled.mono le
  refills := related.refills
  new := related.new
  closures := related.closures
  keyed scope key := (related.keyed scope key).imp_right fun ⟨absent, bucket, found, brim⟩ =>
    ⟨absent, bucket, found, fun now after => brim now (le.trans after)⟩

include positive

theorem related_clean (related : Related rates bursts time s t) (later : time ≤ now.instant) :
    Related rates bursts now.instant (s.performCleanup order since now)
      (t.performCleanup order since now) := by
  have moved := related.mono later
  rw [performCleanup_of_unevicted related.settled.never]
  by_cases due : since.sub s.limiter.lastCleanup < s.limiter.cleanupInterval
  · rwa [performCleanup, if_pos due]
  · have cleaned : (s.performCleanup order since now).limiter =
        { s.limiter with lastCleanup := now } := by
      rw [performCleanup, if_neg due]
    have closures : (s.performCleanup order since now).closures = s.closures := by
      rw [performCleanup, if_neg due]
    refine ⟨moved.settled, by rw [cleaned]; exact moved.refills, ?_,
      closures.trans moved.closures, fun scope key => ?_⟩
    · rw [cleaned, ← moved.new]
      funext created scope
      cases scope <;> rfl
    · rw [performCleanup_lookup due]
      rcases moved.keyed scope key with same | ⟨absent, present⟩
      · rw [same]
        cases found : (t.keyed scope).lookup key with
        | none => exact .inl rfl
        | some bucket =>
          by_cases idle : bucket.lastRefill.before
              (now.add (toInt64 (-2 * s.limiter.cleanupInterval)))
          · have filled := moved.settled.filled scope key bucket found
            refine .inr ⟨?_, bucket, rfl,
              brim_of_idle (positive scope) related.refills filled idle⟩
            simp only [Option.filter, idle, not_true_eq_false, decide_false]
            rfl
          · left
            simp only [Option.filter, idle]
            rfl
      · rw [absent]
        exact .inr ⟨rfl, present⟩

include nonempty

theorem take_related (related : Related rates bursts time s t) (scope : Scope) (key : String)
    (later : time ≤ created.instant) (forward : created.instant ≤ now.instant) :
    take rational (bucketOf s scope key created) now =
      take rational (bucketOf t scope key created) now := by
  rcases related.keyed scope key with same | ⟨absent, bucket, found, brim⟩
  · rw [bucketOf, bucketOf, same, related.new]
  · have filled := bucketOf_filled related.settled (nonempty scope) key later
    have old : bucketOf t scope key created = bucket := by rw [bucketOf, found, Option.getD_some]
    have new : bucketOf s scope key created =
        ⟨bursts scope, created, rates scope, bursts scope⟩ := by
      rw [bucketOf, absent, Option.getD_none, related.new, related.settled.new]
    have full := brim now (later.trans forward)
    rw [old] at filled ⊢
    rw [filled.burst] at full
    have fresh : Filled (rates scope) (bursts scope) created.instant
        (⟨bursts scope, created, rates scope, bursts scope⟩ : TokenBucket ℚ) :=
      ⟨Int.cast_nonneg (nonempty scope).le, le_refl _, rfl, rfl, le_refl _⟩
    have gained := gain_nonneg (positive scope) fresh forward
    rw [new, take, take, refillBucket_full filled full,
      refillBucket_full fresh (le_add_of_nonneg_right gained)]

theorem related_takeKeyed (related : Related rates bursts time s t) (scope : Scope) (key : String)
    (later : time ≤ created.instant) (forward : created.instant ≤ now.instant) :
    (s.takeKeyed rational scope key created now).1 =
      (t.takeKeyed rational scope key created now).1 ∧
    Related rates bursts now.instant (s.takeKeyed rational scope key created now).2
      (t.takeKeyed rational scope key created now).2 := by
  have same := take_related positive nonempty related scope key later forward
  have answer : (take rational (bucketOf s scope key created) now).1 =
      (take rational (bucketOf t scope key created) now).1 := congrArg Prod.fst same
  have moved := related.mono (later.trans forward)
  refine ⟨answer, takeKeyed_settled related.settled (positive scope)
    (nonempty scope) key later forward, moved.refills, moved.new, moved.closures,
    fun other key' => ?_⟩
  rw [takeKeyed_lookup, takeKeyed_lookup, same]
  split_ifs
  · exact .inl rfl
  · exact moved.keyed other key'

theorem related_alike : Alike (Related rates bursts) where
  mono := Related.mono
  clean related later := related_clean positive related later
  take := by
    intro time s t target created now related later forward
    cases target with
    | global closure =>
      have moved := related.mono (later.trans forward)
      have same : s.closures closure = t.closures closure := congrFun related.closures closure
      simp only [takeFrom, same]
      exact ⟨trivial, ⟨moved.settled.never, moved.settled.new, moved.settled.filled⟩, moved.refills,
        moved.new, congrArg (Function.update · closure _) moved.closures, moved.keyed⟩
    | ip key => exact related_takeKeyed positive nonempty related .ip key later forward
    | user key => exact related_takeKeyed positive nonempty related .user key later forward

end

structure Positive (config : RateLimiterConfig ℚ) : Prop where
  ipRate : 0 < config.IPRate
  ipBurst : 0 < config.IPBurst
  userRate : 0 < config.UserRate
  userBurst : 0 < config.UserBurst
  cleanupInterval : 0 < config.CleanupInterval

/-- What a bucket gains while it is idle for long enough to be evicted. The code computes
`-2 * rl.cleanupInterval`, and that must not wrap around. -/
def idleGain (config : RateLimiterConfig ℚ) (rate : ℚ) : ℚ :=
  seconds (min (2 * config.CleanupInterval + 1) (2 ^ 63 - 1)) * rate

theorem eviction_unobservable (config : RateLimiterConfig ℚ) (positive : Positive config)
    (fits : 2 * config.CleanupInterval ≤ 2 ^ 63)
    (ip : (config.IPBurst : ℚ) ≤ idleGain config config.IPRate)
    (user : (config.UserBurst : ℚ) ≤ idleGain config config.UserRate) (created : Time)
    {requests : List (TimedRequest ℚ closures)} (ordered : Ordered time requests) :
    ((Buckets.start rational config created).requests rational requests).1 =
      ((Buckets.start rational config created).unevicted.requests rational requests).1 := by
  have settled := start_settled config created time
  let rl := newRateLimiter rational config created
  have ipRate : rateOf rl .ip = config.IPRate :=
    given_rate positive.ipRate 10
  have ipBurst : burstOf rl .ip = config.IPBurst :=
    if_neg positive.ipBurst.ne'
  have userRate : rateOf rl .user = config.UserRate :=
    given_rate positive.userRate 100
  have userBurst : burstOf rl .user = config.UserBurst :=
    if_neg positive.userBurst.ne'
  have interval : rl.cleanupInterval = config.CleanupInterval :=
    if_neg positive.cleanupInterval.ne'
  have rates : ∀ scope, 0 < rateOf rl scope := by
    intro scope
    cases scope with
    | ip => exact ipRate.symm ▸ positive.ipRate
    | user => exact userRate.symm ▸ positive.userRate
  have bursts : ∀ scope, 0 < burstOf rl scope := by
    intro scope
    cases scope with
    | ip => exact ipBurst.symm ▸ positive.ipBurst
    | user => exact userBurst.symm ▸ positive.userBurst
  have related : Related (rateOf rl) (burstOf rl) time (start rational config created)
      (start rational config created).unevicted := by
    refine ⟨settled, ?_, ?_, rfl, fun _ _ => .inl rfl⟩
    · change Refills _ _ rl.cleanupInterval
      rw [interval]
      refine ⟨positive.cleanupInterval, fits, fun scope => ?_⟩
      cases scope with
      | ip => rwa [ipRate, ipBurst]
      | user => rwa [userRate, userBurst]
    · funext created scope
      cases scope <;> rfl
  exact (requests_alike (related_alike rates bursts) related ordered).1

def frequent : RateLimiterConfig ℚ := ⟨1, 1, 1, 5, 1, 5, 5 * minute⟩

theorem eviction_unobservable_sample :
    let s := start rational frequent ⟨0, .utc⟩
    let requests := [0, 10 * minute + 1].map sampleRequest
    (s.requests rational requests).1 = (s.unevicted.requests rational requests).1 :=
  have enough : (5 : ℚ) ≤ idleGain frequent 1 := by
    norm_num [idleGain, seconds, frequent, minute, second, millisecond, nanosecond]
  eviction_unobservable frequent ⟨by norm_num [frequent], by decide, by norm_num [frequent],
    by decide, by decide⟩ (by decide) enough enough ⟨0, .utc⟩
    (sample_ordered 0 [0, 10 * minute + 1] (by decide) (by decide))

theorem eviction_admits :
    let s := start rational hourly ⟨0, .utc⟩
    let requests := [0, 10 * minute + 1].map sampleRequest
    (s.requests rational requests).1 = [.next, .next] ∧
      (s.unevicted.requests rational requests).1 ≠ [.next, .next] := by
  decide +kernel

end NexusPipe.Proof.Api.Middleware.Buckets
