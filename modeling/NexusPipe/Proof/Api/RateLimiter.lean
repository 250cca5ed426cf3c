import NexusPipe.Api.Middleware

namespace NexusPipe.Proof.Api
open Library NexusPipe.Api RateLimiter

variable {rl : RateLimiter} {rate window : Int} {ip ip' : String} {now t : Time} {v : Visitor}
  {events run : List LimiterEvent}

theorem allow_fresh (fresh : ∀ v, rl.visitors.lookup ip = some v → now.sub v.lastSeen > rl.window) :
    (rl.allow ip now).1.1 = true ∧
      (rl.allow ip now).2 = { rl with visitors := rl.visitors.insert ip ⟨1, now⟩ } := by
  unfold allow
  cases found : rl.visitors.lookup ip with
  | none => exact ⟨rfl, rfl⟩
  | some v =>
    simp only [if_pos (fresh v found)]
    trivial

theorem allow_counted (found : rl.visitors.lookup ip = some v)
    (recent : now.sub v.lastSeen ≤ rl.window) :
    ((rl.allow ip now).1.1 = true ↔ v.count + 1 ≤ rl.rate) ∧
      (rl.allow ip now).2 = { rl with visitors := rl.visitors.insert ip ⟨v.count + 1, now⟩ } := by
  unfold allow
  simp only [found, if_neg (not_lt.mpr recent)]
  by_cases exceeds : v.count + 1 > rl.rate
  · rw [if_pos exceeds]
    exact ⟨iff_of_false Bool.false_ne_true (not_le.mpr exceeds), rfl⟩
  · rw [if_neg exceeds]
    exact ⟨iff_of_true rfl (not_lt.mp exceeds), rfl⟩

theorem fresh_or_recent (rl : RateLimiter) (ip : String) (now : Time) :
    (∀ v, rl.visitors.lookup ip = some v → now.sub v.lastSeen > rl.window) ∨
      ∃ v, rl.visitors.lookup ip = some v ∧ now.sub v.lastSeen ≤ rl.window := by
  by_cases fresh : ∀ v, rl.visitors.lookup ip = some v → now.sub v.lastSeen > rl.window
  · exact .inl fresh
  · push Not at fresh
    exact .inr fresh

theorem apply_allow (rl : RateLimiter) (ip : String) (now : Time) :
    ∃ count, rl.apply (.allow ip now) =
      { rl with visitors := rl.visitors.insert ip ⟨count, now⟩ } := by
  rcases fresh_or_recent rl ip now with fresh | ⟨v, found, recent⟩
  · exact ⟨1, (allow_fresh fresh).2⟩
  · exact ⟨v.count + 1, (allow_counted found recent).2⟩

theorem lookup_apply_other (other : ip' ≠ ip) :
    (rl.apply (.allow ip' now)).visitors.lookup ip = rl.visitors.lookup ip := by
  obtain ⟨count, applied⟩ := apply_allow rl ip' now
  rw [applied, GoMap.lookup_insert_eq, if_neg (Ne.symm other)]

theorem lookup_cleanup (order : GoMap.RangeOrder String Visitor) (now : String → Time) (ip : String) :
    (rl.cleanup order now).visitors.lookup ip = (rl.visitors.lookup ip).filter fun v =>
      ¬ (now ip).sub v.lastSeen > toInt64 (rl.window * 2) :=
  (order rl.visitors).lookup_prune
    (fun ip v => (now ip).sub v.lastSeen > toInt64 (rl.window * 2)) ip

theorem apply_config (rl : RateLimiter) (e : LimiterEvent) :
    (rl.apply e).rate = rl.rate ∧ (rl.apply e).window = rl.window := by
  cases e with
  | allow ip now =>
    obtain ⟨count, applied⟩ := apply_allow rl ip now
    rw [applied]
    trivial
  | cleanup order now => exact ⟨rfl, rfl⟩

theorem after_config (rl : RateLimiter) (events : List LimiterEvent) :
    (rl.after events).rate = rl.rate ∧ (rl.after events).window = rl.window := by
  induction events generalizing rl with
  | nil => exact ⟨rfl, rfl⟩
  | cons e events ih =>
    obtain ⟨rate, window⟩ := ih (rl.apply e)
    exact ⟨rate.trans (apply_config rl e).1, window.trans (apply_config rl e).2⟩

theorem after_append (rl : RateLimiter) (events more : List LimiterEvent) :
    rl.after (events ++ more) = (rl.after events).after more := List.foldl_append

def requestTime (ip : String) : LimiterEvent → Option Time
  | .allow ip' now => if ip' = ip then some now else none
  | .cleanup _ _ => none

def requests (ip : String) (events : List LimiterEvent) : List Time :=
  events.filterMap (requestTime ip)

@[simp] theorem requests_nil : requests ip [] = [] := rfl

@[simp] theorem requests_allow : requests ip (.allow ip now :: events) = now :: requests ip events := by
  simp [requests, requestTime]

theorem requests_other (other : ip' ≠ ip) :
    requests ip (.allow ip' now :: events) = requests ip events := by
  simp [requests, requestTime, other]

@[simp] theorem requests_cleanup :
    requests ip (.cleanup order clock :: events) = requests ip events := rfl

theorem requests_append {more : List LimiterEvent} :
    requests ip (events ++ more) = requests ip events ++ requests ip more := List.filterMap_append

def lastRequest (ip : String) (t : Time) (events : List LimiterEvent) : Time :=
  (requests ip events).foldl (fun _ now => now) t

theorem lastRequest_append :
    lastRequest ip t (run ++ more) = lastRequest ip (lastRequest ip t run) more := by
  rw [lastRequest, requests_append, List.foldl_append]
  rfl

/-- After a request at `t`, no pause of the IP is longer than the window, and no cleanup forgets it. -/
def Unbroken (window : Int) (ip : String) : Time → List LimiterEvent → Prop
  | _, [] => True
  | t, .allow ip' now :: events =>
    if ip' = ip then now.sub t ≤ window ∧ Unbroken window ip now events
    else Unbroken window ip t events
  | t, .cleanup _ now :: events =>
    (now ip).sub t ≤ toInt64 (window * 2) ∧ Unbroken window ip t events

theorem unbroken_append : Unbroken window ip t (run ++ more) ↔
    Unbroken window ip t run ∧ Unbroken window ip (lastRequest ip t run) more := by
  induction run generalizing t with
  | nil => simp [Unbroken, lastRequest]
  | cons e run ih =>
    cases e with
    | allow ip' now =>
      by_cases same : ip' = ip
      · subst same
        simp [Unbroken, ih, lastRequest, and_assoc]
      · simp [Unbroken, same, ih, lastRequest, requests_other]
    | cleanup order now => simp [Unbroken, ih, lastRequest, and_assoc]

def Admitted (rl : RateLimiter) (ip : String) (events : List LimiterEvent) : Prop :=
  ∀ before now after, events = before ++ .allow ip now :: after →
    ((rl.after before).allow ip now).1.1 = true

theorem Admitted.tail (admitted : Admitted rl ip (e :: events)) : Admitted (rl.apply e) ip events := by
  rintro before now after rfl
  exact admitted (e :: before) now after rfl

theorem Admitted.count_le (admitted : Admitted rl ip run) (found : rl.visitors.lookup ip = some v)
    (unbroken : Unbroken rl.window ip v.lastSeen run) :
    requests ip run = [] ∨ v.count + (requests ip run).length ≤ rl.rate := by
  induction run generalizing rl v with
  | nil => exact .inl rfl
  | cons e run ih =>
    obtain ⟨rate, window⟩ := apply_config rl e
    have rest {v : Visitor} := ih (v := v) admitted.tail
    rw [rate, window] at rest
    cases e with
    | cleanup order now =>
      refine rest ?_ unbroken.2
      rw [apply, lookup_cleanup, found, Option.filter_some]
      simp [unbroken.1]
    | allow ip' now =>
      by_cases same : ip' = ip
      · subst same
        simp only [Unbroken, if_true] at unbroken
        obtain ⟨counts, applied⟩ := allow_counted found unbroken.1
        have bound := counts.mp (admitted [] now run rfl)
        have later := rest (v := ⟨v.count + 1, now⟩)
          (by rw [apply, applied, GoMap.lookup_insert_eq, if_pos rfl]) unbroken.2
        right
        rw [requests_allow, List.length_cons]
        rcases later with none | later
        · rw [none, List.length_nil]
          omega
        · simp only at later
          push_cast
          omega
      · simp only [Unbroken, if_neg same] at unbroken
        have later := rest (by rw [lookup_apply_other same, found]) unbroken
        rwa [requests_other same]

def CountsRun (window : Int) (ip : String) (events : List LimiterEvent) (v : Visitor) : Prop :=
  ∃ before t run, events = before ++ .allow ip t :: run ∧ Unbroken window ip t run ∧
    v.lastSeen = lastRequest ip t run ∧ v.count = (requests ip run).length + 1

theorem CountsRun.extend {v' : Visitor} (counts : CountsRun window ip events v)
    (goesOn : Unbroken window ip v.lastSeen [e]) (seen : v'.lastSeen = lastRequest ip v.lastSeen [e])
    (counted : v'.count = v.count + (requests ip [e]).length) :
    CountsRun window ip (events ++ [e]) v' := by
  obtain ⟨before, t, run, rfl, unbroken, last, count⟩ := counts
  refine ⟨before, t, run ++ [e], by simp, unbroken_append.mpr ⟨unbroken, last ▸ goesOn⟩, ?_, ?_⟩
  · rw [seen, last, lastRequest_append]
  · rw [counted, count, requests_append, List.length_append]
    push_cast
    omega

theorem apply_countsRun
    (counts : ∀ v, rl.visitors.lookup ip = some v → CountsRun rl.window ip events v)
    (found : (rl.apply e).visitors.lookup ip = some v) :
    CountsRun rl.window ip (events ++ [e]) v := by
  cases e with
  | cleanup order now =>
    rw [apply, lookup_cleanup, Option.filter_eq_some_iff] at found
    obtain ⟨known, kept⟩ := found
    rw [decide_eq_true_eq, not_lt] at kept
    exact (counts v known).extend ⟨kept, trivial⟩ rfl (by simp)
  | allow ip' now =>
    by_cases same : ip' = ip
    · subst same
      rcases fresh_or_recent rl ip' now with fresh | ⟨w, known, recent⟩
      · rw [apply, (allow_fresh fresh).2, GoMap.lookup_insert_eq, if_pos rfl] at found
        obtain rfl := Option.some.inj found
        exact ⟨events, now, [], rfl, trivial, rfl, rfl⟩
      · rw [apply, (allow_counted known recent).2, GoMap.lookup_insert_eq, if_pos rfl] at found
        obtain rfl := Option.some.inj found
        refine (counts w known).extend ?_ ?_ ?_
        · simpa [Unbroken] using recent
        · simp [lastRequest]
        · simp
    · rw [lookup_apply_other same] at found
      refine (counts v found).extend ?_ ?_ ?_
      · simp [Unbroken, same]
      · simp [lastRequest, requests_other same]
      · simp [requests_other same]

theorem after_countsRun
    (found : ((newRateLimiter rate window).after events).visitors.lookup ip = some v) :
    CountsRun window ip events v := by
  induction events using List.reverseRecOn generalizing v with
  | nil => simp [after, newRateLimiter] at found
  | append_singleton events e ih =>
    have window' : ((newRateLimiter rate window).after events).window = window :=
      (after_config _ events).2
    rw [after_append] at found
    have counts := apply_countsRun (fun w known => window'.symm ▸ ih known) found
    exact window' ▸ counts

def ShortRuns (rate window : Int) (ip : String) (events : List LimiterEvent) : Prop :=
  ∀ before t run after, events = before ++ .allow ip t :: (run ++ after) → Unbroken window ip t run →
    (requests ip run).length + 1 ≤ max rate 1

theorem shortRuns_of_admitted (admitted : Admitted (newRateLimiter rate window) ip events) :
    ShortRuns rate window ip events := by
  rintro before t run after rfl unbroken
  obtain ⟨count, found⟩ : ∃ count, ((newRateLimiter rate window).after
      (before ++ [.allow ip t])).visitors.lookup ip = some ⟨count, t⟩ := by
    obtain ⟨count, applied⟩ := apply_allow ((newRateLimiter rate window).after before) ip t
    refine ⟨count, ?_⟩
    rw [RateLimiter.after, List.foldl_concat, ← RateLimiter.after, applied, GoMap.lookup_insert_eq,
      if_pos rfl]
  -- the request that begins the run need not be the first one that was counted
  obtain ⟨-, -, earlier, -, -, -, positive⟩ := after_countsRun found
  have later : Admitted ((newRateLimiter rate window).after (before ++ [.allow ip t])) ip run := by
    rintro before' now after' rfl
    have here := admitted (before ++ [.allow ip t] ++ before') now (after' ++ after) (by simp)
    rw [after_append] at here
    exact here
  obtain ⟨rate', window'⟩ := after_config (newRateLimiter rate window) (before ++ [.allow ip t])
  have counted := later.count_le found (by rw [window']; exact unbroken)
  rw [rate'] at counted
  rcases counted with none | counted
  · rw [none, List.length_nil]
    omega
  · simp only [newRateLimiter] at counted positive
    omega

theorem admitted_of_shortRuns (short : ShortRuns rate window ip events) :
    Admitted (newRateLimiter rate window) ip events := by
  rintro before now after rfl
  obtain ⟨rate', window'⟩ := after_config (newRateLimiter rate window) before
  rcases fresh_or_recent ((newRateLimiter rate window).after before) ip now with
    fresh | ⟨v, found, recent⟩
  · exact (allow_fresh fresh).1
  · refine (allow_counted found recent).1.mpr ?_
    obtain ⟨before, t, run, rfl, unbroken, last, count⟩ := after_countsRun found
    have bound := short before t (run ++ [.allow ip now]) after (by simp)
      (unbroken_append.mpr ⟨unbroken, ?_⟩)
    · rw [requests_append, List.length_append] at bound
      simp only [requests_allow, requests_nil, List.length_cons, List.length_nil] at bound
      rw [rate', count]
      simp only [newRateLimiter]
      omega
    · rw [window', last] at recent
      simp only [Unbroken, if_true, and_true]
      exact recent

/-- No interval of the length of the window has more than `rate` of the times. -/
def Compliant (rate window : Int) (times : List Time) : Prop :=
  ∀ start : Int,
    (times.filter fun t => start ≤ t.instant ∧ t.instant ≤ start + window).length ≤ rate

theorem compliant_admitted_iff (rate window : Int) (ip : String) (events : List LimiterEvent) :
    (Compliant rate window (requests ip events) → Admitted (newRateLimiter rate window) ip events) ↔
      (Compliant rate window (requests ip events) → ShortRuns rate window ip events) :=
  imp_congr_right fun _ => ⟨shortRuns_of_admitted, admitted_of_shortRuns⟩

def steadyClient : List LimiterEvent :=
  [0, 40, 80].map fun seconds => .allow "10.0.0.1" ⟨seconds * second, .utc⟩

theorem steady_client_rejected : Compliant 2 minute (requests "10.0.0.1" steadyClient) ∧
      ¬ Admitted (newRateLimiter 2 minute) "10.0.0.1" steadyClient := by
  constructor
  · intro start
    have apart : ¬ (start ≤ 0 * second ∧ 80 * second ≤ start + minute) := by
      simp only [minute, second, millisecond, nanosecond]
      omega
    simp only [steadyClient, List.map_cons, List.map_nil, requests_allow, requests_nil, List.filter_cons,
      decide_eq_true_eq, List.filter_nil]
    split_ifs with first second third
    · exact absurd ⟨first.1, third.2⟩ apart
    all_goals simp
  · intro admitted
    have third := admitted (steadyClient.take 2) ⟨80 * second, .utc⟩ [] rfl
    have rejected : (((newRateLimiter 2 minute).after (steadyClient.take 2)).allow "10.0.0.1"
        ⟨80 * second, .utc⟩).1.1 = false := rfl
    exact Bool.false_ne_true (rejected.symm.trans third)

end NexusPipe.Proof.Api
