import Mathlib.Data.Int.ConditionallyCompleteOrder
import Mathlib.Data.Int.Interval
import NexusPipe.Library.Except
import NexusPipe.Library.NextSearch
import NexusPipe.Scheduler.Cron

namespace NexusPipe.Proof.Scheduler
open Library NexusPipe.Scheduler

theorem parseCronExpression_eq_ok :
    parseCronExpression host expr = .ok schedule ↔ host.parse .standard expr = .ok schedule := by
  rw [parseCronExpression]
  split_ifs with empty
  · simp [empty, Host.parse]
  · exact mapError_eq_ok

section
variable {schedule : Cron.Schedule} {untilTime : Time}

theorem countRound_found (found : schedule.after (schedule.zone loc) t = some n)
    (within : n ≤ untilTime.instant) :
    countRound schedule untilTime (count, ⟨t, loc⟩) = .inl (count + 1, ⟨n, loc⟩) := by
  simp [countRound, Cron.Schedule.next, found, Time.after, not_lt.mpr within]

theorem countRound_past (found : schedule.after (schedule.zone loc) t = some n)
    (beyond : untilTime.instant < n) :
    countRound schedule untilTime (count, ⟨t, loc⟩) = .inr (count, ⟨n, loc⟩) := by
  simp [countRound, Cron.Schedule.next, found, Time.after, beyond]

theorem countRound_lost (lost : schedule.after (schedule.zone loc) t = none)
    (within : 0 ≤ untilTime.instant) :
    countRound schedule untilTime (count, ⟨t, loc⟩) = .inl (count + 1, .zero) := by
  simp [countRound, Cron.Schedule.next, lost, Time.after, Time.zero, not_lt.mpr within]

theorem countRound_lost_past (lost : schedule.after (schedule.zone loc) t = none)
    (beyond : untilTime.instant < 0) :
    countRound schedule untilTime (count, ⟨t, loc⟩) = .inr (count, .zero) := by
  simp [countRound, Cron.Schedule.next, lost, Time.after, Time.zero, beyond]

theorem rounds_of_hops (hops : Hops (schedule.after (schedule.zone loc)) untilTime.instant k t u)
    (count : Nat) :
    Rounds (countRound schedule untilTime) k (count, ⟨t, loc⟩) (count + k, ⟨u, loc⟩) := by
  induction hops generalizing count with
  | refl t => exact .refl _
  | head found within rest ih =>
    have path := ih (count + 1)
    rw [Nat.add_right_comm, Nat.add_assoc] at path
    exact .head (countRound_found found within) path

theorem returns_of_covered (searches : Searches (schedule.after (schedule.zone loc)) limit A t)
    (covered : Covered limit A t untilTime.instant) (ordered : t ≤ untilTime.instant)
    (count : Nat) : ∃ n, IsLeast (A ∩ Set.Ioi untilTime.instant) n ∧
      ∀ result, Returns (countRound schedule untilTime) (count, ⟨t, loc⟩) result ↔
        result = (count + (A ∩ Set.Ioc t untilTime.instant).ncard, ⟨n, loc⟩) := by
  obtain ⟨u, n, hops, found, least⟩ := covered.hops searches ordered
  refine ⟨n, least, fun result => ?_⟩
  rw [(rounds_of_hops hops count).returns_iff]
  exact returns_of_inr (countRound_past found least.1.2)

theorem not_returns_of_gap (searches : Searches (schedule.after (schedule.zone .utc)) limit A 0)
    (uncovered : ¬ Covered limit A 0 untilTime.instant) (late : 0 ≤ untilTime.instant)
    (count : Nat) (result : Nat × Time) :
    ¬ Returns (countRound schedule untilTime) (count, .zero) result := by
  obtain ⟨gap, stuck, hops, lost⟩ := Stuck.exists_hops searches uncovered
  have endless (fuel : Nat) : loopFor (countRound schedule untilTime) fuel (count, .zero) = none := by
    apply loopFor_eq_none_of_progress (fun s => s.2 = .zero) _ rfl
    rintro ⟨count, next⟩ rfl
    have path := rounds_of_hops hops count
    exact ⟨_, _, Nat.succ_pos _, path.trans (.head (countRound_lost lost late) (.refl _)), rfl⟩
  rintro ⟨fuel, returned⟩
  rw [endless fuel] at returned
  cases returned

theorem returns_iff_of_lost (lost : schedule.after (schedule.zone loc) t = none)
    (restarts : Searches (schedule.after (schedule.zone .utc)) limit₀ A₀ 0) :
    Returns (countRound schedule untilTime) (count, ⟨t, loc⟩) result ↔
      Covered limit₀ A₀ 0 untilTime.instant ∧
        ∃ n, IsLeast (trail A₀ 0 ∩ Set.Ioi untilTime.instant) n ∧
          result = (count + (trail A₀ 0 ∩ Set.Iic untilTime.instant).ncard, ⟨n, .utc⟩) := by
  by_cases late : 0 ≤ untilTime.instant
  · have path : Rounds (countRound schedule untilTime) 1 (count, ⟨t, loc⟩) (count + 1, .zero) :=
      .head (countRound_lost lost late) (.refl _)
    rw [path.returns_iff]
    by_cases covered : Covered limit₀ A₀ 0 untilTime.instant
    · obtain ⟨n, least, returns⟩ := returns_of_covered restarts covered late (count + 1)
      rw [trail_inter_Ioi A₀ late, ncard_trail A₀ late]
      have total : count + 1 + (A₀ ∩ Set.Ioc 0 untilTime.instant).ncard =
          count + ((A₀ ∩ Set.Ioc 0 untilTime.instant).ncard + 1) := by omega
      rw [← total]
      constructor
      · intro returned
        exact ⟨covered, n, least, (returns result).mp returned⟩
      · rintro ⟨-, n', least', rfl⟩
        rw [least'.unique least]
        exact (returns _).mpr rfl
    · constructor
      · intro returned
        exact absurd returned (not_returns_of_gap restarts covered late _ result)
      · intro answer
        exact absurd answer.1 covered
  · have beyond := not_le.mp late
    have covered : Covered limit₀ A₀ 0 untilTime.instant := covered_of_lt beyond
    have least := isLeast_trail_of_lt A₀ beyond
    rw [returns_of_inr (countRound_lost_past lost beyond), trail_inter_Iic_eq_empty A₀ beyond,
      Set.ncard_empty, Nat.add_zero]
    constructor
    · rintro rfl
      exact ⟨covered, 0, least, rfl⟩
    · rintro ⟨-, n, least', rfl⟩
      rw [least'.unique least]
      rfl

end

def periodic (period : Int) (t : Int) : Int := (t / period + 1) * period

theorem periodic_isLeast (positive : 0 < period) (t : Int) :
    IsLeast ({n | period ∣ n} ∩ Set.Ioi t) (periodic period t) := by
  refine ⟨⟨Int.dvd_mul_left _ _, Int.lt_ediv_add_one_mul_self t positive⟩, ?_⟩
  rintro n ⟨⟨k, rfl⟩, later⟩
  rw [Set.mem_Ioi, mul_comm] at later
  rw [periodic, mul_comm period k]
  have : t / period < k := Int.ediv_lt_of_lt_mul positive later
  exact Int.mul_le_mul_of_nonneg_right this positive.le

theorem periodic_searches (positive : 0 < period) (far : ∀ t, t + period ≤ limit t) (origin : Int) :
    Searches (fun t => some (periodic period t)) limit {n | period ∣ n} origin := by
  have near (t : Int) : periodic period t ≤ limit t := by
    apply le_trans _ (far t)
    rw [periodic, add_mul, one_mul]
    exact Int.add_le_add_right (Int.ediv_mul_le t positive.ne') period
  intro t _ n
  constructor
  · intro found
    cases found
    exact ⟨periodic_isLeast positive t, near t⟩
  · rintro ⟨least, -⟩
    rw [least.unique (periodic_isLeast positive t)]

/-- Eastern time without its summer time; every other location is taken as UTC. -/
def offset : Location → Int
  | .zone "America/New_York" => -300 * minute
  | _ => 0

def everyFiveMinutes (loc : Location) : Cron.Schedule :=
  ⟨loc, fun _ t => some (periodic (5 * minute) t)⟩

def daily (loc : Location) : Cron.Schedule :=
  ⟨loc, fun zone t => some (periodic (1440 * minute) (t + offset zone) - offset zone)⟩

def never (loc : Location) : Cron.Schedule := ⟨loc, fun _ _ => none⟩

def sampleHost : Host where
  zones name :=
    if name = "America/New_York" then none
    else some (sprintf "unknown time zone %s" [.str name])
  descriptor spec loc :=
    if spec = "@daily" then .ok (daily loc)
    else .error (sprintf "unrecognized descriptor: %s" [.str spec])
  spec fields loc :=
    if fields = ["0", "*/5", "*", "*", "*", "*"] then .ok (everyFiveMinutes loc)
    else if fields = ["0", "0", "0", "30", "2", "*"] then .ok (never loc)
    else .error (.str "failed to parse")
  unmarshal _ := none

section
variable (host : Host) (expr : String) (since untilTime : Time) (loc : Option Location)

def CountsCorrectly (activations : Set Int) : Prop :=
  ∃ fuel count first,
    countMissedRuns host fuel expr since untilTime loc = some (.ok (count, first)) ∧
      count = (activations ∩ Set.Ioc since.instant untilTime.instant).ncard ∧
      IsLeast (activations ∩ Set.Ioi untilTime.instant) first.instant

/-- There is a gap, and the activations past it are by chance as many as the zero time and its
followers make, with the same one next. -/
def Coincides (limit limit₀ : Int → Int) (A A₀ : Set Int) (since stop : Int) : Prop :=
  ∃ gap, Stuck limit A since stop gap ∧ Covered limit₀ A₀ 0 stop ∧
    (A ∩ Set.Ioc gap stop).ncard = (trail A₀ 0 ∩ Set.Iic stop).ncard ∧
    ∃ n, IsLeast (A ∩ Set.Ioi stop) n ∧ IsLeast (trail A₀ 0 ∩ Set.Ioi stop) n

variable {host expr since untilTime loc}

theorem countsCorrectly_iff_returns (ordered : since.instant ≤ untilTime.instant)
    (accepted : parseCronExpression host expr = .ok schedule) :
    CountsCorrectly host expr since untilTime loc A ↔
      ∃ count first, Returns (countRound schedule untilTime)
          (0, ⟨since.instant, loc.getD .utc⟩) (count, first) ∧
        count = (A ∩ Set.Ioc since.instant untilTime.instant).ncard ∧
        IsLeast (A ∩ Set.Ioi untilTime.instant) first.instant := by
  have early : since.after untilTime = false := by simp [Time.after, ordered]
  have runs (fuel : Nat) : countMissedRuns host fuel expr since untilTime loc =
      (loopFor (countRound schedule untilTime) fuel
        (0, ⟨since.instant, loc.getD .utc⟩)).map .ok := by
    simp [countMissedRuns, early, accepted, Time.isIn]
  constructor
  · rintro ⟨fuel, count, first, returned, right⟩
    rw [runs] at returned
    obtain ⟨result, looped, same⟩ := Option.map_eq_some_iff.mp returned
    cases same
    exact ⟨count, first, ⟨fuel, looped⟩, right⟩
  · rintro ⟨count, first, ⟨fuel, looped⟩, right⟩
    exact ⟨fuel, count, first, by rw [runs, looped]; rfl, right⟩

theorem not_coincides (since stop : Int) (late : 0 ≤ since)
    (more : (A ∩ Set.Ioc since stop).ncard ≤ (A₀ ∩ Set.Ioc 0 stop).ncard) :
    ¬ Coincides limit limit₀ A A₀ since stop := by
  rintro ⟨gap, stuck, -, same, -⟩
  have start := le_of_mem_trail stuck.visited
  have split := ncard_inter_Ioc_add A start stuck.within
  rw [ncard_trail A₀ (late.trans (start.trans stuck.within))] at same
  omega

theorem countsCorrectly_iff_covered_or (ordered : since.instant ≤ untilTime.instant)
    (accepted : parseCronExpression host expr = .ok schedule)
    (searches : Searches (schedule.after (schedule.zone (loc.getD .utc))) limit A since.instant)
    (restarts : Searches (schedule.after (schedule.zone .utc)) limit₀ A₀ 0) :
    CountsCorrectly host expr since untilTime loc A ↔
      Covered limit A since.instant untilTime.instant ∨
        Coincides limit limit₀ A A₀ since.instant untilTime.instant := by
  rw [countsCorrectly_iff_returns ordered accepted]
  by_cases covered : Covered limit A since.instant untilTime.instant
  · obtain ⟨n, least, returns⟩ := returns_of_covered searches covered ordered 0
    apply iff_of_true _ (.inl covered)
    exact ⟨_, _, (returns _).mpr rfl, Nat.zero_add _, least⟩
  · obtain ⟨gap, stuck, hops, lost⟩ := Stuck.exists_hops searches covered
    have split := ncard_inter_Ioc_add A (le_of_mem_trail stuck.visited) stuck.within
    constructor
    · rintro ⟨count, first, returned, same, least⟩
      rw [(rounds_of_hops hops 0).returns_iff, returns_iff_of_lost lost restarts] at returned
      obtain ⟨covered₀, n, least₀, answer⟩ := returned
      cases answer
      exact .inr ⟨gap, stuck, covered₀, by omega, n, least, least₀⟩
    · rintro (covered' | ⟨gap', stuck', covered₀, same, n, least, least₀⟩)
      · exact absurd covered' covered
      · obtain rfl := stuck.unique stuck'
        refine ⟨_, ⟨n, .utc⟩, ?_, rfl, least⟩
        rw [(rounds_of_hops hops 0).returns_iff, returns_iff_of_lost lost restarts]
        exact ⟨covered₀, n, least₀, by rw [split, same, Nat.zero_add]⟩

theorem countsCorrectly_iff (host : Host) (expr : String) (since untilTime : Time)
    (loc : Option Location) (schedule : Cron.Schedule) (fiveYears fiveYearsUTC : Int → Int)
    (activations fromZero : Set Int) (ordered : since.instant ≤ untilTime.instant)
    (accepted : parseCronExpression host expr = .ok schedule)
    (searches : Searches (schedule.after (schedule.zone (loc.getD .utc))) fiveYears activations
      since.instant)
    (restarts : Searches (schedule.after (schedule.zone .utc)) fiveYearsUTC fromZero 0) :
    (CountsCorrectly host expr since untilTime loc activations ↔
      Covered fiveYears activations since.instant untilTime.instant ∨
        Coincides fiveYears fiveYearsUTC activations fromZero since.instant untilTime.instant) ∧
      (0 ≤ since.instant → (activations ∩ Set.Ioc since.instant untilTime.instant).ncard ≤
          (fromZero ∩ Set.Ioc 0 untilTime.instant).ncard →
        (CountsCorrectly host expr since untilTime loc activations ↔
          Covered fiveYears activations since.instant untilTime.instant)) := by
  have either := countsCorrectly_iff_covered_or ordered accepted searches restarts
  refine ⟨either, fun late more => either.trans ?_⟩
  exact or_iff_left (not_coincides since.instant untilTime.instant late more)

end

def newYear2026 : Time := ⟨739616 * 1440 * minute, .utc⟩

theorem hour_countsCorrectly :
    CountsCorrectly sampleHost "*/5 * * * *" newYear2026 (newYear2026.add (60 * minute)) none
      {n | 5 * minute ∣ n} := by
  have searches (origin : Int) : Searches (fun t => some (periodic (5 * minute) t))
      (· + 5 * 365 * 1440 * minute) {n | 5 * minute ∣ n} origin :=
    periodic_searches (by decide) (fun t => by unfold minute second millisecond nanosecond; omega)
      origin
  have correct := (countsCorrectly_iff sampleHost "*/5 * * * *" newYear2026
    (newYear2026.add (60 * minute)) none (everyFiveMinutes .localZone) _ _ _ _ (by decide)
    (by rfl) (searches newYear2026.instant) (searches 0)).1
  apply correct.mpr (.inl ?_)
  intro t _ _
  have ⟨least, near⟩ := (searches t t origin_mem_trail _).mp rfl
  exact ⟨_, least.1.1, least.1.2, near⟩

theorem impossibleDate_not_returned :
    parseCronExpression sampleHost "0 0 30 2 *" = .ok (never .localZone) ∧
      (∀ fiveYears origin, Searches ((never .localZone).after .utc) fiveYears ∅ origin) ∧
      ∀ fuel, countMissedRuns sampleHost fuel "0 0 30 2 *" newYear2026
        (newYear2026.add (60 * minute)) none = none := by
  have accepted : parseCronExpression sampleHost "0 0 30 2 *" = .ok (never .localZone) := by rfl
  refine ⟨accepted, fun _ _ _ _ _ => by simp [never, IsLeast], fun fuel => ?_⟩
  have endless : loopFor (countRound (never .localZone) (newYear2026.add (60 * minute))) fuel
      (0, newYear2026) = none := by
    apply loopFor_eq_none_of_progress (fun _ => True) _ trivial
    intro s _
    exact ⟨1, _, Nat.one_pos, .head (countRound_lost rfl (by decide)) (.refl _), trivial⟩
  have early : newYear2026.after (newYear2026.add (60 * minute)) = false := by decide
  simp only [countMissedRuns, early, accepted]
  show (loopFor _ fuel (0, newYear2026)).map _ = none
  rw [endless]
  rfl

end NexusPipe.Proof.Scheduler
