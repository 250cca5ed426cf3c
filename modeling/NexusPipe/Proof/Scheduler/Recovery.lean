import NexusPipe.Proof.Scheduler.Job
import NexusPipe.Scheduler.Recovery

namespace NexusPipe.Proof.Scheduler
open Library Models NexusPipe.Scheduler Option

section
theorem countRound_inl (next : countRound schedule untilTime s = .inl s') :
    s'.1 = s.1 + 1 ∧ (schedule.next s.2).after untilTime = false := by
  simp only [countRound] at next
  split_ifs at next with past
  cases next
  exact ⟨rfl, Bool.not_eq_true _ ▸ past⟩

theorem countRound_inr (ends : countRound schedule untilTime s = .inr result) :
    result.1 = s.1 ∧ result.2 = schedule.next s.2 ∧ result.2.after untilTime = true := by
  simp only [countRound] at ends
  split_ifs at ends with past
  cases ends
  exact ⟨rfl, rfl, past⟩

section
variable
  (counted : countMissedRuns host fuel expr since untilTime loc = some (.ok (count, nextRun)))
include counted

theorem countMissedRuns_eq_ok : ∃ schedule, parseCronExpression host expr = .ok schedule ∧
      loopFor (countRound schedule untilTime) fuel (0, since.isIn (loc.getD .utc)) =
        some (count, nextRun) := by
  unfold countMissedRuns at counted
  split_ifs at counted
  · cases counted
  · cases parsed : parseCronExpression host expr with
    | error fault => simp [parsed] at counted
    | ok schedule =>
      simp only [parsed, map_eq_some_iff] at counted
      obtain ⟨answer, looped, same⟩ := counted
      cases same
      exact ⟨schedule, rfl, looped⟩

theorem countMissedRuns_after : nextRun.after untilTime = true := by
  obtain ⟨schedule, -, looped⟩ := countMissedRuns_eq_ok counted
  obtain ⟨s, -, ends⟩ := loopFor_exit (fun _ => True) (fun _ _ _ _ => trivial) trivial looped
  exact (countRound_inr ends).2.2

theorem count_eq_zero_iff (parsed : parseCronExpression host expr = .ok schedule) :
    count = 0 ↔ (schedule.next (since.isIn (loc.getD .utc))).after untilTime = true := by
  obtain ⟨schedule', parsed', looped⟩ := countMissedRuns_eq_ok counted
  obtain rfl := ok_unique parsed parsed'
  cases fuel with
  | zero => cases looped
  | succ fuel =>
    cases first : countRound schedule untilTime (0, since.isIn (loc.getD .utc)) with
    | inr result =>
      rw [loopFor_inr first, some.injEq] at looped
      obtain ⟨none, next, past⟩ := countRound_inr first
      rw [looped] at none next past
      exact iff_of_true none (next ▸ past)
    | inl s =>
      rw [loopFor_inl first] at looped
      obtain ⟨one, within⟩ := countRound_inl first
      obtain ⟨s', positive, ends⟩ := loopFor_exit (fun s => 0 < s.1)
        (fun s s' _ next => (countRound_inl next).1 ▸ Nat.succ_pos s.1)
        (one ▸ Nat.succ_pos 0) looped
      have same := (countRound_inr ends).1
      apply iff_of_false
      · exact fun zero => positive.ne' (same ▸ zero)
      · rw [within]
        exact Bool.false_ne_true

end

theorem countMissedRuns_mono
    (counted : countMissedRuns host fuel expr since untilTime loc = some answer)
    (more : fuel ≤ fuel') : countMissedRuns host fuel' expr since untilTime loc = some answer := by
  unfold countMissedRuns at counted ⊢
  split_ifs at counted ⊢
  · exact counted
  · cases parsed : parseCronExpression host expr with
    | error fault =>
      simp only [parsed] at counted ⊢
      exact counted
    | ok schedule =>
      simp only [parsed, map_eq_some_iff] at counted ⊢
      obtain ⟨result, looped, same⟩ := counted
      exact ⟨result, loopFor_mono looped more, same⟩

end

def executedBy : SkipPolicy → Nat → Nat
  | .none, missed => missed
  | .executeLatest, _ => 1
  | .skipAll, _ => 0
  | .executeAll, missed => missed
  | .other _ _, _ => 0

def advances : SkipPolicy → Bool
  | .none => false
  | .executeLatest => true
  | .skipAll => true
  | .executeAll => true
  | .other _ _ => false

section
variable {host : Host} {config : RecoveryConfig} {call : RecoveryCall} {sch : Schedule}
  {loc : Location} {since nextRun : Time} {result : RecoveryResult} {w w' : World} {missed : Nat}

theorem executeRecoveryJob_eq_ok (executed : executeRecoveryJob host config sch stamp w = .ok w') :
    w'.queue = w.queue ∧ w'.store = w.store := by
  unfold executeRecoveryJob at executed
  split_ifs at executed
  · cases executed
    exact ⟨rfl, rfl⟩
  · split at executed
    · cases executed
    · cases executed
      exact ⟨rfl, rfl⟩

variable (config) in
theorem exists_executeRecoveryJob {schedule : Cron.Schedule}
    (located : host.loadLocation sch.Timezone = .ok loc)
    (parsed : parseCronExpression host sch.CronExpression = .ok schedule)
    (stamp : ExecutionStamp) (w : World) :
    ∃ w', executeRecoveryJob host config sch stamp w = .ok w' := by
  have standard : host.parse .standard sch.CronExpression = .ok schedule := by
    unfold parseCronExpression at parsed
    split_ifs at parsed
    exact mapError_eq_ok.mp parsed
  obtain ⟨job, made⟩ := exists_newScheduledJob located standard stamp.job
  unfold executeRecoveryJob
  split_ifs
  · exact ⟨w, rfl⟩
  · simp only [made]
    exact ⟨_, rfl⟩

variable (config call) in
theorem executeRounds {schedule : Cron.Schedule}
    (located : host.loadLocation sch.Timezone = .ok loc)
    (parsed : parseCronExpression host sch.CronExpression = .ok schedule)
    (rounds : List Nat) (count : Nat) (since : Time) (w : World) :
    ∃ since' w', rounds.foldl (executeRound host config call sch loc) (count, since, w) =
        (count + rounds.length, since', w') ∧ w'.queue = w.queue ∧ w'.store = w.store := by
  induction rounds generalizing count since w with
  | nil => exact ⟨since, w, rfl, rfl, rfl⟩
  | cons i rounds ih =>
    obtain ⟨w₁, executed⟩ := exists_executeRecoveryJob config located parsed (call.stamps i) w
    have kept := executeRecoveryJob_eq_ok executed
    have round : ∃ since₁ w₂, executeRound host config call sch loc (count, since, w) i =
        (count + 1, since₁, w₂) ∧ w₂.queue = w.queue ∧ w₂.store = w.store := by
      simp only [executeRound, executed]
      split_ifs
      · exact ⟨_, _, rfl, rfl, rfl⟩
      · exact ⟨_, _, rfl, kept⟩
    obtain ⟨since₁, w₂, step, queue, store⟩ := round
    obtain ⟨since', w', rest, queue', store'⟩ := ih (count + 1) since₁ w₂
    refine ⟨since', w', ?_, queue'.trans queue, store'.trans store⟩
    rw [List.foldl_cons, step, rest, List.length_cons, Nat.add_right_comm, Nat.add_assoc]

theorem advanceStored_ok
    (returned : advanceStored call sch template nextRun result w = (result', none, w')) :
    result' = { result with Duration := call.elapsed } ∧ w'.queue = w.queue ∧
      w.store.updateNextRunTime call.failure sch.ID nextRun call.clock = .ok w'.store := by
  unfold advanceStored at returned
  split at returned
  · cases returned
  · rename_i store updated
    cases returned
    exact ⟨rfl, rfl, updated⟩

structure Applied (config : RecoveryConfig) (call : RecoveryCall) (sch : Schedule) (missed : Nat)
    (nextRun : Time) (result : RecoveryResult) (w w' : World) : Prop where
  missedRuns : result.MissedRuns = missed
  executedRuns : result.ExecutedRuns = executedBy config.Policy missed
  total : result.MissedRuns = result.ExecutedRuns + result.SkippedRuns
  queue : w'.queue = w.queue
  stored : if advances config.Policy then
      w.store.updateNextRunTime call.failure sch.ID nextRun call.clock = .ok w'.store
    else w'.store = w.store

theorem applyPolicy_ok (located : host.loadLocation sch.Timezone = .ok loc)
    (parsed : parseCronExpression host sch.CronExpression = .ok schedule)
    (live : config.DryRun = false) (some : missed ≠ 0)
    (counted : result.MissedRuns = missed ∧ result.ExecutedRuns = 0 ∧ result.SkippedRuns = 0)
    (returned : applyPolicy host config call sch loc since missed nextRun result w =
      (result', none, w')) : Applied config call sch missed nextRun result' w w' := by
  obtain ⟨all, none, kept⟩ := counted
  unfold applyPolicy at returned
  cases policy : config.Policy with
  | none =>
    simp only [policy] at returned
    cases returned
    exact ⟨all, by rw [policy]; rfl, by simp [all, kept], rfl, by simp [policy, advances]⟩
  | other value unknown =>
    simp only [policy] at returned
    cases returned
    exact ⟨all, by rw [policy]; exact none, by simp [all, none], rfl, by simp [policy, advances]⟩
  | skipAll =>
    simp only [policy] at returned
    obtain ⟨rfl, queue, updated⟩ := advanceStored_ok returned
    exact ⟨all, by rw [policy]; exact none, by simp [all, none], queue,
      by simp [policy, advances, updated]⟩
  | executeLatest =>
    obtain ⟨w₁, executed⟩ :=
      exists_executeRecoveryJob config located parsed (call.stamps 0) w
    obtain ⟨queue₁, store₁⟩ := executeRecoveryJob_eq_ok executed
    simp only [policy, executed] at returned
    obtain ⟨rfl, queue, updated⟩ := advanceStored_ok returned
    refine ⟨all, by rw [policy]; rfl, ?_, queue.trans queue₁, ?_⟩
    · show result.MissedRuns = 1 + (missed - 1)
      omega
    · simp [policy, advances, ← store₁, updated]
  | executeAll =>
    obtain ⟨since', w₁, rounds, queue₁, store₁⟩ :=
      executeRounds config call located parsed (List.range missed) 0 since w
    rw [List.length_range, Nat.zero_add] at rounds
    simp only [policy, rounds, live] at returned
    obtain ⟨rfl, queue, updated⟩ := advanceStored_ok returned
    refine ⟨all, by rw [policy]; rfl, ?_, queue.trans queue₁, ?_⟩
    · show result.MissedRuns = missed + result.SkippedRuns
      omega
    · simp [policy, advances, ← store₁, updated]

end

structure Due (sch : Schedule) (now : Time) : Prop where
  enabled : sch.Enabled = true
  active : sch.Status = .active
  reached : sch.NextRunTimeValue.after now = false

/-- There is nothing to recover: the schedule is not due, or no activation lies between the start of
the window and now. -/
def UpToDate (host : Host) (config : RecoveryConfig) (sch : Schedule) (now : Time) : Prop :=
  Due sch now → ∀ loc schedule, host.loadLocation sch.Timezone = .ok loc →
    parseCronExpression host sch.CronExpression = .ok schedule →
    (schedule.next ((recoverySince config sch now).isIn loc)).after now = true

def Misses (host : Host) (config : RecoveryConfig) (fuel : Nat) (sch : Schedule) (now : Time) :
    Prop :=
  Due sch now ∧ ∃ loc missed nextRun, host.loadLocation sch.Timezone = .ok loc ∧ missed ≠ 0 ∧
    countMissedRuns host fuel sch.CronExpression (recoverySince config sch now) now (some loc) =
      some (.ok (missed, nextRun))

section
variable {host : Host} {config : RecoveryConfig} {sch : Schedule} {loc : Location} {now : Time}

variable (config) in
theorem upToDate_iff {schedule : Cron.Schedule} (due : Due sch now)
    (located : host.loadLocation sch.Timezone = .ok loc)
    (parsed : parseCronExpression host sch.CronExpression = .ok schedule) :
    UpToDate host config sch now ↔
      (schedule.next ((recoverySince config sch now).isIn loc)).after now = true := by
  constructor
  · intro current
    exact current due loc schedule located parsed
  · intro past _ loc' schedule' located' parsed'
    obtain rfl := ok_unique located located'
    obtain rfl := ok_unique parsed parsed'
    exact past

theorem recoverSingleSchedule_cases
    (returned : recoverSingleSchedule host config call sch now w = some (result, fault, w')) :
    w' = w ∧ ¬ Misses host config call.fuel sch now ∧ (fault = none → UpToDate host config sch now ∧
          (result.MissedRuns = 0 ∧ result.ExecutedRuns = 0 ∧ result.SkippedRuns = 0) ∧
          ∀ call', call.fuel ≤ call'.fuel →
            recoverSingleSchedule host config call' sch now w = some (result, none, w)) ∨
      Due sch now ∧ ∃ loc missed nextRun result₀,
        host.loadLocation sch.Timezone = .ok loc ∧ missed ≠ 0 ∧
        countMissedRuns host call.fuel sch.CronExpression (recoverySince config sch now) now
          (some loc) = some (.ok (missed, nextRun)) ∧
        (result₀.MissedRuns = missed ∧ result₀.ExecutedRuns = 0 ∧ result₀.SkippedRuns = 0) ∧
        applyPolicy host config call sch loc (recoverySince config sch now) missed nextRun
          result₀ w = (result, fault, w') := by
  simp only [recoverSingleSchedule] at returned
  split_ifs at returned with off later
  · have idle : ¬ Due sch now := by
      rintro ⟨enabled, active, -⟩
      simp [enabled, active] at off
    cases returned
    exact .inl ⟨rfl, fun misses => idle misses.1, fun _ =>
      ⟨fun due => absurd due idle, ⟨rfl, rfl, rfl⟩, fun _ _ => if_pos off⟩⟩
  · have idle : ¬ Due sch now := fun due => absurd due.reached (by simp [later])
    cases located : host.loadLocation sch.Timezone with
    | error err =>
      simp only [located] at returned
      cases returned
      exact .inl ⟨rfl, fun misses => idle misses.1, by simp⟩
    | ok loc =>
      simp only [located] at returned
      cases returned
      refine .inl ⟨rfl, fun misses => idle misses.1, fun _ =>
        ⟨fun due => absurd due idle, ⟨rfl, rfl, rfl⟩, fun call' _ => ?_⟩⟩
      simp only [recoverSingleSchedule, if_neg off, located, if_pos later]
  · have due : Due sch now :=
      ⟨by simpa using (not_or.mp off).1, not_not.mp (not_or.mp off).2, by simpa using later⟩
    cases located : host.loadLocation sch.Timezone with
    | error err =>
      simp only [located] at returned
      cases returned
      exact .inl ⟨rfl, by simp [Misses, located], by simp⟩
    | ok loc =>
      cases counted : countMissedRuns host call.fuel sch.CronExpression
          (recoverySince config sch now) now (some loc) with
      | none => simp [located, counted] at returned
      | some answer =>
        simp only [located, counted] at returned
        obtain refusal | ⟨missed, nextRun⟩ := answer
        · cases returned
          exact .inl ⟨rfl, by simp [Misses, located, counted], by simp⟩
        · dsimp only at returned
          split_ifs at returned with nothing
          · cases returned
            obtain ⟨schedule, parsed, -⟩ := countMissedRuns_eq_ok counted
            refine .inl ⟨rfl, by simp [Misses, located, counted, nothing], fun _ =>
              ⟨(upToDate_iff config due located parsed).mpr
                ((count_eq_zero_iff counted parsed).mp nothing), ⟨nothing, rfl, rfl⟩, ?_⟩⟩
            intro call' more
            simp only [recoverSingleSchedule, if_neg off, located, if_neg later,
              countMissedRuns_mono counted more, if_pos nothing]
          · exact .inr ⟨due, loc, missed, nextRun, _, rfl, nothing, counted, ⟨rfl, rfl, rfl⟩,
              some.inj returned⟩

theorem recoverSingleSchedule_live (live : config.DryRun = false)
    (returned : recoverSingleSchedule host config call sch now w = some (result, none, w')) :
    (UpToDate host config sch now ∧
        (result.MissedRuns = 0 ∧ result.ExecutedRuns = 0 ∧ result.SkippedRuns = 0) ∧ w' = w ∧
        ∀ call', call.fuel ≤ call'.fuel →
          recoverSingleSchedule host config call' sch now w = some (result, none, w)) ∨
      (¬ UpToDate host config sch now ∧ Due sch now ∧
        (∃ loc, host.loadLocation sch.Timezone = .ok loc) ∧
        ∃ missed nextRun, missed ≠ 0 ∧ nextRun.after now = true ∧
          Applied config call sch missed nextRun result w w') := by
  rcases recoverSingleSchedule_cases returned with ⟨same, -, current⟩ |
    ⟨due, loc, missed, nextRun, result₀, located, some, counted, zeros, applied⟩
  · obtain ⟨current, zeros, again⟩ := current rfl
    exact .inl ⟨current, zeros, same, again⟩
  · obtain ⟨schedule, parsed, -⟩ := countMissedRuns_eq_ok counted
    have behind := (upToDate_iff config due located parsed).not.mpr
      ((count_eq_zero_iff counted parsed).not.mp some)
    exact .inr ⟨behind, due, ⟨loc, located⟩, missed, nextRun, some, countMissedRuns_after counted,
      applyPolicy_ok located parsed live some zeros applied⟩

variable {nextRun : Time}

theorem updateNextRunTime_repo {s : PostgresScheduleStore} {failure : Option Text} {id : String}
    (stored : s.repo.lookup id = some row)
    (updated : s.updateNextRunTime failure id nextRun clock = .ok s') :
    s'.repo.lookup id = some (ScheduleRepository.advance row nextRun clock) := by
  unfold PostgresScheduleStore.updateNextRunTime ScheduleRepository.updateNextRunTime at updated
  cases failure with
  | some err => cases updated
  | none =>
    simp only [stored] at updated
    split at updated <;> cases updated <;> exact Finmap.lookup_insert s.repo

theorem recoverSingleSchedule_advanced (due : Due sch now)
    (located : host.loadLocation sch.Timezone = .ok loc) (future : nextRun.after now = true)
    (clock : Int) (call : RecoveryCall) (w : World) :
    ∃ result, recoverSingleSchedule host config call (ScheduleRepository.advance sch nextRun clock)
        now w = some (result, none, w) ∧ result.MissedRuns = 0 ∧ result.ExecutedRuns = 0 := by
  have on : ¬ (sch.Enabled = false ∨ sch.Status ≠ .active) := by simp [due.enabled, due.active]
  simp only [recoverSingleSchedule, ScheduleRepository.advance, if_neg on, located, future, if_true]
  exact ⟨_, rfl, rfl, rfl⟩

end

def skips : SkipPolicy → Bool
  | .none => false
  | .executeLatest => false
  | .skipAll => true
  | .executeAll => false
  | .other _ _ => true

theorem executedBy_eq_zero_iff (some : missed ≠ 0) :
    executedBy policy missed = 0 ↔ skips policy = true := by
  cases policy <;> simp [executedBy, skips, some]

/-- The reported runs add up, and as many executions of the schedule were handed to the queue as were
reported executed. -/
def Accounts (sch : Schedule) (w w' : World) (result : RecoveryResult) : Prop :=
  result.MissedRuns = result.ExecutedRuns + result.SkippedRuns ∧
    ∃ handed, w'.queue = w.queue ++ handed ∧
      (handed.filter fun e => e.ScheduleID = sch.ID).length = result.ExecutedRuns

theorem accounts_iff_of_queue {w w' : World} {result : RecoveryResult}
    (total : result.MissedRuns = result.ExecutedRuns + result.SkippedRuns)
    (queue : w'.queue = w.queue) : Accounts sch w w' result ↔ result.ExecutedRuns = 0 := by
  constructor
  · rintro ⟨-, handed, appended, count⟩
    rw [queue, List.self_eq_append_right] at appended
    rw [← count, appended]
    rfl
  · intro nothing
    exact ⟨total, [], by rw [queue, List.append_nil], nothing.symm⟩

theorem accounts_iff (host : Host) (config : RecoveryConfig) (call : RecoveryCall) (sch : Schedule)
    (now : Time) (w : World) (result : RecoveryResult) (w' : World) (live : config.DryRun = false)
    (returned : recoverSingleSchedule host config call sch now w = some (result, none, w')) :
    result.MissedRuns = result.ExecutedRuns + result.SkippedRuns ∧ (Accounts sch w w' result ↔
        UpToDate host config sch now ∨ skips config.Policy = true) := by
  rcases recoverSingleSchedule_live live returned with
    ⟨current, ⟨missed, executed, skipped⟩, rfl, -⟩ |
    ⟨behind, -, -, missed, nextRun, some, -, applied⟩
  · have total : result.MissedRuns = result.ExecutedRuns + result.SkippedRuns := by omega
    refine ⟨total, ?_⟩
    rw [accounts_iff_of_queue total rfl]
    exact iff_of_true executed (.inl current)
  · refine ⟨applied.total, ?_⟩
    rw [accounts_iff_of_queue applied.total applied.queue, applied.executedRuns,
      executedBy_eq_zero_iff some]
    exact (or_iff_right behind).symm

def sampleCall : RecoveryCall where
  fuel := 300
  stamps _ := ⟨⟨0, 1⟩, ⟨0, 2⟩, 3⟩
  clock := newYear2026.instant
  elapsed := 0

def polled : Schedule := sampleSchedule "*/5 * * * *" "UTC"

def polledWorld : World where
  store := { repo := (∅ : ScheduleRepository).insert polled.ID polled }

theorem skipAll_accounts : ∃ result w',
    recoverSingleSchedule sampleHost { defaultRecoveryConfig with Policy := .skipAll } sampleCall
      polled newYear2026 polledWorld = some (result, none, w') ∧
      Accounts polled polledWorld w' result := by
  have ran : (recoverSingleSchedule sampleHost { defaultRecoveryConfig with Policy := .skipAll }
      sampleCall polled newYear2026 polledWorld).map (fun answer => answer.2.1) = some none := by
    decide +kernel
  obtain ⟨⟨result, fault, w'⟩, returned, rfl⟩ := map_eq_some_iff.mp ran
  exact ⟨result, w', returned, (accounts_iff _ _ _ _ _ _ _ _ rfl returned).2.mpr (.inr rfl)⟩

theorem executeLatest_not_accounts : ∃ result w',
    recoverSingleSchedule sampleHost defaultRecoveryConfig sampleCall polled newYear2026
      polledWorld = some (result, none, w') ∧
      result.MissedRuns = 288 ∧ result.ExecutedRuns = 1 ∧ w'.queue = [] ∧
      ¬ Accounts polled polledWorld w' result := by
  have ran : (recoverSingleSchedule sampleHost defaultRecoveryConfig sampleCall polled newYear2026
      polledWorld).map (fun answer =>
        (answer.2.1, answer.1.MissedRuns, answer.1.ExecutedRuns, answer.2.2.queue)) =
          some (none, 288, 1, []) := by
    decide +kernel
  obtain ⟨⟨result, fault, w'⟩, returned, values⟩ := map_eq_some_iff.mp ran
  simp only [Prod.mk.injEq] at values
  obtain ⟨rfl, missed, executed, queue⟩ := values
  refine ⟨result, w', returned, missed, executed, queue, ?_⟩
  rintro ⟨-, handed, appended, count⟩
  rw [queue] at appended
  have nothing := (List.append_eq_nil_iff.mp appended.symm).2
  rw [nothing, executed] at count
  cases count

def RecoversNothing (host : Host) (config : RecoveryConfig) (sch : Schedule) (now : Time)
    (w : World) : Prop :=
  ∃ fuel, ∀ call, fuel ≤ call.fuel →
    ∃ result w', recoverSingleSchedule host config call sch now w = some (result, none, w') ∧
      result.MissedRuns = 0 ∧ result.ExecutedRuns = 0 ∧ w'.queue = w.queue

theorem RecoversNothing.upToDate (nothing : RecoversNothing host config sch now w)
    (live : config.DryRun = false) (call : RecoveryCall) : UpToDate host config sch now := by
  obtain ⟨fuel, nothing⟩ := nothing
  obtain ⟨result, w', returned, missed, -⟩ :=
    nothing { call with fuel := fuel } (Nat.le_refl fuel)
  rcases recoverSingleSchedule_live live returned with
    ⟨current, -⟩ | ⟨-, -, -, count, nextRun, nonzero, -, applied⟩
  · exact current
  · exact absurd (applied.missedRuns.symm.trans missed) nonzero

theorem recoversNothing_iff (host : Host) (config : RecoveryConfig) (call : RecoveryCall)
    (sch : Schedule) (now : Time) (w : World) (result : RecoveryResult) (w' : World)
    (stored : Schedule) (live : config.DryRun = false)
    (read : w.store.repo.lookup sch.ID = some sch)
    (returned : recoverSingleSchedule host config call sch now w = some (result, none, w'))
    (left : w'.store.repo.lookup sch.ID = some stored) : RecoversNothing host config stored now w' ↔
      advances config.Policy = true ∨ UpToDate host config sch now := by
  rcases recoverSingleSchedule_live live returned with
    ⟨current, ⟨missed, executed, -⟩, rfl, again⟩ |
    ⟨behind, due, ⟨loc, located⟩, missed, nextRun, some, future, applied⟩
  · rw [read] at left
    cases left
    apply iff_of_true _ (.inr current)
    exact ⟨call.fuel, fun call' more => ⟨result, w', again call' more, missed, executed, rfl⟩⟩
  · have kept := applied.stored
    by_cases advanced : advances config.Policy = true
    · rw [if_pos advanced] at kept
      rw [updateNextRunTime_repo read kept] at left
      cases left
      apply iff_of_true _ (.inl advanced)
      refine ⟨0, fun call' _ => ?_⟩
      obtain ⟨result', returned', missed', executed'⟩ :=
        recoverSingleSchedule_advanced due located future call.clock call' w'
      exact ⟨result', w', returned', missed', executed', rfl⟩
    · rw [if_neg advanced] at kept
      rw [kept, read] at left
      cases left
      apply iff_of_false _ (not_or.mpr ⟨advanced, behind⟩)
      intro nothing
      exact behind (nothing.upToDate live call)

theorem executeLatest_recoversNothing : ∃ result w' stored,
    recoverSingleSchedule sampleHost defaultRecoveryConfig sampleCall polled newYear2026
      polledWorld = some (result, none, w') ∧ w'.store.repo.lookup polled.ID = some stored ∧
      RecoversNothing sampleHost defaultRecoveryConfig stored newYear2026 w' := by
  have ran : (recoverSingleSchedule sampleHost defaultRecoveryConfig sampleCall polled newYear2026
      polledWorld).map (fun answer =>
        (answer.2.1, (answer.2.2.store.repo.lookup polled.ID).isSome)) = some (none, true) := by
    decide +kernel
  obtain ⟨⟨result, fault, w'⟩, returned, values⟩ := map_eq_some_iff.mp ran
  simp only [Prod.mk.injEq] at values
  obtain ⟨rfl, found⟩ := values
  obtain ⟨stored, left⟩ := isSome_iff_exists.mp found
  have nothing := recoversNothing_iff _ _ _ _ _ _ _ _ _ rfl (Finmap.lookup_insert _) returned left
  exact ⟨result, w', stored, returned, left, nothing.mpr (.inl rfl)⟩

theorem policyNone_recovers_again :
    (recoverSingleSchedule sampleHost { defaultRecoveryConfig with Policy := .none } sampleCall
      polled newYear2026 polledWorld).map
        (fun answer => (answer.1.ExecutedRuns, answer.2.1, answer.2.2)) =
          some (288, none, polledWorld) ∧
      polledWorld.store.repo.lookup polled.ID = some polled ∧
      ¬ RecoversNothing sampleHost { defaultRecoveryConfig with Policy := .none } polled newYear2026
        polledWorld := by
  refine ⟨by decide +kernel, Finmap.lookup_insert _, fun nothing => ?_⟩
  have current := nothing.upToDate rfl sampleCall
  have past := current ⟨rfl, rfl, by decide⟩ .utc (everyFiveMinutes .localZone) rfl rfl
  revert past
  decide

end NexusPipe.Proof.Scheduler
