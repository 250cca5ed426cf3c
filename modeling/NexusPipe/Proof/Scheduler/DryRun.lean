import NexusPipe.Proof.Scheduler.Recovery
import NexusPipe.Proof.Scheduler.Store

namespace NexusPipe.Proof.Scheduler
open Library Models NexusPipe.Scheduler PostgresScheduleStore

def writesDry : SkipPolicy → Bool
  | .executeLatest | .skipAll => true
  | _ => false

def Writes (host : Host) (config : RecoveryConfig) (call : RecoveryCall) (sch : Schedule)
    (now : Time) : Prop :=
  writesDry config.Policy = true ∧ call.failure = none ∧ Misses host config call.fuel sch now

section
variable {host : Host} {config : RecoveryConfig} {call : RecoveryCall} {sch : Schedule}
  {now nextRun since : Time} {loc : Location} {w w' : World}

def Ahead (rows : ScheduleRepository) (now : Time) (id : String) : Prop :=
  ∃ row, rows.lookup id = some row ∧ row.NextRunTimeValue.after now = true

inductive DryEffect (writes : Prop) (id : String) (now : Time) (w w' : World) : Prop
  | kept (idle : writes → w.store.repo.lookup id = none) (queue : w'.queue = w.queue)
      (store : w'.store = w.store)
  | advanced (writing : writes) (row : Schedule) (queue : w'.queue = w.queue)
      (repo : w'.store.repo = w.store.repo.insert id row)
      (future : row.NextRunTimeValue.after now = true)

theorem advanceStored_effect (template : String) (result : RecoveryResult) (w : World)
    (future : nextRun.after now = true) : DryEffect (call.failure = none) sch.ID now w
      (advanceStored call sch template nextRun result w).2.2 := by
  unfold advanceStored updateNextRunTime ScheduleRepository.updateNextRunTime
  cases failed : call.failure with
  | some err => exact .kept (by simp) rfl rfl
  | none =>
    cases stored : w.store.repo.lookup sch.ID with
    | none => exact .kept (fun _ => stored) rfl rfl
    | some row =>
      cases cached : w.store.cache.lookup sch.ID with
      | none | some =>
        exact .advanced rfl (ScheduleRepository.advance row nextRun call.clock) rfl rfl future

variable (host call sch loc) in
theorem executeRound_dry (dry : config.DryRun = true) (rounds : List Nat) (count : Nat)
    (since : Time) (w : World) :
    (rounds.foldl (executeRound host config call sch loc) (count, since, w)).2.2 = w := by
  induction rounds generalizing count since with
  | nil => rfl
  | cons i rounds ih =>
    rw [List.foldl_cons, executeRound, if_pos dry]
    exact ih _ _

theorem applyPolicy_dry (dry : config.DryRun = true) (future : nextRun.after now = true)
    (applied : applyPolicy host config call sch loc since missed nextRun result w =
      (result', fault, w')) :
    DryEffect (writesDry config.Policy = true ∧ call.failure = none) sch.ID now w w' := by
  have left : w' = (applyPolicy host config call sch loc since missed nextRun result w).2.2 := by
    rw [applied]
  have executed (stamp : ExecutionStamp) : executeRecoveryJob host config sch stamp w = .ok w :=
    if_pos dry
  subst left
  unfold applyPolicy
  cases policy : config.Policy with
  | none | other value unknown => exact .kept (by simp [writesDry]) rfl rfl
  | skipAll =>
    simp only [writesDry, true_and]
    exact advanceStored_effect _ _ w future
  | executeLatest =>
    simp only [writesDry, true_and, executed]
    exact advanceStored_effect _ _ w future
  | executeAll =>
    have rounds := executeRound_dry host call sch loc dry (List.range missed) 0 since w
    simp only [dry, ↓reduceIte, rounds]
    exact .kept (by simp [writesDry]) rfl rfl

theorem recoverSingleSchedule_dry (dry : config.DryRun = true)
    (returned : recoverSingleSchedule host config call sch now w = some (result, fault, w')) :
    DryEffect (Writes host config call sch now) sch.ID now w w' := by
  rcases recoverSingleSchedule_cases returned with ⟨rfl, idle, -⟩ |
    ⟨due, loc, missed, nextRun, result₀, located, some, counted, -, applied⟩
  · exact .kept (fun writes => absurd writes.2.2 idle) rfl rfl
  · cases applyPolicy_dry dry (countMissedRuns_after counted) applied with
    | kept silent queue store =>
      exact .kept (fun writes => silent ⟨writes.1, writes.2.1⟩) queue store
    | advanced writing row queue repo later =>
      have misses : Misses host config call.fuel sch now :=
        ⟨due, loc, missed, nextRun, located, some, counted⟩
      exact .advanced ⟨writing.1, writing.2, misses⟩ row queue repo later

namespace DryEffect
variable {id : String}

theorem queue_eq (effect : DryEffect writes id now w w') : w'.queue = w.queue := by
  cases effect with
  | kept _ queue | advanced _ _ queue => exact queue

theorem lookup_ne_none (effect : DryEffect writes id now w w')
    (stored : w.store.repo.lookup id' ≠ none) : w'.store.repo.lookup id' ≠ none := by
  cases effect with
  | kept _ _ store => rwa [store]
  | advanced _ row _ repo _ =>
    rw [repo, GoMap.lookup_insert_eq]
    split_ifs
    · simp
    · exact stored

theorem ahead (effect : DryEffect writes id now w w') (before : Ahead w.store.repo now id') :
    Ahead w'.store.repo now id' := by
  cases effect with
  | kept _ _ store => rwa [store]
  | advanced _ row _ repo future =>
    obtain ⟨row', stored, later⟩ := before
    unfold Ahead
    rw [repo, GoMap.lookup_insert_eq]
    split_ifs
    · exact ⟨row, rfl, future⟩
    · exact ⟨row', stored, later⟩

end DryEffect
end

section
variable {config : RecoveryConfig} {w w' : World} {schedules : List Schedule}

theorem recoverEach_cons
    (returned : recoverEach host config calls now index (sch :: schedules) w = some (outcomes, w')) :
    ∃ result fault w₁ w₂ rest,
      recoverSingleSchedule host config (calls index) sch now w = some (result, fault, w₁) ∧
        w₂.store = w₁.store ∧ w₂.queue = w₁.queue ∧
          recoverEach host config calls now (index + 1) schedules w₂ = some (rest, w') := by
  rw [recoverEach] at returned
  split at returned
  · cases returned
  · cases returned
  · rename_i result err w₁ recovered
    obtain ⟨⟨rest, w₂⟩, looped, same⟩ := Option.map_eq_some_iff.mp returned
    cases same
    refine ⟨_, _, w₁, _, rest, recovered, ?_, ?_, looped⟩ <;> rfl
  · rename_i result w₁ recovered
    obtain ⟨⟨rest, w₂⟩, looped, same⟩ := Option.map_eq_some_iff.mp returned
    cases same
    exact ⟨_, _, _, _, rest, recovered, rfl, rfl, looped⟩

theorem recoverEach_dry (dry : config.DryRun = true)
    (returned : recoverEach host config calls now index schedules w = some (outcomes, w'))
    (stored : ∀ sch ∈ schedules, w.store.repo.lookup sch.ID ≠ none) :
    w'.queue = w.queue ∧ (∀ id, Ahead w.store.repo now id → Ahead w'.store.repo now id) ∧
      ((∀ (j : Nat) sch, schedules[j]? = some sch →
            ¬ Writes host config (calls (index + j)) sch now) ∧ w'.store = w.store ∨
        ∃ (j : Nat) (sch : Schedule), schedules[j]? = some sch ∧
          Writes host config (calls (index + j)) sch now ∧ Ahead w'.store.repo now sch.ID) := by
  induction schedules generalizing index w outcomes with
  | nil =>
    cases returned
    exact ⟨rfl, fun _ ahead => ahead, .inl ⟨by simp, rfl⟩⟩
  | cons sch schedules ih =>
    obtain ⟨result, fault, w₁, w₂, rest, recovered, store, queue, looped⟩ :=
      recoverEach_cons returned
    have effect := recoverSingleSchedule_dry dry recovered
    obtain ⟨queue', ahead, rest⟩ := ih looped fun other member => by
      rw [store]
      exact effect.lookup_ne_none (stored other (List.mem_cons_of_mem sch member))
    rw [store] at ahead rest
    have shift (j : Nat) : index + 1 + j = index + (j + 1) := by omega
    refine ⟨queue'.trans (queue.trans effect.queue_eq), fun id before => ahead id (effect.ahead before),
      ?_⟩
    cases effect with
    | advanced writing row _ repo future =>
      refine .inr ⟨0, sch, rfl, writing, ahead sch.ID ⟨row, ?_, future⟩⟩
      rw [repo, Finmap.lookup_insert]
    | kept idle _ same =>
      have silent : ¬ Writes host config (calls index) sch now :=
        fun writes => stored sch List.mem_cons_self (idle writes)
      rcases rest with ⟨none, kept⟩ | ⟨j, later, found, writes, moved⟩
      · refine .inl ⟨fun j later found => ?_, kept.trans same⟩
        cases j with
        | zero =>
          cases found
          exact silent
        | succ j => exact shift j ▸ none j later found
      · exact .inr ⟨j + 1, later, found, shift j ▸ writes, moved⟩

/-- The recovery leaves the store as reading the active schedules left it, and hands no execution to
the queue. -/
def Harmless (order : GoMap.RangeOrder String Schedule)
    (failure : Option ScheduleRepository.QueryFault) (cachedAt : Int) (config : RecoveryConfig)
    (w w' : World) : Prop :=
  w'.queue = w.queue ∧ w'.store = if config.Enabled = true then
    w.store.apply (.getActiveSchedules order failure cachedAt) else w.store

theorem recoverMissedJobs_harmless_iff (host : Host) (config : RecoveryConfig)
    (calls : Nat → RecoveryCall) (order : GoMap.RangeOrder String Schedule)
    (failure : Option ScheduleRepository.QueryFault) (cachedAt : Int) (now : Time) (w w' : World)
    (answer : Except Text (List RecoveryOutcome)) (kept : WellKept w.store)
    (dry : config.DryRun = true)
    (returned : recoverMissedJobs host config calls order failure cachedAt now w =
      some (answer, w')) : w'.queue = w.queue ∧ (Harmless order failure cachedAt config w w' ↔
        (config.Enabled = true → ∀ schedules,
          w.store.repo.list order failure activeFilter = .ok schedules →
            ∀ (j : Nat) sch, schedules[j]? = some sch →
              ¬ Writes host config (calls j) sch now)) := by
  unfold recoverMissedJobs at returned
  split_ifs at returned with disabled
  · cases returned
    refine ⟨rfl, ?_⟩
    simp [Harmless, disabled]
  · have enabled : config.Enabled = true := by simpa using disabled
    cases listed : w.store.repo.list order failure activeFilter with
    | error err =>
      simp only [listed, getActiveSchedules] at returned
      cases returned
      refine ⟨rfl, ?_⟩
      simp [Harmless, apply, getActiveSchedules, listed]
    | ok schedules =>
      have rows (sch : Schedule) (member : sch ∈ schedules) :
          w.store.repo.lookup sch.ID = some sch := lookup_of_mem_list kept listed member
      have cached := frame_of_caches (caches_rows rows cachedAt)
      simp only [listed, getActiveSchedules] at returned
      obtain ⟨⟨outcomes, w₁⟩, looped, same⟩ := Option.map_eq_some_iff.mp returned
      cases same
      obtain ⟨queue, -, rest⟩ := recoverEach_dry dry looped fun sch member => by
        rw [cached.1, rows sch member]
        simp
      simp only [Nat.zero_add] at rest
      refine ⟨queue, ?_⟩
      have silent_iff : (config.Enabled = true → ∀ schedules',
          Except.ok schedules = (.ok schedules' : Except Text (List Schedule)) →
            ∀ (j : Nat) sch, schedules'[j]? = some sch →
              ¬ Writes host config (calls j) sch now) ↔
          ∀ (j : Nat) sch, schedules[j]? = some sch →
            ¬ Writes host config (calls j) sch now := by
        simp [enabled]
      rw [silent_iff]
      simp only [Harmless, if_pos enabled, apply, getActiveSchedules, listed]
      rcases rest with ⟨silent, store⟩ | ⟨j, sch, found, writes, row, moved, future⟩
      · exact iff_of_true ⟨queue, store⟩ silent
      · refine iff_of_false ?_ fun silent => silent j sch found writes
        rintro ⟨-, store⟩
        -- the row was due when it was listed and is not any more
        rw [store, cached.1, rows sch (List.mem_of_getElem? found)] at moved
        cases moved
        rw [writes.2.2.1.reached] at future
        cases future

end

def rehearsal (policy : SkipPolicy) : Option (Except Text (List RecoveryOutcome) × World) :=
  recoverMissedJobs sampleHost { defaultRecoveryConfig with Policy := policy, DryRun := true }
    (fun _ => sampleCall) (GoMap.ascending textRank textRank_injective) none
    newYear2026.instant newYear2026 polledWorld

theorem executeLatest_rehearsal_moves :
    (polledWorld.store.repo.lookup polled.ID).map (fun row => row.NextRunTimeValue.instant) =
        some newYear2026.instant ∧ (rehearsal .executeLatest).map (fun answer =>
        (answer.2.store.repo.lookup polled.ID).map fun row => row.NextRunTimeValue.instant) =
          some (some (newYear2026.instant + 5 * minute)) ∧
      (rehearsal .executeLatest).all (fun answer => answer.2.queue = []) = true := by
  refine ⟨by decide +kernel, by decide +kernel, by decide +kernel⟩

theorem wellKept_polledWorld : WellKept polledWorld.store :=
  ⟨keyed_single polled, by decide⟩

theorem executeAll_rehearsal_harmless : ∃ answer w',
    rehearsal .executeAll = some (answer, w') ∧
      Harmless (GoMap.ascending textRank textRank_injective) none newYear2026.instant
        { defaultRecoveryConfig with Policy := .executeAll, DryRun := true } polledWorld w' := by
  have returns : (rehearsal .executeAll).isSome = true := by decide +kernel
  obtain ⟨⟨answer, w'⟩, returned⟩ := Option.isSome_iff_exists.mp returns
  refine ⟨answer, w', returned, ?_⟩
  apply (recoverMissedJobs_harmless_iff _ _ _ _ _ _ _ _ w' answer wellKept_polledWorld rfl
    returned).2.mpr
  intro _ schedules _ j sch _ writes
  cases writes.1

end NexusPipe.Proof.Scheduler
