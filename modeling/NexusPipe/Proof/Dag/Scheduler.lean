import NexusPipe.Dag.Scheduler
import NexusPipe.Proof.Cron
import NexusPipe.Proof.Dag.Validator
import NexusPipe.Proof.Scheduler.Cron

namespace NexusPipe.Proof.Dag
open Library NexusPipe.Dag DAGScheduler List Option

variable {W V : Type}

structure Registered (s : DAGScheduler W V) : Prop where
  numbered : Numbered s.cron
  short : s.cron.entries.length ≤ s.cron.nextID
  own : ∀ entry ∈ s.cron.entries, ∃ schedule : DAGSchedule W V,
    s.objects[entry.Job]? = some schedule ∧ schedule.EntryID = entry.ID
  live : ∀ id pointer, s.schedules.lookup id = some pointer → ∃ schedule : DAGSchedule W V,
    s.objects[pointer]? = some schedule ∧ schedule.ID = id ∧
      ∃ entry ∈ s.cron.entries, entry.ID = schedule.EntryID ∧ entry.Job = pointer

inductive Fires (s : DAGScheduler W V) : Nat → Prop
  | cron {entry : Cron.Entry Nat} (live : entry ∈ s.cron.entries) : Fires s entry.Job
  | runNow {id : UUID} (found : s.schedules.lookup id = some pointer) :
      Fires s pointer

section
variable {s : DAGScheduler W V}

theorem registered_start : Registered (newDAGScheduler W V) where
  numbered := ⟨fun _ member => absurd member not_mem_nil, nodup_nil⟩
  short := Nat.le_refl 0
  own _ member := absurd member not_mem_nil
  live id pointer found := by simp [newDAGScheduler] at found

theorem Registered.fires (registered : Registered s) (fires : Fires s pointer) :
    ∃ schedule : DAGSchedule W V, s.objects[pointer]? = some schedule ∧
      ∃ entry ∈ s.cron.entries, entry.ID = schedule.EntryID ∧ entry.Job = pointer := by
  cases fires with
  | @cron entry live =>
    obtain ⟨schedule, stored, same⟩ := registered.own entry live
    exact ⟨schedule, stored, entry, live, same.symm, rfl⟩
  | runNow found =>
    obtain ⟨schedule, stored, -, entry⟩ := registered.live _ _ found
    exact ⟨schedule, stored, entry⟩

theorem addSchedule_cases (host : Host) (s : DAGScheduler W V) (order : ValidateOrder) (id : UUID)
    (name cronExpr : String) (graph : Graph) :
    (∃ fault, s.addSchedule host order id name cronExpr graph = (.error fault, s)) ∨
      ∃ (new : DAGSchedule W V) (parsed : Cron.Schedule),
        new.ID = id ∧ new.EntryID = s.cron.nextID + 1 ∧
        s.addSchedule host order id name cronExpr graph = (.ok s.objects.length,
          { s with
            cron := (s.cron.schedule parsed s.objects.length).2
            objects := s.objects ++ [new]
            schedules := s.schedules.insert id s.objects.length }) := by
  rw [addSchedule.eq_def]
  split
  · exact .inl ⟨_, rfl⟩
  · split_ifs
    · exact .inl ⟨_, rfl⟩
    · split
      · exact .inl ⟨_, rfl⟩
      · rename_i entryID cron added
        simp only [Cron.Engine.addFunc, map_eq_ok] at added
        obtain ⟨parsed, -, same⟩ := added
        obtain ⟨rfl, rfl⟩ := Prod.mk.inj same
        exact .inr ⟨_, parsed, rfl, rfl, rfl⟩

theorem registered_add (registered : Registered s) (parsed : Cron.Schedule)
    {new : DAGSchedule W V} (entryID : new.EntryID = s.cron.nextID + 1) :
    Registered { s with
      cron := (s.cron.schedule parsed s.objects.length).2
      objects := s.objects ++ [new]
      schedules := s.schedules.insert new.ID s.objects.length } := by
  have added : (s.objects ++ [new])[s.objects.length]? = some new := by simp
  refine ⟨registered.numbered.schedule parsed _, ?_, ?_, ?_⟩
  · simpa [Cron.Engine.schedule] using registered.short
  · intro entry member
    rcases mem_append.mp member with old | last
    · obtain ⟨schedule, stored, same⟩ := registered.own entry old
      exact ⟨schedule, getElem?_concat_of_found stored new, same⟩
    · rw [mem_singleton.mp last]
      exact ⟨new, added, entryID⟩
  · intro id pointer found
    rw [GoMap.lookup_insert_eq] at found
    split_ifs at found with same
    · cases found
      exact ⟨new, added, same.symm, _, mem_append_right _ mem_cons_self, entryID.symm, rfl⟩
    · obtain ⟨schedule, stored, named, entry, live, owned⟩ := registered.live id pointer found
      exact ⟨schedule, getElem?_concat_of_found stored new, named, entry,
        mem_append_left _ live, owned⟩

theorem registered_remove (registered : Registered s) (id : UUID) :
    Registered (s.removeSchedule id).2 := by
  rw [removeSchedule]
  split
  · exact registered
  · rename_i pointer found
    obtain ⟨schedule, stored, named, entry, live, own, job⟩ := registered.live id pointer found
    simp only [stored]
    refine ⟨registered.numbered.filter _, ?_, ?_, ?_⟩
    · exact (length_filter_le _ _).trans registered.short
    · exact fun entry member => registered.own entry (mem_of_mem_filter member)
    · intro id' pointer' found'
      rw [GoMap.lookup_erase_eq] at found'
      split_ifs at found' with other
      obtain ⟨schedule', stored', named', entry', live', own', job'⟩ :=
        registered.live id' pointer' found'
      refine ⟨schedule', stored', named', entry', mem_filter.mpr ⟨live', ?_⟩, own', job'⟩
      simp only [decide_eq_true_eq]
      -- one entry would belong to both pointers, and so to one ID
      intro removed
      obtain rfl : entry = entry' := inj_on_of_nodup_map registered.numbered.distinct live live'
        (own.trans removed.symm)
      obtain rfl : pointer = pointer' := job.symm.trans job'
      obtain rfl : schedule = schedule' := mem_unique stored stored'
      exact other (named'.symm.trans named)

theorem registered_modify (registered : Registered s) (id : UUID)
    (named : ∀ schedule, (change schedule).ID = schedule.ID)
    (numbered : ∀ schedule, (change schedule).EntryID = schedule.EntryID) :
    Registered (s.modifySchedule id change).2 := by
  rw [modifySchedule]
  split
  · exact registered
  · rename_i pointer _
    have kept {pointer' : Nat} {schedule : DAGSchedule W V}
        (stored : s.objects[pointer']? = some schedule) :
        ∃ schedule', (s.objects.modify pointer change)[pointer']? = some schedule' ∧
          schedule'.ID = schedule.ID ∧ schedule'.EntryID = schedule.EntryID := by
      rw [getElem?_modify, stored]
      refine ⟨_, rfl, ?_⟩
      split_ifs
      · exact ⟨named schedule, numbered schedule⟩
      · exact ⟨rfl, rfl⟩
    refine ⟨registered.numbered, registered.short, ?_, ?_⟩
    · intro entry member
      obtain ⟨schedule, stored, same⟩ := registered.own entry member
      obtain ⟨schedule', stored', -, entryID⟩ := kept stored
      exact ⟨schedule', stored', entryID.trans same⟩
    · intro id' pointer' found
      obtain ⟨schedule, stored, same, entry, live, own, job⟩ := registered.live id' pointer' found
      obtain ⟨schedule', stored', sameID, entryID⟩ := kept stored
      exact ⟨schedule', stored', sameID.trans same, entry, live, own.trans entryID.symm, job⟩

theorem registered_call (registered : Registered s) (called : s.call host c = some s') :
    Registered s' := by
  cases c with
  | add order id name cronExpr graph =>
    simp only [call] at called
    rcases addSchedule_cases host s order id name cronExpr graph with
      ⟨fault, failed⟩ | ⟨new, parsed, rfl, entryID, added⟩
    · rw [failed] at called
      cases fault with
      | error message => exact some.inj called ▸ registered
      | panic reason => cases called
    · rw [added] at called
      exact some.inj called ▸ registered_add registered parsed entryID
  | remove id => exact some.inj called ▸ registered_remove registered id
  | setCondition id | setTimeout id | enable id | disable id =>
    exact some.inj called ▸ registered_modify registered id (fun _ => rfl) fun _ => rfl

end

def Positioned {c : Cron.Engine Nat} (entries : Cron.Snapshot c) (entryID : Nat) : Prop :=
  c.entries.countP (fun e => (entries.next e.ID).less (entries.next entryID)) ≤ entryID ∧
    entryID < c.entries.countP fun e => !(entries.next entryID).less (entries.next e.ID)

section
variable {s : DAGScheduler W V} {pointer : Nat} {schedule : DAGSchedule W V}

theorem nextOf_own_iff : s.nextOf entries entryID = .ok ((entries s.cron).next entryID) ↔
      Positioned (entries s.cron) entryID := by
  rw [Positioned, ← snapshot_next_iff, nextOf]
  cases (entries s.cron).ids[entryID]? with
  | none | some => simp

theorem nextOf_panics (beyond : s.cron.entries.length ≤ entryID) :
    s.nextOf entries entryID = .error (.panic "index out of range") := by
  have outside : (entries s.cron).ids[entryID]? = none :=
    getElem?_eq_none ((snapshot_length _).trans_le beyond)
  rw [nextOf, outside]

variable (stored : s.objects[pointer]? = some schedule)
include stored

theorem enter_panics (enabled : schedule.Enabled = true)
    (fails : s.nextOf entries schedule.EntryID = .error fault) :
    s.enter entries pointer = (.error fault, s) := by
  simp [enter, stored, enabled, fails]

theorem enter_sets (enabled : schedule.Enabled = true)
    (found : s.nextOf entries schedule.EntryID = .ok due) :
    s.enter entries pointer = (.ok (some { schedule with NextRun := due }),
      { s with objects := s.objects.set pointer { schedule with NextRun := due } }) := by
  have goes : ¬ (!schedule.Enabled) = true := by simp [enabled]
  simp only [enter, stored, if_neg goes, found]

theorem record_panics (fails : s.nextOf entries schedule.EntryID = .error fault) :
    s.record entries pointer run = (.error fault,
      { s with objects := s.objects.set pointer { schedule with LastRun := some run } }) := by
  simp only [record, stored, fails]

theorem record_sets (found : s.nextOf entries schedule.EntryID = .ok due) :
    s.record entries pointer run = (.ok (), { s with
      objects := s.objects.set pointer { schedule with LastRun := some run, NextRun := due } }) := by
  simp only [record, stored, found]

end

def Records (env : RunEnv W V) (schedule : DAGSchedule W V) : Prop :=
  schedule.skippedRun env.world env.id env.startedAt = none ∧
    ((schedule.startRun env.id env.startedAt).finish
      (env.execute schedule.Timeout schedule.Graph)).2 = true

def nextRun (s : DAGScheduler W V) (pointer : Nat) : Option Cron.Activation :=
  s.objects[pointer]?.map (·.NextRun)

structure SetsOwnNext (s : DAGScheduler W V) (env : RunEnv W V) (pointer : Nat)
    (schedule : DAGSchedule W V) : Prop where
  returns : ∃ run, (s.executeSchedule env pointer).1 = .returned run
  entered : nextRun (s.enter env.entering pointer).2 pointer =
    some ((env.entering s.cron).next schedule.EntryID)
  recorded : Records env schedule → nextRun (s.executeSchedule env pointer).2 pointer =
    some ((env.recording s.cron).next schedule.EntryID)
  skipped : ¬ Records env schedule → nextRun (s.executeSchedule env pointer).2 pointer =
    some ((env.entering s.cron).next schedule.EntryID)

section
variable {s : DAGScheduler W V} {env : RunEnv W V} {pointer : Nat} {schedule : DAGSchedule W V}

variable (stored : s.objects[pointer]? = some schedule)
include stored

theorem nextRun_set : (s.objects.set pointer x)[pointer]?.map (·.NextRun) = some x.NextRun := by
  rw [getElem?_set_of_found stored]
  rfl

variable (enabled : schedule.Enabled = true)
include enabled

theorem executeSchedule_panics (fails : s.nextOf env.entering schedule.EntryID = .error fault) :
    s.executeSchedule env pointer = (.panicked fault, s) := by
  simp only [executeSchedule, enter_panics stored enabled fails]

theorem executeSchedule_skips (found : s.nextOf env.entering schedule.EntryID = .ok due)
    (skips : ¬ Records env schedule) : ∃ run, (s.executeSchedule env pointer).1 = .returned run ∧
      nextRun (s.executeSchedule env pointer).2 pointer = some due := by
  simp only [executeSchedule, enter_sets stored enabled found]
  split
  · exact ⟨_, rfl, nextRun_set stored⟩
  · rename_i goes
    split
    · exact ⟨_, rfl, nextRun_set stored⟩
    · rename_i run finished
      exact absurd ⟨goes, congrArg Prod.snd finished⟩ skips

theorem executeSchedule_records (found : s.nextOf env.entering schedule.EntryID = .ok due)
    (records : Records env schedule) :
    (∃ fault, s.nextOf env.recording schedule.EntryID = .error fault ∧
      (s.executeSchedule env pointer).1 = .deadlocked) ∨
    ∃ run next', s.nextOf env.recording schedule.EntryID = .ok next' ∧
      (s.executeSchedule env pointer).1 = .returned run ∧
      nextRun (s.executeSchedule env pointer).2 pointer = some next' := by
  simp only [executeSchedule, enter_sets stored enabled found]
  split
  · rename_i run skipped
    exact absurd (records.1.symm.trans skipped) (by simp)
  · split
    · rename_i run finished
      exact absurd (records.2.symm.trans (congrArg Prod.snd finished)) (by simp)
    · -- the lookup reads the cron engine, which the call has not changed
      have stored' : (register
          { s with objects := s.objects.set pointer { schedule with NextRun := due } }
          schedule.ID env.number).objects[pointer]? = some { schedule with NextRun := due } :=
        getElem?_set_of_found stored _
      cases looked : s.nextOf env.recording schedule.EntryID with
      | error fault =>
        rw [record_panics stored' looked]
        exact .inl ⟨fault, rfl, rfl⟩
      | ok next' =>
        rw [record_sets stored' looked]
        exact .inr ⟨_, next', rfl, rfl, nextRun_set stored'⟩

theorem executeSchedule_panics_last (registered : Registered s)
    (last : schedule.EntryID = s.cron.nextID) :
    s.executeSchedule env pointer = (.panicked (.panic "index out of range"), s) :=
  executeSchedule_panics stored enabled (nextOf_panics (last ▸ registered.short))

theorem setsOwnNext_iff : SetsOwnNext s env pointer schedule ↔
      Positioned (env.entering s.cron) schedule.EntryID ∧
        (Records env schedule → Positioned (env.recording s.cron) schedule.EntryID) := by
  rw [← nextOf_own_iff, ← nextOf_own_iff]
  cases looked : s.nextOf env.entering schedule.EntryID with
  | error fault =>
    constructor
    · rintro ⟨⟨run, returned⟩, -⟩
      rw [executeSchedule_panics stored enabled looked] at returned
      cases returned
    · rintro ⟨found, -⟩
      cases found
  | ok next =>
    have entered : nextRun (s.enter env.entering pointer).2 pointer = some next := by
      rw [enter_sets stored enabled looked]
      exact nextRun_set stored
    by_cases records : Records env schedule
    · rcases executeSchedule_records stored enabled looked records with
        ⟨fault, looked', deadlocked⟩ | ⟨run, next', looked', returned, ended⟩
      · constructor
        · rintro ⟨⟨run, returned⟩, -⟩
          rw [deadlocked] at returned
          cases returned
        · rintro ⟨-, own⟩
          rw [looked'] at own
          cases own records
      · rw [looked', Except.ok.injEq, Except.ok.injEq]
        constructor
        · rintro ⟨-, own, own', -⟩
          exact ⟨mem_unique entered own,
            fun _ => mem_unique ended (own' records)⟩
        · rintro ⟨rfl, own'⟩
          obtain rfl := own' records
          exact ⟨⟨run, returned⟩, entered, fun _ => ended, fun skips => absurd records skips⟩
    · obtain ⟨run, returned, ended⟩ := executeSchedule_skips stored enabled looked records
      rw [Except.ok.injEq]
      constructor
      · rintro ⟨-, own, -⟩
        exact ⟨mem_unique entered own, fun does => absurd does records⟩
      · rintro ⟨rfl, -⟩
        exact ⟨⟨run, returned⟩, entered, fun does => absurd does records, fun _ => ended⟩

end

theorem executeSchedule_sets_own_next_iff (host : Host) {calls : List (ScheduleCall W)}
    {s : DAGScheduler W V}
    (run : runSchedule (DAGScheduler.call host) (newDAGScheduler W V) calls = some s)
    {pointer : Nat} (fires : Fires s pointer) {schedule : DAGSchedule W V}
    (stored : s.objects[pointer]? = some schedule) (enabled : schedule.Enabled = true)
    (env : RunEnv W V) :
    (∃ entry ∈ s.cron.entries, entry.ID = schedule.EntryID ∧ entry.Job = pointer) ∧
      (SetsOwnNext s env pointer schedule ↔ Positioned (env.entering s.cron) schedule.EntryID ∧
          (Records env schedule → Positioned (env.recording s.cron) schedule.EntryID)) := by
  have registered : Registered s := runSchedule_invariant Registered
    (fun _ _ _ => registered_call) run registered_start
  obtain ⟨schedule', stored', entry⟩ := registered.fires fires
  obtain rfl : schedule = schedule' := mem_unique stored stored'
  exact ⟨entry, setsOwnNext_iff stored enabled⟩

def ascendingValidation : ValidateOrder where
  sort := ⟨ascending, ascending⟩
  cycleNodes := ascending
  inCycle := ascending
  orphanNodes := ascending
  levels := ⟨⟨ascending, ascending⟩, ascending, ascending, ascending⟩

def addChain (id : UUID) (cronExpr : String) : ScheduleCall Unit :=
  .add ascendingValidation id "nightly" cronExpr (graphAfter chain)

def twoSchedules : DAGScheduler Unit Nat :=
  (runSchedule (DAGScheduler.call Proof.Scheduler.sampleHost) (newDAGScheduler Unit Nat)
    [addChain 7 "@daily", addChain 8 "0 */5 * * * *"]).get (by decide +kernel)

def secondFirst : (c : Cron.Engine Nat) → Cron.Snapshot c :=
  entriesBy fun id => if id = 2 then some 5 else some 10

def successfulRun : RunEnv Unit Nat where
  entering := secondFirst
  recording := secondFirst
  number := 0
  world := ()
  id := 9
  startedAt := 0
  execute _ _ := ⟨.ok ⟨"", ∅, true⟩, none, 1, 1⟩

instance {c : Cron.Engine Nat} (entries : Cron.Snapshot c) (entryID : Nat) :
    Decidable (Positioned entries entryID) :=
  inferInstanceAs (Decidable (_ ∧ _))

theorem executeSchedule_sets_own_next_iff_two :
    ∃ schedule, twoSchedules.objects[0]? = some schedule ∧
      SetsOwnNext twoSchedules successfulRun 0 schedule := by
  refine exists_reached (fun x => x.Enabled = true ∧ x.EntryID = 1) (by decide +kernel) ?_
  rintro schedule stored ⟨enabled, entryID⟩
  have found : twoSchedules.schedules.lookup 7 = some 0 := by decide +kernel
  have positioned : Positioned (secondFirst twoSchedules.cron) schedule.EntryID := by
    rw [entryID]
    decide +kernel
  have iff := executeSchedule_sets_own_next_iff Proof.Scheduler.sampleHost
    (some_get _).symm (.runNow found) stored enabled successfulRun
  exact iff.2.mpr ⟨positioned, fun _ => positioned⟩

theorem runNow_panics_alone : ∃ s : DAGScheduler Unit Nat,
      runSchedule (DAGScheduler.call Proof.Scheduler.sampleHost) (newDAGScheduler Unit Nat)
        [addChain 7 "@daily"] = some s ∧
      s.schedules.lookup 7 = some 0 ∧ s.objects[0]?.map (·.Enabled) = some true ∧
      ∀ env, s.runNow env 7 = (.ok (.panicked (.panic "index out of range")), s) := by
  refine exists_reached (fun s => s.schedules.lookup 7 = some 0 ∧ ∃ x ∈ s.objects[0]?,
    x.Enabled = true ∧ x.EntryID = s.cron.nextID) (by decide +kernel) ?_
  rintro s run ⟨found, schedule, stored, enabled, last⟩
  have registered : Registered s := runSchedule_invariant Registered
    (fun _ _ _ => registered_call) run registered_start
  refine ⟨found, by rw [stored, ← enabled]; rfl, fun env => ?_⟩
  simp only [runNow, found, executeSchedule_panics_last stored enabled registered last]

end NexusPipe.Proof.Dag
