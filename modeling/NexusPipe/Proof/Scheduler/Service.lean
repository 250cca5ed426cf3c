import NexusPipe.Proof.Cron
import NexusPipe.Proof.Scheduler.Job
import NexusPipe.Scheduler.Service

namespace NexusPipe.Proof.Scheduler
open Library Models NexusPipe.Scheduler SchedulerService List

def registers (host : Host) (sch : Schedule) : Bool :=
  (host.loadLocation sch.Timezone).isOk && (host.parse .standard sch.CronExpression).isOk &&
    (host.parse .withSeconds sch.CronExpression).isOk

def enroll (s : SchedulerService) (schedule : Cron.Schedule) (job : ScheduledJob) :
    SchedulerService :=
  { s with
    cron := (s.cron.schedule schedule job).2
    activeJobs := s.activeJobs.insert job.ScheduleID (s.cron.nextID + 1) }

section
variable {host : Host} {s : SchedulerService} {stamp : Stamp} {sch : Schedule}

theorem registers_iff : registers host sch = true ↔
      (∃ loc, host.loadLocation sch.Timezone = .ok loc) ∧
        (∃ schedule, host.parse .standard sch.CronExpression = .ok schedule) ∧
        ∃ schedule, host.parse .withSeconds sch.CronExpression = .ok schedule := by
  simp only [registers, Bool.and_eq_true, isOk_iff, and_assoc]

variable (stamp) in
theorem addJob_of_parse {schedule schedule' : Cron.Schedule} {loc : Location}
    (seconds : s.cron.parser = .withSeconds) (located : host.loadLocation sch.Timezone = .ok loc)
    (parsed : host.parse .standard sch.CronExpression = .ok schedule)
    (parsed' : host.parse .withSeconds sch.CronExpression = .ok schedule') :
    ∃ job : ScheduledJob, job.ScheduleID = sch.ID ∧
      s.addJob host stamp sch = (.ok (s.cron.nextID + 1), enroll s schedule' job) := by
  obtain ⟨job, made⟩ := exists_newScheduledJob located parsed stamp
  have named := (newScheduledJob_eq_ok made).1
  refine ⟨job, named, ?_⟩
  simp only [addJob, made, Cron.Engine.addFunc, seconds, parsed', Except.map,
    enroll, named, Cron.Engine.schedule]

theorem addJob_of_registers (seconds : s.cron.parser = .withSeconds)
    (accepted : registers host sch = true) : ∃ schedule job, job.ScheduleID = sch.ID ∧
      s.addJob host stamp sch = (.ok (s.cron.nextID + 1), enroll s schedule job) := by
  obtain ⟨⟨loc, located⟩, ⟨_, parsed⟩, ⟨schedule, parsed'⟩⟩ := registers_iff.mp accepted
  exact ⟨schedule, addJob_of_parse stamp seconds located parsed parsed'⟩

theorem addJob_of_not_registers (seconds : s.cron.parser = .withSeconds)
    (rejected : ¬ registers host sch = true) :
    ∃ fault, s.addJob host stamp sch = (.error fault, s) := by
  rw [addJob.eq_def]
  cases made : newScheduledJob host stamp sch with
  | error fault => exact ⟨_, rfl⟩
  | ok job =>
    obtain ⟨-, t, computed⟩ := newScheduledJob_eq_ok made
    obtain ⟨loc, located, schedule, parsed, -⟩ := nextRunTime_eq_ok.mp computed
    cases parsed' : host.parse .withSeconds sch.CronExpression with
    | error fault => simp [Cron.Engine.addFunc, seconds, parsed', Except.map]
    | ok schedule' =>
      exact absurd (registers_iff.mpr ⟨⟨loc, located⟩, ⟨schedule, parsed⟩, schedule', parsed'⟩)
        rejected

end

structure Tidy (c : Cron.Engine ScheduledJob) : Prop where
  seconds : c.parser = .withSeconds
  zone : c.location = .localZone
  issued : ∀ e ∈ c.entries, e.ID ≤ c.nextID
  distinct : (c.entries.map Cron.Entry.ID).Nodup

def entriesOf (s : SchedulerService) (id : String) : List (Cron.Entry ScheduledJob) :=
  s.cron.entries.filter fun e => e.Job.ScheduleID = id

structure Corresponds (s : SchedulerService) : Prop where
  live : ∀ id entryID, s.activeJobs.lookup id = some entryID →
    (entriesOf s id).map Cron.Entry.ID = [entryID]
  owned : ∀ e ∈ s.cron.entries, s.activeJobs.lookup e.Job.ScheduleID = some e.ID

variable {e : Cron.Entry ScheduledJob}

section
variable {s : SchedulerService} {id : String} {job : ScheduledJob}

theorem Tidy.numbered (tidy : Tidy c) : Numbered c := ⟨tidy.issued, tidy.distinct⟩

theorem Tidy.grow (tidy : Tidy c) : Tidy (c.schedule schedule job).2 :=
  have numbered := tidy.numbered.schedule schedule job
  ⟨tidy.seconds, tidy.zone, numbered.issued, numbered.distinct⟩

theorem Tidy.filter (tidy : Tidy c) (keep : Cron.Entry ScheduledJob → Bool) :
    Tidy { c with entries := c.entries.filter keep } :=
  have numbered := tidy.numbered.filter keep
  ⟨tidy.seconds, tidy.zone, numbered.issued, numbered.distinct⟩

theorem entriesOf_enroll :
    entriesOf (enroll s schedule job) id =
      entriesOf s id ++ if job.ScheduleID = id then [⟨s.cron.nextID + 1, schedule, job⟩] else [] := by
  simp only [entriesOf, enroll, Cron.Engine.schedule, filter_append, filter_singleton]
  split_ifs <;> simp_all

section
variable (corresponds : Corresponds s)
include corresponds

theorem Corresponds.length_entriesOf (active : id ∈ s.activeJobs) :
    (entriesOf s id).length = 1 := by
  obtain ⟨entryID, found⟩ := Finmap.mem_iff.mp active
  have single := congrArg length (corresponds.live id entryID found)
  rwa [length_map] at single

theorem Corresponds.entriesOf_eq_nil (idle : id ∉ s.activeJobs) : entriesOf s id = [] := by
  apply filter_eq_nil_iff.mpr
  intro e member same
  rw [decide_eq_true_eq] at same
  exact idle (same ▸ Finmap.mem_of_lookup_eq_some (corresponds.owned e member))

theorem Corresponds.enroll (idle : job.ScheduleID ∉ s.activeJobs) :
    Corresponds (enroll s schedule job) := by
  constructor
  · intro id entryID found
    rw [entriesOf_enroll]
    rw [Scheduler.enroll, GoMap.lookup_insert_eq] at found
    by_cases same : id = job.ScheduleID
    · subst same
      rw [if_pos rfl, Option.some.injEq] at found
      rw [corresponds.entriesOf_eq_nil idle, if_pos rfl, ← found]
      rfl
    · rw [if_neg same] at found
      rw [if_neg (Ne.symm same), append_nil]
      exact corresponds.live id entryID found
  · intro e member
    rw [Scheduler.enroll, GoMap.lookup_insert_eq]
    rcases mem_append.mp member with old | new
    · have found := corresponds.owned e old
      rw [if_neg, found]
      intro same
      exact idle (same ▸ Finmap.mem_of_lookup_eq_some found)
    · rw [mem_singleton.mp new, if_pos rfl]

theorem Corresponds.ID_eq_iff (tidy : Tidy s.cron) (found : s.activeJobs.lookup id = some entryID)
    (member : e ∈ s.cron.entries) : e.ID = entryID ↔ e.Job.ScheduleID = id := by
  constructor
  · intro same
    have listed : entryID ∈ (entriesOf s id).map Cron.Entry.ID := by
      rw [corresponds.live id entryID found]
      exact mem_singleton_self entryID
    obtain ⟨e', inside, same'⟩ := mem_map.mp listed
    obtain ⟨member', named⟩ := mem_filter.mp inside
    have equal := inj_on_of_nodup_map tidy.distinct member member' (same.trans same'.symm)
    rw [equal]
    exact of_decide_eq_true named
  · intro named
    have owned := corresponds.owned e member
    rw [named, found, Option.some.injEq] at owned
    exact owned.symm

theorem Corresponds.removeJob (tidy : Tidy s.cron) (id : String) :
    Corresponds (s.removeJob id).2 := by
  unfold SchedulerService.removeJob
  cases found : s.activeJobs.lookup id with
  | none => exact corresponds
  | some entryID =>
    have kept : (s.cron.remove entryID).entries =
        s.cron.entries.filter fun e => e.Job.ScheduleID ≠ id := by
      apply filter_congr
      intro e member
      simp only [corresponds.ID_eq_iff tidy found member, ne_eq]
    constructor
    · intro id' entryID' found'
      simp only [GoMap.lookup_erase_eq] at found'
      split_ifs at found' with same
      have others : entriesOf s id' =
          (s.cron.entries.filter fun e => e.Job.ScheduleID ≠ id).filter
            fun e => e.Job.ScheduleID = id' := by
        rw [filter_filter, entriesOf]
        apply filter_congr
        intro e _
        by_cases named : e.Job.ScheduleID = id'
        · simp [named, same]
        · simp [named]
      simp only [entriesOf, kept, ← others]
      exact corresponds.live id' entryID' found'
    · intro e member
      simp only [kept, mem_filter, decide_eq_true_eq] at member
      simp only [GoMap.lookup_erase_eq, if_neg member.2]
      exact corresponds.owned e member.1

end

theorem removeJob_idle (s : SchedulerService) (id : String) : id ∉ (s.removeJob id).2.activeJobs := by
  unfold removeJob
  cases found : s.activeJobs.lookup id with
  | none => exact Finmap.lookup_eq_none.mp found
  | some entryID =>
    apply Finmap.lookup_eq_none.mp
    exact Finmap.lookup_erase id s.activeJobs

theorem Tidy.removeJob (tidy : Tidy s.cron) (id : String) : Tidy (s.removeJob id).2.cron := by
  unfold SchedulerService.removeJob
  cases s.activeJobs.lookup id with
  | none => exact tidy
  | some entryID => exact tidy.filter _

end

def accepted (host : Host) (schedules : List Schedule) : List String :=
  (schedules.filter (registers host)).map Schedule.ID

inductive Loads (host : Host) :
    List Schedule → SchedulerService → SchedulerService → Prop
  | nil (s : SchedulerService) : Loads host [] s s
  | reject (rejected : ¬ registers host sch = true) (rest : Loads host schedules s s') :
      Loads host (sch :: schedules) s s'
  | accept {sch : Schedule} {schedules : List Schedule} {s s' : SchedulerService}
      {schedule : Cron.Schedule} {job : ScheduledJob} (registered : registers host sch = true)
      (named : job.ScheduleID = sch.ID) (rest : Loads host schedules (enroll s schedule job) s') :
      Loads host (sch :: schedules) s s'

section
variable {s : SchedulerService} {id : String}

theorem accepted_cons_of_pos (registered : registers host sch = true) :
    accepted host (sch :: schedules) = sch.ID :: accepted host schedules := by
  rw [accepted, filter_cons_of_pos registered, map_cons, accepted]

theorem accepted_cons_of_neg (rejected : ¬ registers host sch = true) :
    accepted host (sch :: schedules) = accepted host schedules := by
  rw [accepted, filter_cons_of_neg rejected, accepted]

theorem addJob_loads (tidy : Tidy s.cron) : Loads host [sch] s (s.addJob host stamp sch).2 := by
  by_cases registered : registers host sch = true
  · obtain ⟨schedule, job, named, added⟩ := addJob_of_registers tidy.seconds registered
    rw [added]
    exact .accept registered named (.nil _)
  · obtain ⟨fault, unchanged⟩ := addJob_of_not_registers tidy.seconds registered
    rw [unchanged]
    exact .reject registered (.nil s)

theorem settle_eq_some {V : Type} {answer : Except Fault V × SchedulerService}
    (settled : settle answer = some s') : answer.2 = s' := by
  unfold settle at settled
  split at settled
  · cases settled
  · exact Option.some.inj settled

theorem addJobs_loads (tidy : Tidy s.cron)
    (settled : settle (addJobs host stamps items s) = some s') :
    Loads host (items.map Prod.fst) s s' := by
  induction items generalizing s with
  | nil =>
    obtain rfl := settle_eq_some settled
    exact .nil s
  | cons item items ih =>
    rw [addJobs] at settled
    by_cases registered : registers host item.1 = true
    · obtain ⟨schedule, job, named, added⟩ := addJob_of_registers tidy.seconds registered
      rw [added] at settled
      exact .accept registered named (ih tidy.grow settled)
    · obtain ⟨fault, unchanged⟩ := addJob_of_not_registers tidy.seconds registered
      rw [unchanged] at settled
      cases fault with
      | error message => exact .reject registered (ih tidy settled)
      | panic reason => cases settled

section
variable (loads : Loads host schedules s s')
include loads

theorem Loads.tidy (tidy : Tidy s.cron) : Tidy s'.cron := by
  induction loads with
  | nil s => exact tidy
  | reject rejected rest ih => exact ih tidy
  | accept registered named rest ih => exact ih tidy.grow

theorem Loads.length_entriesOf (id : String) :
    (entriesOf s' id).length = (entriesOf s id).length + (accepted host schedules).count id := by
  induction loads with
  | nil s => rfl
  | reject rejected rest ih => rw [ih, accepted_cons_of_neg rejected]
  | @accept sch schedules s s' schedule job registered named rest ih =>
    rw [ih, entriesOf_enroll, length_append, accepted_cons_of_pos registered, count_cons, named]
    by_cases same : sch.ID = id
    · rw [if_pos same, if_pos (beq_iff_eq.mpr same), length_singleton]
      omega
    · rw [if_neg same, if_neg (beq_iff_eq.not.mpr same), length_nil]
      omega

theorem Loads.active (active : id ∈ s.activeJobs ∨ id ∈ accepted host schedules) :
    id ∈ s'.activeJobs := by
  induction loads with
  | nil s => simpa [accepted] using active
  | reject rejected rest ih => exact ih (by rwa [accepted_cons_of_neg rejected] at active)
  | accept registered named rest ih =>
    apply ih
    rw [accepted_cons_of_pos registered, mem_cons] at active
    rw [enroll, Finmap.mem_insert, named]
    tauto

theorem Loads.corresponds_iff (corresponds : Corresponds s) : Corresponds s' ↔
      (accepted host schedules).Nodup ∧ ∀ id ∈ accepted host schedules, id ∉ s.activeJobs := by
  constructor
  · intro corresponds'
    have once (id : String) (member : id ∈ accepted host schedules) :
        (entriesOf s id).length + (accepted host schedules).count id = 1 := by
      rw [← loads.length_entriesOf, corresponds'.length_entriesOf (loads.active (.inr member))]
    constructor
    · apply nodup_iff_count_le_one.mpr
      intro id
      by_cases member : id ∈ accepted host schedules
      · have := once id member
        omega
      · rw [count_eq_zero_of_not_mem member]
        exact Nat.zero_le 1
    · intro id member active
      have := once id member
      have := corresponds.length_entriesOf active
      have := count_pos_iff.mpr member
      omega
  · rintro ⟨nodup, idle⟩
    induction loads with
    | nil s => exact corresponds
    | reject rejected rest ih =>
      rw [accepted_cons_of_neg rejected] at nodup idle
      exact ih corresponds nodup idle
    | accept registered named rest ih =>
      rw [accepted_cons_of_pos registered] at nodup idle
      rw [nodup_cons] at nodup
      rw [← named] at nodup idle
      apply ih (corresponds.enroll (idle _ mem_cons_self)) nodup.2
      intro id member active
      rw [enroll, Finmap.mem_insert] at active
      rcases active with rfl | active
      · exact nodup.1 member
      · exact idle id (mem_cons_of_mem _ member) active

end

theorem addJob_corresponds_iff (tidy : Tidy s.cron) (corresponds : Corresponds s) :
    Corresponds (s.addJob host stamp sch).2 ↔
      (registers host sch = true → sch.ID ∉ s.activeJobs) := by
  rw [(addJob_loads tidy).corresponds_iff corresponds]
  by_cases registered : registers host sch = true
  · rw [accepted_cons_of_pos registered]
    simp [accepted, registered]
  · rw [accepted_cons_of_neg registered]
    simp [accepted, registered]

end

section
variable {s : SchedulerService}

theorem clearEntries_cron (items : List ((_ : String) × Nat)) (s : SchedulerService) :
    (items.foldl (fun s item =>
        { s with cron := s.cron.remove item.2, activeJobs := s.activeJobs.erase item.1 })
      s).cron = { s.cron with entries := s.cron.entries.filter (·.ID ∉ items.map Sigma.snd) } := by
  induction items generalizing s with
  | nil => simp
  | cons item items ih =>
    rw [foldl_cons, ih]
    simp [Cron.Engine.remove, filter_filter, Bool.and_comm, -mem_map]

theorem clearEntries_lookup (items : List ((_ : String) × Nat)) (s : SchedulerService)
    (id : String) :
    (items.foldl (fun s item =>
        { s with cron := s.cron.remove item.2, activeJobs := s.activeJobs.erase item.1 })
      s).activeJobs.lookup id =
        if id ∈ items.map Sigma.fst then none else s.activeJobs.lookup id := by
  induction items generalizing s with
  | nil => simp
  | cons item items ih =>
    rw [foldl_cons, ih, GoMap.lookup_erase_eq, map_cons]
    by_cases here : id = item.1 <;> by_cases later : id ∈ items.map Sigma.fst <;>
      simp [here, later]

variable (order : GoMap.RangeOrder String Nat)

theorem Tidy.clearJobs (tidy : Tidy s.cron) : Tidy (s.clearJobs order).cron := by
  rw [SchedulerService.clearJobs, clearEntries_cron]
  exact tidy.filter _

theorem clearJobs_idle (s : SchedulerService) (id : String) :
    id ∉ (s.clearJobs order).activeJobs := by
  apply Finmap.lookup_eq_none.mp
  rw [clearJobs, clearEntries_lookup]
  split_ifs with member
  · rfl
  · rw [(order s.activeJobs).mem_keys] at member
    exact Finmap.lookup_eq_none.mpr member

theorem Corresponds.clearJobs (corresponds : Corresponds s) : Corresponds (s.clearJobs order) := by
  constructor
  · intro id entryID found
    exact absurd (Finmap.mem_of_lookup_eq_some found) (clearJobs_idle order s id)
  · intro e member
    rw [SchedulerService.clearJobs, clearEntries_cron, mem_filter] at member
    have visited : e.ID ∈ (order s.activeJobs).entries.map Sigma.snd := by
      apply mem_map.mpr
      exact ⟨_, (order s.activeJobs).mem_entries.mpr (corresponds.owned e member.1), rfl⟩
    exact absurd visited (of_decide_eq_true member.2)

end

def Fresh (host : Host) (s : SchedulerService) : JobCall → Prop
  | .add _ sch => registers host sch = true → sch.ID ∉ s.activeJobs
  | .remove _ => True
  | .update _ _ => True
  | .reload _ _ (.error _) => True
  | .reload _ _ (.ok schedules) => (accepted host schedules).Nodup

instance (host : Host) (s : SchedulerService) : DecidablePred (Fresh host s)
  | .add _ sch => inferInstanceAs (Decidable (registers host sch = true → sch.ID ∉ s.activeJobs))
  | .remove _ => .isTrue trivial
  | .update _ _ => .isTrue trivial
  | .reload _ _ (.error _) => .isTrue trivial
  | .reload _ _ (.ok schedules) => inferInstanceAs (Decidable (accepted host schedules).Nodup)

section
variable {s : SchedulerService}

theorem corresponds_store (corresponds : Corresponds s) (store : PostgresScheduleStore) :
    Corresponds { s with store } :=
  ⟨corresponds.live, corresponds.owned⟩

theorem reload_error (called : s.call host order (.reload now stamps (.error err)) = some s') :
    s' = s.clearJobs order :=
  (Option.some.inj called).symm

theorem loadActiveJobs_ok (tidy : Tidy s.cron)
    (settled : settle (s.loadActiveJobs host now stamps (.ok schedules)) = some s') :
    ∃ store, Loads host schedules { s with store } s' := by
  refine ⟨(s.store.getActiveSchedules (.ok schedules) now).2, ?_⟩
  have tidy' (store : PostgresScheduleStore) : Tidy ({ s with store } : SchedulerService).cron :=
    tidy
  have loads := addJobs_loads (tidy' _) settled
  rwa [zipIdx_map_fst] at loads

theorem call_tidy (tidy : Tidy s.cron) (called : s.call host order c = some s') : Tidy s'.cron := by
  cases c with
  | add stamp sch => exact settle_eq_some called ▸ (addJob_loads tidy).tidy tidy
  | remove id => exact Option.some.inj called ▸ tidy.removeJob id
  | update stamp sch =>
    have tidy' := tidy.removeJob sch.ID
    exact settle_eq_some called ▸ (addJob_loads tidy').tidy tidy'
  | reload now stamps listed =>
    have tidy' := tidy.clearJobs order
    cases listed with
    | error err => exact reload_error called ▸ tidy'
    | ok schedules =>
      obtain ⟨store, loads⟩ := loadActiveJobs_ok (tidy.clearJobs order) called
      exact loads.tidy tidy'

theorem call_corresponds_iff (tidy : Tidy s.cron) (corresponds : Corresponds s)
    (called : s.call host order c = some s') : Corresponds s' ↔ Fresh host s c := by
  cases c with
  | add stamp sch =>
    rw [← settle_eq_some called]
    exact addJob_corresponds_iff tidy corresponds
  | remove id =>
    rw [← Option.some.inj called]
    exact iff_of_true (corresponds.removeJob tidy id) trivial
  | update stamp sch =>
    rw [← settle_eq_some called]
    apply iff_of_true _ trivial
    apply (addJob_corresponds_iff (tidy.removeJob sch.ID)
      (corresponds.removeJob tidy sch.ID)).mpr
    exact fun _ => removeJob_idle s sch.ID
  | reload now stamps listed =>
    have cleared := corresponds.clearJobs order
    cases listed with
    | error err =>
      rw [reload_error called]
      exact iff_of_true cleared trivial
    | ok schedules =>
      obtain ⟨store, loads⟩ := loadActiveJobs_ok (tidy.clearJobs order) called
      rw [loads.corresponds_iff (corresponds_store cleared store)]
      exact and_iff_left fun id _ => clearJobs_idle order s id

end

section
variable (host : Host) (order : GoMap.RangeOrder String Nat) (repo : ScheduleRepository)
  (calls : List JobCall) (s : SchedulerService)

theorem start_tidy : Tidy (newSchedulerService repo).cron :=
  ⟨rfl, rfl, fun _ member => absurd member not_mem_nil, nodup_nil⟩

theorem start_corresponds : Corresponds (newSchedulerService repo) :=
  ⟨fun id _ found => by simp [newSchedulerService] at found,
    fun _ member => absurd member not_mem_nil⟩

variable {host order repo calls s} in
theorem run_tidy (run : runSchedule (call host order) (newSchedulerService repo) calls = some s) :
    Tidy s.cron :=
  runSchedule_invariant (fun s => Tidy s.cron) (fun _ _ _ tidy called => call_tidy tidy called) run
    (start_tidy repo)

theorem corresponds_throughout_iff
    (run : runSchedule (SchedulerService.call host order) (newSchedulerService repo) calls = some s) :
    (∀ before after s', calls = before ++ after →
        runSchedule (SchedulerService.call host order) (newSchedulerService repo) before = some s' →
        Corresponds s') ↔
      Along (SchedulerService.call host order) (Fresh host) (newSchedulerService repo) calls := by
  refine throughout_iff_along (fun s => Tidy s.cron) Corresponds ?_ ?_ run (start_tidy repo)
    (start_corresponds repo)
  · exact fun _ _ _ tidy called => call_tidy tidy called
  · exact fun _ _ _ tidy corresponds called => call_corresponds_iff tidy corresponds called

end

def byText : GoMap.RangeOrder String Nat := GoMap.ascending textRank textRank_injective

theorem reload_corresponds : ∃ s,
    runSchedule (SchedulerService.call sampleHost byText) (newSchedulerService ∅)
      [.add ⟨0, 1⟩ (sampleSchedule "@daily" "UTC"), .update ⟨0, 2⟩ (sampleSchedule "@daily" "UTC"),
        .reload 0 (fun _ => ⟨0, 3⟩)
          (.ok [sampleSchedule "@daily" "UTC", sampleSchedule "*/5 * * * *" "UTC"])] = some s ∧
      Corresponds s := by
  refine exists_reached (fun _ => True) (by decide +kernel) fun s run _ => ?_
  have always := (corresponds_throughout_iff sampleHost byText ∅ _ s run).mpr (by decide +kernel)
  exact always _ [] s (append_nil _).symm run

theorem addTwice_not_corresponds : ∃ s,
    runSchedule (SchedulerService.call sampleHost byText) (newSchedulerService ∅)
      [.add ⟨0, 1⟩ (sampleSchedule "@daily" "UTC"), .add ⟨0, 2⟩ (sampleSchedule "@daily" "UTC")] =
        some s ∧
      s.cron.entries.map Cron.Entry.ID = [1, 2] ∧ s.activeJobs.lookup "nightly" = some 2 ∧
      ¬ Corresponds s := by
  refine exists_reached (fun s => s.cron.entries.map Cron.Entry.ID = [1, 2] ∧
    s.activeJobs.lookup "nightly" = some 2 ∧ (entriesOf s "nightly").map Cron.Entry.ID = [1, 2])
    (by decide +kernel) ?_
  rintro s - ⟨entries, active, both⟩
  refine ⟨entries, active, fun corresponds => ?_⟩
  have single := corresponds.live "nightly" 2 active
  rw [both] at single
  cases single

def FiresAsValidated (host : Host) (sch : Schedule) (c : Cron.Engine ScheduledJob)
    (e : Cron.Entry ScheduledJob) : Prop :=
  ∃ loc schedule, host.loadLocation sch.Timezone = .ok loc ∧
    host.parse .standard sch.CronExpression = .ok schedule ∧
    ∀ t, (e.Schedule.next ⟨t, c.location⟩).instant = (schedule.next ⟨t, loc⟩).instant

def AddedAsValidated (host : Host) (s : SchedulerService) (stamp : Stamp) (sch : Schedule) : Prop :=
  ∃ entryID, (s.addJob host stamp sch).1 = .ok entryID ∧
    ∃ e ∈ (s.addJob host stamp sch).2.cron.entries, e.ID = entryID ∧
      FiresAsValidated host sch (s.addJob host stamp sch).2.cron e

def ZoneFree (host : Host) (sch : Schedule) : Prop :=
  ∀ loc schedule, host.loadLocation sch.Timezone = .ok loc →
    host.parse .standard sch.CronExpression = .ok schedule →
    ∀ t, (schedule.next ⟨t, .localZone⟩).instant = (schedule.next ⟨t, loc⟩).instant

theorem zoneFree_iff {host : Host} {sch : Schedule}
    (located : host.loadLocation sch.Timezone = .ok loc)
    (parsed : host.parse .standard sch.CronExpression = .ok schedule) : ZoneFree host sch ↔
      ∀ t, (schedule.next ⟨t, .localZone⟩).instant = (schedule.next ⟨t, loc⟩).instant := by
  constructor
  · intro free
    exact free loc schedule located parsed
  · intro free loc' schedule' located' parsed'
    obtain rfl := ok_unique located located'
    obtain rfl := ok_unique parsed parsed'
    exact free

theorem Tidy.mem_enroll {s : SchedulerService} (tidy : Tidy s.cron)
    (member : e ∈ (enroll s schedule job).cron.entries) (last : e.ID = s.cron.nextID + 1) :
    e.Schedule = schedule := by
  rcases mem_append.mp member with old | new
  · have := tidy.issued e old
    omega
  · rw [mem_singleton.mp new]

theorem addedAsValidated_iff (host : Host) (order : GoMap.RangeOrder String Nat)
    (repo : ScheduleRepository) (calls : List JobCall) (s : SchedulerService) (stamp : Stamp)
    (sch : Schedule)
    (run : runSchedule (SchedulerService.call host order) (newSchedulerService repo) calls = some s)
    (valid : sch.validate host = .ok ()) : AddedAsValidated host s stamp sch ↔
      Cron.isDescriptor sch.CronExpression = true ∧ ZoneFree host sch := by
  have tidy := run_tidy run
  obtain ⟨⟨loc, located⟩, schedule, parsed⟩ := validate_eq_ok valid
  by_cases descriptor : Cron.isDescriptor sch.CronExpression = true
  · obtain ⟨job, named, added⟩ :=
      addJob_of_parse stamp tidy.seconds located parsed (parse_descriptor descriptor parsed)
    have zone : (enroll s schedule job).cron.location = .localZone := tidy.zone
    rw [AddedAsValidated, added, zoneFree_iff located parsed]
    constructor
    · rintro ⟨entryID, answer, e, member, identified, loc', schedule', located', parsed', fires⟩
      cases answer
      obtain rfl := ok_unique located located'
      obtain rfl := ok_unique parsed parsed'
      rw [tidy.mem_enroll member identified, zone] at fires
      exact ⟨descriptor, fires⟩
    · rintro ⟨-, free⟩
      refine ⟨_, rfl, _, mem_append_right _ (mem_singleton_self _), rfl, loc, schedule,
        located, parsed, ?_⟩
      rw [zone]
      exact free
  · obtain ⟨fault, rejected⟩ := parse_fields descriptor parsed
    have unregistered : ¬ registers host sch = true := by
      rw [registers_iff, rejected]
      rintro ⟨-, -, _, accepted⟩
      cases accepted
    obtain ⟨fault', unchanged⟩ := addJob_of_not_registers tidy.seconds unregistered
    constructor
    · rintro ⟨entryID, answer, -⟩
      rw [unchanged] at answer
      cases answer
    · intro condition
      exact absurd condition.1 descriptor

theorem namedZone_addedAsValidated : AddedAsValidated sampleHost (newSchedulerService ∅) ⟨0, 1⟩
      (sampleSchedule "CRON_TZ=America/New_York @daily" "America/New_York") := by
  have parsed : sampleHost.parse .standard "CRON_TZ=America/New_York @daily" =
      .ok (daily (.zone "America/New_York")) := by
    rfl
  apply (addedAsValidated_iff sampleHost byText ∅ [] _ _ _ rfl (by rfl)).mpr
  refine ⟨by decide +kernel, (zoneFree_iff (by rfl) parsed).mpr fun t => ?_⟩
  exact next_instant_of_location (by decide) t _ _

theorem fiveFields_not_added :
    (sampleSchedule "*/5 * * * *" "America/New_York").validate sampleHost = .ok () ∧
      ((newSchedulerService ∅).addJob sampleHost ⟨0, 1⟩
        (sampleSchedule "*/5 * * * *" "America/New_York")).1 =
        .error (.error (sprintf "add cron func: %w"
          [sprintf "expected exactly %d fields, found %d: %s"
            [.int 6, .int 5, .slice [.str "*/5", .str "*", .str "*", .str "*", .str "*"]]])) ∧
      ¬ AddedAsValidated sampleHost (newSchedulerService ∅) ⟨0, 1⟩
        (sampleSchedule "*/5 * * * *" "America/New_York") := by
  refine ⟨by rfl, by rfl, ?_⟩
  rintro ⟨entryID, answer, -⟩
  cases answer

theorem addJob_error {s : SchedulerService} (failed : (s.addJob host stamp sch).1 = .error fault) :
    (s.addJob host stamp sch).2 = s := by
  rw [addJob.eq_def] at failed ⊢
  cases made : newScheduledJob host stamp sch with
  | error refusal => rfl
  | ok job =>
    simp only [made] at failed ⊢
    cases added : s.cron.addFunc host sch.CronExpression job with
    | error refusal => rfl
    | ok entry =>
      rw [added] at failed
      cases failed

theorem updateJob_keeps_iff (host : Host) (s : SchedulerService) (stamp : Stamp) (sch : Schedule) :
    (∀ err, (s.updateJob host stamp sch).1 = .error (.error err) →
        (s.updateJob host stamp sch).2 = s) ↔
      ((∃ err, (s.updateJob host stamp sch).1 = .error (.error err)) →
        s.activeJobs.lookup sch.ID = none) := by
  unfold updateJob
  constructor
  · rintro keeps ⟨err, failed⟩
    have same : (s.removeJob sch.ID).2 = s := (addJob_error failed).symm.trans (keeps err failed)
    have idle := removeJob_idle s sch.ID
    rw [same] at idle
    exact Finmap.lookup_eq_none.mpr idle
  · intro unscheduled err failed
    rw [addJob_error failed, removeJob, unscheduled ⟨err, failed⟩]

theorem nightly_lost : ∃ s,
    runSchedule (SchedulerService.call sampleHost byText) (newSchedulerService ∅)
      [.add ⟨0, 1⟩ (sampleSchedule "@daily" "UTC")] = some s ∧
      s.activeJobs.lookup "nightly" = some 1 ∧ s.cron.entries.map Cron.Entry.ID = [1] ∧
      (∃ err, (s.updateJob sampleHost ⟨0, 2⟩ (sampleSchedule "*/5 * * * *" "UTC")).1 =
        .error (.error err)) ∧ (s.updateJob sampleHost ⟨0, 2⟩
        (sampleSchedule "*/5 * * * *" "UTC")).2.activeJobs.lookup "nightly" = none ∧
      (s.updateJob sampleHost ⟨0, 2⟩ (sampleSchedule "*/5 * * * *" "UTC")).2.cron.entries.map
        Cron.Entry.ID = [] :=
  ⟨_, rfl, by decide +kernel, by decide +kernel, ⟨_, rfl⟩, by decide +kernel, by decide +kernel⟩

end NexusPipe.Proof.Scheduler
