import NexusPipe.Proof.Scheduler.Cron
import NexusPipe.Scheduler.Job

namespace NexusPipe.Proof.Scheduler
open Library Models NexusPipe.Scheduler

section
variable {host : Host}

theorem isDescriptor_of_splitZone (splits : Cron.splitZone expr = .ok split) :
    Cron.isDescriptor expr = Cron.startsDescriptor split.2 := by
  simp only [Cron.isDescriptor, splits]

theorem parse_of_split (nonempty : expr ≠ "") (splits : Cron.splitZone expr = .ok split)
    (located : host.specLocation split.1 = .ok loc) (p : Cron.Parser) :
    host.parse p expr =
      if Cron.isDescriptor expr then (host.descriptor split.2 loc).mapError .error
      else
        ((p.normalizeFields (Cron.fields split.2)).bind fun fields =>
          host.spec fields loc).mapError .error := by
  rw [isDescriptor_of_splitZone splits]
  simp only [Host.parse, nonempty, if_false, splits, Except.bind, located]

variable {p : Cron.Parser}

theorem split_of_parse (accepted : host.parse p expr = .ok schedule) :
    expr ≠ "" ∧ ∃ split loc, Cron.splitZone expr = .ok split ∧
      host.specLocation split.1 = .ok loc := by
  by_cases nonempty : expr = ""
  · simp [Host.parse, nonempty] at accepted
  · cases splits : Cron.splitZone expr with
    | error fault => simp [Host.parse, nonempty, splits, Except.bind] at accepted
    | ok split =>
      cases located : host.specLocation split.1 with
      | error fault => simp [Host.parse, nonempty, splits, located, Except.bind] at accepted
      | ok loc => exact ⟨nonempty, split, loc, rfl, located⟩

theorem parse_descriptor (descriptor : Cron.isDescriptor expr)
    (accepted : host.parse .standard expr = .ok schedule) :
    host.parse .withSeconds expr = .ok schedule := by
  obtain ⟨nonempty, split, loc, splits, located⟩ := split_of_parse accepted
  rw [parse_of_split nonempty splits located, if_pos descriptor] at accepted ⊢
  exact accepted

theorem length_of_normalizeFields (accepted : p.normalizeFields fields = .ok normal) :
    fields.length = p.places := by
  by_contra other
  simp [Cron.Parser.normalizeFields, other] at accepted

theorem parse_fields (plain : ¬ Cron.isDescriptor expr)
    (accepted : host.parse .standard expr = .ok schedule) :
    ∃ fault, host.parse .withSeconds expr = .error fault := by
  obtain ⟨nonempty, split, loc, splits, located⟩ := split_of_parse accepted
  rw [parse_of_split nonempty splits located, if_neg plain] at accepted ⊢
  cases normal : Cron.Parser.standard.normalizeFields (Cron.fields split.2) with
  | error message => simp [normal, Except.bind, Except.mapError] at accepted
  | ok fields =>
    have five := length_of_normalizeFields normal
    cases six : Cron.Parser.withSeconds.normalizeFields (Cron.fields split.2) with
    | error message => exact ⟨.error message, rfl⟩
    | ok fields' =>
      have count := five.symm.trans (length_of_normalizeFields six)
      cases count

end

theorem next_instant_of_location {schedule : Cron.Schedule} (named : schedule.location ≠ .localZone)
    (t : Int) (loc loc' : Location) :
    (schedule.next ⟨t, loc⟩).instant = (schedule.next ⟨t, loc'⟩).instant := by
  simp only [Cron.Schedule.next, Cron.Schedule.zone, if_neg named]
  cases schedule.after schedule.location t <;> rfl

section
variable {host : Host} {sch : Schedule}

theorem nextRunTime_eq_ok : sch.nextRunTime host now = .ok t ↔
      ∃ loc, host.loadLocation sch.Timezone = .ok loc ∧
        ∃ schedule, host.parse .standard sch.CronExpression = .ok schedule ∧
          schedule.next ⟨now, loc⟩ = t := by
  by_cases nonempty : sch.CronExpression = ""
  · simp [Schedule.nextRunTime, Host.parse, nonempty]
  · simp only [Schedule.nextRunTime, nonempty, if_false, bind_eq_ok, mapError_eq_ok, map_eq_ok]

theorem newScheduledJob_eq_ok (made : newScheduledJob host stamp sch = .ok job) :
    job.ScheduleID = sch.ID ∧ ∃ t, sch.nextRunTime host stamp.now = .ok t := by
  simp only [newScheduledJob, map_eq_ok, mapError_eq_ok] at made
  obtain ⟨t, computed, rfl⟩ := made
  exact ⟨rfl, t, computed⟩

theorem exists_newScheduledJob (located : host.loadLocation sch.Timezone = .ok loc)
    (parsed : host.parse .standard sch.CronExpression = .ok schedule) (stamp : Stamp) :
    ∃ job, newScheduledJob host stamp sch = .ok job := by
  have computed : sch.nextRunTime host stamp.now = .ok (schedule.next ⟨stamp.now, loc⟩) :=
    nextRunTime_eq_ok.mpr ⟨loc, located, schedule, parsed, rfl⟩
  simp only [newScheduledJob, map_eq_ok, mapError_eq_ok]
  exact ⟨_, _, computed, rfl⟩

theorem validate_eq_ok (valid : sch.validate host = .ok ()) :
    (∃ loc, host.loadLocation sch.Timezone = .ok loc) ∧
      ∃ schedule, host.parse .standard sch.CronExpression = .ok schedule := by
  unfold Schedule.validate at valid
  split_ifs at valid
  simp only [bind_eq_ok, mapError_eq_ok, map_eq_ok] at valid
  obtain ⟨loc, located, schedule, parsed, -⟩ := valid
  exact ⟨⟨loc, located⟩, schedule, parsed⟩

end

def textRank (s : String) : Nat := Encodable.encode (s.toList.map Char.toNat)

theorem textRank_injective : Function.Injective textRank := by
  intro s s' same
  have chars := Encodable.encode_injective same
  exact String.toList_injective (List.map_injective_iff.mpr (fun _ _ => Char.toNat_inj.mp) chars)

def sampleSchedule (expr timezone : String) : Schedule where
  ID := "nightly"
  PipelineID := "reports"
  CronExpression := expr
  Timezone := timezone
  Status := .active
  Enabled := true
  Priority := 100
  MaxConcurrentRuns := 1
  NextRunTimeValue := newYear2026
  CreatedAt := newYear2026
  UpdatedAt := newYear2026

end NexusPipe.Proof.Scheduler
