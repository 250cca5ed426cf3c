import NexusPipe.Library.List
import NexusPipe.Proof.Scheduler.Store
import NexusPipe.Scheduler.Poll

namespace NexusPipe.Proof.Scheduler
open Library Models NexusPipe.Scheduler NexusPipe.Queue PublishState List

structure Unstarted (j : PollJob) : Prop where
  phase : j.phase = .starting
  dispatches : j.dispatches = 0
  enabled : j.job.Disabled = false

section
theorem nodup_select (keyed : Keyed rows) : ((rows.select order condition).map (·.ID)).Nodup := by
  have names : ((order rows).entries.map Sigma.snd).map (·.ID) =
      (order rows).entries.map Sigma.fst := by
    rw [map_map]
    refine map_congr_left fun entry member => ?_
    exact keyed entry.1 entry.2 ((order rows).mem_entries.mp member)
  have all : (((order rows).entries.map Sigma.snd).map (·.ID)).Nodup :=
    names ▸ (order rows).nodup_keys
  rw [ScheduleRepository.select]
  refine ((mergeSort_perm _ _).map _).nodup_iff.mpr ?_
  exact all.sublist (filter_sublist.map _)

theorem dueJobs_sublist (env : PollEnv) (process : Nat) (stamps : Nat → Stamp)
    (due : List (Schedule × Nat)) : ((dueJobs env process stamps due).map (·.occurrence)).Sublist
      (due.map fun item => .ofRow item.1) := by
  induction due with
  | nil => exact .slnil
  | cons item rest ih =>
    rw [dueJobs, map_cons]
    split_ifs
    · exact ih.cons _
    · split
      · exact nil_sublist _
      · exact ih.cons _
      · exact ih.cons_cons _

theorem unstarted_dueJobs (enabled : ∀ item ∈ due, item.1.Enabled = true)
    (member : new ∈ dueJobs env process stamps due) : Unstarted new := by
  induction due with
  | nil => cases member
  | cons item rest ih =>
    have later := ih fun item' found => enabled item' (mem_cons_of_mem item found)
    rw [dueJobs] at member
    split_ifs at member
    · exact later member
    · split at member
      · cases member
      · exact later member
      · rename_i job made
        rcases mem_cons.mp member with rfl | further
        · simp only [newScheduledJob, map_eq_ok, mapError_eq_ok] at made
          obtain ⟨t, -, rfl⟩ := made
          exact ⟨rfl, rfl, by simp [enabled item mem_cons_self]⟩
        · exact later further

theorem polled_cases (env : PollEnv) (s : PollSystem) (process : Nat)
    (order : GoMap.RangeOrder String Schedule)
    (failure : Option ScheduleRepository.QueryFault) (locked : String → Bool) (now : Int)
    (stamps : Nat → Stamp) : ∃ due : List Schedule,
      s.polled env process order failure locked now stamps = dueJobs env process stamps due.zipIdx ∧
      (∀ row ∈ due, row.Enabled = true) ∧ (Keyed s.repo → (due.map (·.ID)).Nodup) := by
  rw [PollSystem.polled]
  split
  · exact ⟨[], rfl, by simp, fun _ => nodup_nil⟩
  · rename_i due read
    refine ⟨due, rfl, ?_⟩
    simp only [PostgresScheduleStore.getDueSchedules, newPostgresScheduleStore, mapError_eq_ok,
      ScheduleRepository.getDueSchedules] at read
    split at read
    · cases read
    · cases read
    · cases read
    · cases read
      constructor
      · intro row member
        have selected := mem_of_mem_take member
        rw [ScheduleRepository.select, mem_mergeSort, mem_filter] at selected
        simp only [Bool.and_eq_true] at selected
        exact selected.2.1.1.1
      · intro keyed
        exact (nodup_select keyed).sublist ((take_sublist _ _).map _)

variable {s : PollSystem} {failure : Option ScheduleRepository.QueryFault}

theorem unstarted_of_mem_polled
    (member : new ∈ s.polled env process order failure locked now stamps) : Unstarted new := by
  obtain ⟨due, polled, enabled, -⟩ := polled_cases env s process order failure locked now stamps
  rw [polled] at member
  exact unstarted_dueJobs (fun item found => enabled item.1 (fst_mem_of_mem_zipIdx found)) member

theorem nodup_polled (keyed : Keyed s.repo) :
    ((s.polled env process order failure locked now stamps).map (·.occurrence)).Nodup := by
  obtain ⟨due, polled, -, nodup⟩ := polled_cases env s process order failure locked now stamps
  rw [polled]
  refine List.Nodup.sublist (dueJobs_sublist env process stamps due.zipIdx) ?_
  have occurrences : due.zipIdx.map (fun item => Occurrence.ofRow item.1) =
      due.map Occurrence.ofRow := by
    nth_rewrite 2 [← zipIdx_map_fst 0 due]
    rw [map_map]
    rfl
  rw [occurrences]
  exact List.Nodup.of_map Occurrence.scheduleID (by rw [map_map]; exact nodup keyed)

end

def mayDispatch (j : PollJob) : Bool :=
  match j.phase with
  | .starting | .publishing _ => true
  | .updating | .ended => false

def retriesLeft (j : PollJob) : Bool :=
  match j.phase with
  | .publishing (.attempting attempt) => attempt < 2
  | _ => false

def commitment (j : PollJob) : Nat := j.dispatches + (mayDispatch j).toNat

def tally (weight : PollJob → Nat) (o : Occurrence) (jobs : List PollJob) : Nat :=
  (jobs.map fun j => if j.occurrence = o then weight j else 0).sum

def committed (s : PollSystem) (o : Occurrence) : Nat := tally commitment o s.jobs

/-- The condition under which a step lets no occurrence be dispatched twice: a poll starts no
goroutine for an occurrence that an earlier one has dispatched or may still dispatch, and no
attempt reaches the queue and fails with retries left. -/
def Careful (env : PollEnv) (s : PollSystem) : PollAction → Prop
  | .poll process order failure locked now stamps =>
    ∀ new ∈ s.polled env process order failure locked now stamps, ∀ j ∈ s.jobs,
      j.occurrence = new.occurrence → j.dispatches = 0 ∧ mayDispatch j = false
  | .publish job delivered err =>
    delivered = true → err.isSome = true → ∀ j ∈ s.jobs[job]?, retriesLeft j = false
  | .start .. | .wait .. | .update .. => True

section
variable {j' : PollJob}

theorem le_tally (weight : PollJob → Nat) (member : j ∈ jobs) :
    weight j ≤ tally weight j.occurrence jobs :=
  le_sum_of_mem (mem_map.mpr ⟨j, member, if_pos rfl⟩)

theorem tally_eq_zero (idle : ∀ j ∈ jobs, j.occurrence = o → weight j = 0) :
    tally weight o jobs = 0 := by
  refine sum_eq_zero fun n found => ?_
  obtain ⟨j, member, rfl⟩ := mem_map.mp found
  split_ifs with same
  · exact idle j member same
  · rfl

theorem tally_append (jobs new : List PollJob) :
    tally weight o (jobs ++ new) = tally weight o jobs + tally weight o new := by
  simp only [tally, map_append, sum_append]

theorem tally_set (weight : PollJob → Nat) (o : Occurrence) (found : jobs[i]? = some j)
    (same : j'.occurrence = j.occurrence) :
    tally weight o (jobs.set i j') + (if j.occurrence = o then weight j else 0) =
      tally weight o jobs + if j.occurrence = o then weight j' else 0 := by
  have sums := sum_map_set (fun j => if j.occurrence = o then weight j else 0) found j'
  rwa [same] at sums

end

theorem dispatched_eq_sum (s : PollSystem) (o : Occurrence) :
    s.dispatched o = tally (·.dispatches) o s.jobs := by
  rw [PollSystem.dispatched, sum_map_filter]
  simp only [decide_eq_true_eq, tally]

theorem dispatched_le_committed (s : PollSystem) (o : Occurrence) :
    s.dispatched o ≤ committed s o := by
  rw [dispatched_eq_sum]
  refine sum_le_sum fun j _ => ?_
  split_ifs
  · exact Nat.le_add_right _ _
  · exact le_rfl

variable {j : PollJob}

structure Live (j : PollJob) : Prop where
  enabled : j.job.Disabled = false
  unreturned : ∀ err, j.phase ≠ .publishing (.returned err)

theorem Unstarted.live (unstarted : Unstarted j) : Live j :=
  ⟨unstarted.enabled, fun err same => by simp [unstarted.phase] at same⟩

theorem Unstarted.commitment (unstarted : Unstarted j) : commitment j = 1 := by
  simp [Scheduler.commitment, mayDispatch, unstarted.phase, unstarted.dispatches]

structure Continues (j j' : PollJob) : Prop where
  occurrence : j'.occurrence = j.occurrence
  live : Live j → Live j'

theorem continues_phase (j : PollJob) (unreturned : ∀ err, phase ≠ .publishing (.returned err)) :
    Continues j { j with phase } :=
  ⟨rfl, fun live => ⟨live.enabled, unreturned⟩⟩

theorem commitment_phase_le (j : PollJob) (phase : JobPhase) :
    commitment { j with phase } ≤ j.dispatches + 1 :=
  Nat.add_le_add_left (Bool.toNat_le _) _

theorem commitment_of_mayDispatch (may : mayDispatch j = true) :
    commitment j = j.dispatches + 1 := by
  rw [commitment, may]
  rfl

theorem afterPublish_cases (j : PollJob) (state : PublishState) :
    ∃ phase, PollSystem.afterPublish j state = { j with phase } ∧
      ∀ err, phase ≠ .publishing (.returned err) := by
  rcases state with attempt | attempt | _ | _
  · exact ⟨.publishing (.attempting attempt), rfl, by simp⟩
  · exact ⟨.publishing (.waiting attempt), rfl, by simp⟩
  · exact ⟨.updating, rfl, by simp⟩
  · exact ⟨.ended, rfl, by simp⟩

variable {j' : PollJob}

theorem startJob_continues (next : PollSystem.startJob j marshalErr = some j') :
    Continues j j' ∧ commitment j' ≤ commitment j := by
  unfold PollSystem.startJob at next
  split at next
  · rename_i starting
    have may : mayDispatch j = true := by simp [mayDispatch, starting]
    rw [commitment_of_mayDispatch may]
    split_ifs at next
    · cases next
      exact ⟨continues_phase j (by simp), commitment_phase_le j _⟩
    · split at next
      · cases next
        exact ⟨continues_phase j (by simp), commitment_phase_le j _⟩
      · cases next
        exact ⟨continues_phase j (by simp [start]), commitment_phase_le j _⟩
  · cases next

theorem waitJob_continues (next : PollSystem.waitJob j done = some j') :
    Continues j j' ∧ commitment j' ≤ commitment j := by
  unfold PollSystem.waitJob at next
  split at next
  · rename_i attempt waiting
    obtain ⟨phase, same, unreturned⟩ := afterPublish_cases j (.waited attempt done)
    rw [same, Option.some.injEq] at next
    have may : mayDispatch j = true := by simp [mayDispatch, waiting]
    rw [← next, commitment_of_mayDispatch may]
    exact ⟨continues_phase j unreturned, commitment_phase_le j phase⟩
  · cases next

theorem published_failed (attempt : Nat) (err : Text) :
    attempt < 2 ∧ published 2 attempt (some err) = .waiting (attempt + 1) ∨
      ¬ attempt < 2 ∧ ∃ err', published 2 attempt (some err) = .returned (some err') := by
  simp only [published]
  split_ifs with more
  · exact .inl ⟨by omega, rfl⟩
  · exact .inr ⟨by omega, _, rfl⟩

variable {err : Option Text}

theorem publishJob_continues (next : PollSystem.publishJob j delivered err = some j') :
    Continues j j' ∧ ((delivered = true → err.isSome = true → retriesLeft j = false) →
        commitment j' ≤ commitment j) := by
  unfold PollSystem.publishJob at next
  split at next
  · rename_i attempt attempting
    have may : mayDispatch j = true := by simp [mayDispatch, attempting]
    rw [commitment_of_mayDispatch may]
    cases delivered with
    | false =>
      obtain ⟨phase, same, unreturned⟩ := afterPublish_cases j (.published 2 attempt err)
      obtain rfl : { j with phase } = j' := same ▸ Option.some.inj next
      exact ⟨continues_phase j unreturned, fun _ => commitment_phase_le j phase⟩
    | true =>
      obtain rfl := Option.some.inj next
      obtain ⟨phase, same, unreturned⟩ := afterPublish_cases
        { j with dispatches := j.dispatches + 1 } (.published 2 attempt err)
      refine ⟨?_, fun last => ?_⟩
      · rw [if_pos rfl, same]
        exact ⟨rfl, fun live => ⟨live.enabled, unreturned⟩⟩
      · cases err with
        | none => exact le_rfl
        | some err =>
          rcases published_failed attempt err with ⟨early, -⟩ | ⟨-, err', exhausted⟩
          · -- a redelivery needs an attempt that reached the queue, failed, and was not the last
            have := last rfl rfl
            simp [retriesLeft, attempting, early] at this
          · rw [exhausted]
            exact le_rfl
  · cases next

variable {i : Nat}

theorem onJob_eq_some {s : PollSystem} {next : PollJob → Option PollJob} :
    s.onJob i next = some s' ↔
      ∃ j j', s.jobs[i]? = some j ∧ next j = some j' ∧ s' = { s with jobs := s.jobs.set i j' } := by
  simp only [PollSystem.onJob, Option.map_eq_some_iff, Option.bind_eq_some_iff]
  constructor
  · rintro ⟨j', ⟨j, found, stepped⟩, rfl⟩
    exact ⟨j, j', found, stepped, rfl⟩
  · rintro ⟨j, j', found, stepped, rfl⟩
    exact ⟨j', ⟨j, found, stepped⟩, rfl⟩

theorem updateTable_keyed {s : PollSystem} (keyed : Keyed s.repo) (j : PollJob) (now : Int)
    (failure : Option Text) : Keyed (s.updateTable env j now failure) := by
  unfold PollSystem.updateTable
  split
  · exact keyed
  · split
    · exact keyed
    · rename_i repo updated
      unfold ScheduleRepository.updateNextRunTime at updated
      split at updated
      · cases updated
      · split at updated
        · cases updated
        · rename_i row stored
          cases updated
          exact keyed.insert stored rfl

variable {a : PollAction}

section
variable {env : PollEnv} {s : PollSystem}

def Apart (s : PollSystem) (new : List PollJob) : Prop :=
  ∀ n ∈ new, ∀ j ∈ s.jobs, j.occurrence = n.occurrence → j.dispatches = 0 ∧ mayDispatch j = false

inductive Moves (env : PollEnv) (s : PollSystem) (a : PollAction) : PollSystem → Prop
  | polled {new : List PollJob} (unstarted : ∀ j ∈ new, Unstarted j)
      (nodup : Keyed s.repo → (new.map (·.occurrence)).Nodup) (apart : Careful env s a → Apart s new) :
      Moves env s a { s with jobs := s.jobs ++ new }
  | job {i : Nat} {j j' : PollJob} {repo : ScheduleRepository} (found : s.jobs[i]? = some j)
      (continues : Continues j j') (less : Careful env s a → commitment j' ≤ commitment j)
      (keyed : Keyed s.repo → Keyed repo) : Moves env s a ⟨repo, s.jobs.set i j'⟩

theorem step_moves (stepped : s.step env a = some s') : Moves env s a s' := by
  cases a with
  | poll process order failure locked now stamps =>
    cases stepped
    exact .polled (fun _ => unstarted_of_mem_polled) nodup_polled id
  | start i marshalErr =>
    obtain ⟨j, j', found, next, rfl⟩ := onJob_eq_some.mp stepped
    obtain ⟨continues, less⟩ := startJob_continues next
    exact .job found continues (fun _ => less) id
  | publish i delivered err =>
    obtain ⟨j, j', found, next, rfl⟩ := onJob_eq_some.mp stepped
    obtain ⟨continues, less⟩ := publishJob_continues next
    exact .job found continues
      (fun careful => less fun reached failed => careful reached failed j found) id
  | wait i done =>
    obtain ⟨j, j', found, next, rfl⟩ := onJob_eq_some.mp stepped
    obtain ⟨continues, less⟩ := waitJob_continues next
    exact .job found continues (fun _ => less) id
  | update i now failure =>
    simp only [PollSystem.step] at stepped
    split at stepped
    · rename_i j found
      split_ifs at stepped with updating
      cases stepped
      exact .job found (continues_phase j (by simp)) (fun _ => Nat.le_add_right _ _)
        fun keyed => updateTable_keyed keyed j now failure
    · cases stepped

structure Unshared (s : PollSystem) : Prop where
  keyed : Keyed s.repo
  live : ∀ j ∈ s.jobs, Live j
  single : ∀ o, committed s o ≤ 1

theorem committed_append_le (unshared : Unshared s) (unstarted : ∀ j ∈ new, Unstarted j)
    (nodup : (new.map (·.occurrence)).Nodup) (apart : Apart s new) (o : Occurrence) :
    tally commitment o (s.jobs ++ new) ≤ 1 := by
  rw [tally_append]
  by_cases started : ∃ n ∈ new, n.occurrence = o
  · -- the earlier goroutines of this occurrence are over and have dispatched nothing
    obtain ⟨n, member, rfl⟩ := started
    have before : tally commitment n.occurrence s.jobs = 0 := by
      refine tally_eq_zero fun j old same => ?_
      obtain ⟨undispatched, idle⟩ := apart n member j old same
      simp [commitment, undispatched, idle]
    have ones : tally commitment n.occurrence new = tally (fun _ => 1) n.occurrence new := by
      refine congrArg sum (map_congr_left fun j member => ?_)
      rw [(unstarted j member).commitment]
    rw [before, Nat.zero_add, ones]
    exact sum_map_single_le nodup n.occurrence
  · rw [tally_eq_zero fun j member same => absurd ⟨j, member, same⟩ started]
    exact unshared.single o

theorem live_step (live : ∀ j ∈ s.jobs, Live j) (stepped : s.step env a = some s') :
    ∀ j ∈ s'.jobs, Live j := by
  intro j member
  cases step_moves stepped with
  | polled unstarted =>
    rcases mem_append.mp member with old | new
    · exact live j old
    · exact (unstarted j new).live
  | job found continues =>
    rcases mem_or_eq_of_mem_set member with old | rfl
    · exact live j old
    · exact continues.live (live _ (mem_of_getElem? found))

theorem unshared_step (unshared : Unshared s) (careful : Careful env s a)
    (stepped : s.step env a = some s') : Unshared s' := by
  have live := live_step unshared.live stepped
  cases step_moves stepped with
  | polled unstarted nodup apart =>
    exact ⟨unshared.keyed, live,
      committed_append_le unshared unstarted (nodup unshared.keyed) (apart careful)⟩
  | job found continues less keyed =>
    refine ⟨keyed unshared.keyed, live, fun o => ?_⟩
    have sums := tally_set commitment o found continues.occurrence
    have single : tally commitment o s.jobs ≤ 1 := unshared.single o
    have := less careful
    dsimp only [committed]
    split_ifs at sums
    · omega
    · omega

end

def todo (j : PollJob) : Nat :=
  match j.phase with
  | .starting | .publishing (.waiting _) => 2
  | .publishing (.attempting _) => 1
  | .publishing (.returned _) | .updating | .ended => 0

theorem exists_next (env : PollEnv) {s : PollSystem} (found : s.jobs[i]? = some j) (live : Live j)
    (may : mayDispatch j = true) :
    ∃ a j', s.step env a = some { s with jobs := s.jobs.set i j' } ∧ Continues j j' ∧
      commitment j' = commitment j ∧ todo j' < todo j := by
  rw [commitment_of_mayDispatch may]
  cases phase : j.phase with
  | starting =>
    refine ⟨.start i none, { j with phase := .publishing (.attempting 0) }, ?_,
      continues_phase j (by simp), rfl, by simp [todo, phase]⟩
    refine onJob_eq_some.mpr ⟨j, _, found, ?_, rfl⟩
    simp [PollSystem.startJob, phase, live.enabled, start]
  | publishing state =>
    cases state with
    | attempting attempt =>
      refine ⟨.publish i true none,
        { j with dispatches := j.dispatches + 1, phase := .updating }, ?_,
        ⟨rfl, fun live => ⟨live.enabled, by simp⟩⟩, rfl, by simp [todo, phase]⟩
      refine onJob_eq_some.mpr ⟨j, _, found, ?_, rfl⟩
      simp [PollSystem.publishJob, phase, published, PollSystem.afterPublish]
    | waiting attempt =>
      refine ⟨.wait i none, { j with phase := .publishing (.attempting attempt) }, ?_,
        continues_phase j (by simp), rfl, by simp [todo, phase]⟩
      refine onJob_eq_some.mpr ⟨j, _, found, ?_, rfl⟩
      simp [PollSystem.waitJob, phase, waited, PollSystem.afterPublish]
    | returned err => exact absurd phase (live.unreturned err)
  | updating | ended => simp [mayDispatch, phase] at may

theorem dispatched_eq_committed {s : PollSystem}
    (idle : ∀ j ∈ s.jobs, j.occurrence = o → mayDispatch j = false) :
    s.dispatched o = committed s o := by
  rw [dispatched_eq_sum, committed]
  refine congrArg sum (map_congr_left fun j member => ?_)
  split_ifs with same
  · simp [commitment, idle j member same]
  · rfl

theorem exists_run_dispatching (env : PollEnv) {s : PollSystem} (live : ∀ j ∈ s.jobs, Live j)
    (o : Occurrence) : ∃ more s', runSchedule (PollSystem.step env) s more = some s' ∧
      committed s o ≤ s'.dispatched o := by
  -- no poll is needed: each goroutine of the occurrence is led to its publish, by `todo`
  suffices progress : ∀ s', ((∀ j ∈ s'.jobs, Live j) ∧ committed s' o = committed s o) →
      ¬ committed s o ≤ s'.dispatched o → ∃ a next, True ∧ s'.step env a = some next ∧
        ((∀ j ∈ next.jobs, Live j) ∧ committed next o = committed s o) ∧
        tally todo o next.jobs < tally todo o s'.jobs by
    obtain ⟨more, s', -, run, reached⟩ := exists_run_to_goal _ _ _ _ progress ⟨live, rfl⟩
    exact ⟨more, s', run, reached⟩
  rintro s' ⟨live', same⟩ short
  have pending : ∃ j ∈ s'.jobs, j.occurrence = o ∧ mayDispatch j = true := by
    by_contra none
    simp only [not_exists, not_and, Bool.not_eq_true] at none
    exact short ((dispatched_eq_committed none).trans same).ge
  obtain ⟨j, member, rfl, may⟩ := pending
  obtain ⟨i, found⟩ := mem_iff_getElem?.mp member
  obtain ⟨a, j', stepped, continues, kept, less⟩ := exists_next env found (live' j member) may
  refine ⟨a, _, trivial, stepped, ⟨live_step live' stepped, ?_⟩, ?_⟩
  · have sums := tally_set commitment j.occurrence found continues.occurrence
    rw [kept] at sums
    exact (Nat.add_right_cancel sums).trans same
  · have sums := tally_set todo j.occurrence found continues.occurrence
    rw [if_pos rfl, if_pos rfl] at sums
    dsimp only
    omega

theorem commitment_pos (active : ¬ (j.dispatches = 0 ∧ mayDispatch j = false)) :
    1 ≤ commitment j := by
  by_cases may : mayDispatch j = true
  · rw [commitment_of_mayDispatch may]
    exact Nat.le_add_left 1 _
  · have dispatched : j.dispatches ≠ 0 := fun zero => active ⟨zero, by simpa using may⟩
    exact (Nat.one_le_iff_ne_zero.mpr dispatched).trans (Nat.le_add_right _ _)

theorem publishJob_careless (reached : delivered = true) (failed : err.isSome = true)
    (again : retriesLeft j = true) :
    ∃ j', PollSystem.publishJob j delivered err = some j' ∧ 2 ≤ commitment j' := by
  obtain ⟨err, rfl⟩ := Option.isSome_iff_exists.mp failed
  subst reached
  unfold retriesLeft at again
  split at again
  · rename_i attempt attempting
    simp only [PollSystem.publishJob, attempting, if_true]
    rcases published_failed attempt err with ⟨-, waiting⟩ | ⟨late, -⟩
    · refine ⟨_, rfl, ?_⟩
      rw [waiting]
      exact Nat.le_add_left 2 j.dispatches
    · exact absurd (of_decide_eq_true again) late
  · cases again

theorem committed_of_careless {s : PollSystem} (stepped : s.step env a = some s')
    (careless : ¬ Careful env s a) : ∃ o, 2 ≤ committed s' o := by
  cases a with
  | poll process order failure locked now stamps =>
    simp only [Careful, not_forall] at careless
    obtain ⟨new, started, j, member, same, active⟩ := careless
    cases stepped
    refine ⟨new.occurrence, ?_⟩
    have earlier : 1 ≤ committed s new.occurrence :=
      same ▸ (commitment_pos active).trans (le_tally commitment member)
    have added := le_tally commitment started
    rw [(unstarted_of_mem_polled started).commitment] at added
    rw [committed, tally_append]
    exact Nat.add_le_add earlier added
  | publish i delivered err =>
    simp only [Careful, not_forall, Bool.not_eq_false] at careless
    obtain ⟨reached, failed, j, found, again⟩ := careless
    obtain ⟨j', published, twice⟩ := publishJob_careless reached failed again
    obtain ⟨j₁, j₂, found₁, published₁, rfl⟩ := onJob_eq_some.mp stepped
    obtain rfl : j = j₁ := Option.mem_unique found found₁
    obtain rfl : j' = j₂ := Option.mem_unique published published₁
    have bound : i < s.jobs.length := (List.getElem?_eq_some_iff.mp found).1
    exact ⟨j'.occurrence, twice.trans (le_tally commitment (mem_set bound j'))⟩
  | start | wait | update => exact absurd trivial careless

theorem dispatched_at_most_once (env : PollEnv) {rows : ScheduleRepository} (keyed : Keyed rows)
    {actions : List PollAction} {s : PollSystem}
    (run : runSchedule (PollSystem.step env) { repo := rows } actions = some s)
    (careful : Along (PollSystem.step env) (Careful env) { repo := rows } actions) :
    (∀ o, s.dispatched o ≤ 1) ∧
      ∀ a s', s.step env a = some s' → ¬ Careful env s a →
        ∃ o more s'', runSchedule (PollSystem.step env) s' more = some s'' ∧ 2 ≤ s''.dispatched o := by
  have initial : Unshared { repo := rows } := ⟨keyed, by simp, fun _ => Nat.zero_le 1⟩
  have unshared : Unshared s := runSchedule_invariant_along (Careful env) Unshared
    (fun _ _ _ => unshared_step) run careful initial
  constructor
  · exact fun o => (dispatched_le_committed s o).trans (unshared.single o)
  · intro a s' stepped careless
    obtain ⟨o, twice⟩ := committed_of_careless stepped careless
    obtain ⟨more, s'', further, reached⟩ :=
      exists_run_dispatching env (live_step unshared.live stepped) o
    exact ⟨o, more, s'', further, twice.trans reached⟩

def dueRow : Schedule := sampleSchedule "*/5 * * * *" "UTC"

def dueTable : ScheduleRepository := (∅ : ScheduleRepository).insert dueRow.ID dueRow

def pollingOnly : PollEnv where
  host := sampleHost
  hasJob _ _ := false

def pollAt (process : Nat) (now : Int) : PollAction :=
  .poll process (GoMap.ascending textRank textRank_injective) none (fun _ => false) now
    fun _ => ⟨0, 0⟩

instance (env : PollEnv) (s : PollSystem) (a : PollAction) : Decidable (Careful env s a) := by
  cases a <;> unfold Careful <;> infer_instance

theorem dispatched_at_most_once_retried :
    ∃ s, runSchedule (PollSystem.step pollingOnly) { repo := dueTable }
        [pollAt 0 newYear2026.instant, .start 0 none, .publish 0 false (some (.str "closed")),
          .wait 0 none, .publish 0 true none, .update 0 (newYear2026.add second).instant none,
          pollAt 1 (newYear2026.add (15 * second)).instant] = some s ∧
      s.jobs.length = 1 ∧ s.dispatched (.ofRow dueRow) = 1 ∧ ∀ o, s.dispatched o ≤ 1 := by
  refine exists_reached (fun s => s.jobs.length = 1 ∧ s.dispatched (.ofRow dueRow) = 1)
    (by decide +kernel) fun s run counts => ?_
  have careful := dispatched_at_most_once pollingOnly (keyed_single dueRow) run (by decide +kernel)
  exact ⟨counts.1, counts.2, careful.1⟩

theorem occurrence_dispatched_twice :
    (runSchedule (PollSystem.step pollingOnly) { repo := dueTable }
      [pollAt 0 newYear2026.instant, pollAt 0 (newYear2026.add (15 * second)).instant,
        .start 0 none, .start 1 none, .publish 0 true none, .publish 1 true none]).map
      (·.dispatched (.ofRow dueRow)) = some 2 := by
  decide +kernel

/-- UTC and `loc` give the same next activation: the expression names its own time zone, or `loc` is
UTC, or the two happen to agree. -/
def AgreesWithUTC (schedule : Cron.Schedule) (loc : Location) (now : Int) : Prop :=
  schedule.location ≠ .localZone ∨ loc = .utc ∨
    (schedule.next ⟨now, .utc⟩).instant = (schedule.next ⟨now, loc⟩).instant

theorem agreesWithUTC_iff : AgreesWithUTC schedule loc now ↔
      (schedule.next ⟨now, .utc⟩).instant = (schedule.next ⟨now, loc⟩).instant := by
  constructor
  · rintro (named | rfl | agree)
    · exact next_instant_of_location named now .utc loc
    · rfl
    · exact agree
  · exact fun agree => .inr (.inr agree)

theorem parseCronExpression_of_parse {host : Host}
    (parsed : host.parse .standard expr = .ok schedule) :
    parseCronExpression host expr = .ok schedule := by
  have nonempty := (split_of_parse parsed).1
  rw [parseCronExpression, if_neg nonempty, parsed]
  rfl

theorem stored_next_run_iff (env : PollEnv) (s s' : PollSystem) (job : Nat) (j : PollJob)
    (stamp : Stamp) (sch row : Schedule) (now : Int) (loc : Location) (schedule : Cron.Schedule)
    (running : s.jobs[job]? = some j) (made : newScheduledJob env.host stamp sch = .ok j.job)
    (located : env.host.loadLocation sch.Timezone = .ok loc)
    (parsed : env.host.parse .standard sch.CronExpression = .ok schedule)
    (stored : s.repo.lookup sch.ID = some row)
    (updated : s.step env (.update job now none) = some s') :
    ∃ row' own, s'.repo.lookup sch.ID = some row' ∧ sch.nextRunTime env.host now = .ok own ∧
      row'.NextRunTimeValue = schedule.next ⟨now, .utc⟩ ∧
      (row'.NextRunTimeValue.instant = own.instant ↔ AgreesWithUTC schedule loc now) := by
  have own : sch.nextRunTime env.host now = .ok (schedule.next ⟨now, loc⟩) :=
    nextRunTime_eq_ok.mpr ⟨loc, located, schedule, parsed, rfl⟩
  obtain ⟨identified, expr⟩ : j.job.ScheduleID = sch.ID ∧
      j.job.CronExpression = sch.CronExpression := by
    simp only [newScheduledJob, map_eq_ok] at made
    obtain ⟨nextRun, -, made⟩ := made
    rw [← made]
    exact ⟨rfl, rfl⟩
  simp only [PollSystem.step, running] at updated
  split_ifs at updated
  cases updated
  refine ⟨ScheduleRepository.advance row (schedule.next ⟨now, .utc⟩) now, _, ?_, own, rfl,
    agreesWithUTC_iff.symm⟩
  have next : nextRunTime env.host sch.CronExpression none now =
      .ok (schedule.next ⟨now, .utc⟩) := by
    rw [nextRunTime, parseCronExpression_of_parse parsed]
    rfl
  have written : s.repo.updateNextRunTime none sch.ID (schedule.next ⟨now, .utc⟩) now =
      .ok (s.repo.insert sch.ID
        (ScheduleRepository.advance row (schedule.next ⟨now, .utc⟩) now)) := by
    simp only [ScheduleRepository.updateNextRunTime, stored]
  simp only [PollSystem.updateTable, expr, next, identified, written]
  exact Finmap.lookup_insert _

def dispatchAndUpdate (row : Schedule) : Option PollSystem :=
  runSchedule (PollSystem.step pollingOnly)
    { repo := (∅ : ScheduleRepository).insert row.ID row }
    [pollAt 0 newYear2026.instant, .start 0 none, .publish 0 true none,
      .update 0 (newYear2026.add second).instant none]

theorem newYork_stored_in_UTC :
    (dispatchAndUpdate (sampleSchedule "@daily" "America/New_York")).map (fun s =>
        (s.repo.lookup "nightly").map fun row => row.NextRunTimeValue.instant) =
      some (some (newYear2026.add (1440 * minute)).instant) ∧
    ((sampleSchedule "@daily" "America/New_York").nextRunTime sampleHost
        (newYear2026.add second).instant).map (fun own => own.instant) =
      .ok (newYear2026.add (300 * minute)).instant := by
  refine ⟨by decide +kernel, by rfl⟩

theorem dueRow_stored_in_own_zone : ∃ (s s' : PollSystem) (row' : Schedule) (own : Time),
    s.step pollingOnly (.update 0 (newYear2026.add second).instant none) = some s' ∧
      s'.repo.lookup dueRow.ID = some row' ∧
      dueRow.nextRunTime sampleHost (newYear2026.add second).instant = .ok own ∧
      row'.NextRunTimeValue.instant = own.instant := by
  obtain ⟨s, -, table, job, steps⟩ : ∃ s, runSchedule (PollSystem.step pollingOnly)
      { repo := dueTable } [pollAt 0 newYear2026.instant, .start 0 none, .publish 0 true none] =
        some s ∧ s.repo = dueTable ∧
      (s.jobs[0]?).map (·.job) = (newScheduledJob sampleHost ⟨0, 0⟩ dueRow).toOption ∧
      (s.step pollingOnly (.update 0 (newYear2026.add second).instant none)).isSome :=
    exists_reached _ (by decide +kernel) fun _ _ seen => seen
  obtain ⟨s', updated⟩ := Option.isSome_iff_exists.mp steps
  obtain ⟨made, creates⟩ : ∃ made, newScheduledJob sampleHost ⟨0, 0⟩ dueRow = .ok made := ⟨_, rfl⟩
  rw [creates] at job
  obtain ⟨j, running, rfl⟩ := Option.map_eq_some_iff.mp job
  obtain ⟨row', own, stored, computed, -, same⟩ := stored_next_run_iff pollingOnly s s' 0 j ⟨0, 0⟩
    dueRow dueRow (newYear2026.add second).instant .utc (everyFiveMinutes .localZone) running creates
    rfl (by rfl) (by rw [table]; exact Finmap.lookup_insert _) updated
  exact ⟨s, s', row', own, updated, stored, computed, same.mpr (.inr (.inl rfl))⟩

end NexusPipe.Proof.Scheduler
