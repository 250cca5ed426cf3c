import NexusPipe.Proof.Scheduler.Store

namespace NexusPipe.Proof.Scheduler
open Library Models NexusPipe.Scheduler PostgresScheduleStore List

def shown (s : PostgresScheduleStore) (failure : Option Text) (id : String) (now : Int) :
    Except Text (Option Schedule) :=
  (s.getSchedule failure id now).1.map fun pointer =>
    (s.getSchedule failure id now).2.objects[pointer]?

variable {s s' : PostgresScheduleStore} {id : String} {now : Int}

structure Marked (s : PostgresScheduleStore) (id : String) : Prop where
  kept : WellKept s
  stored : ∃ row, s.repo.lookup id = some row ∧ Failed row
  cached : ∀ cached, s.cache.lookup id = some cached →
    ∃ sch, s.objects[cached.schedule]? = some sch ∧ Failed sch

theorem Marked.caches (marked : Marked s id) (caches : Caches s s') : Marked s' id := by
  refine ⟨marked.kept.caches caches, caches.frame.1 ▸ marked.stored, fun cached entry => ?_⟩
  cases caches with
  | @insert id' row stored now =>
    rw [GoMap.lookup_insert_eq] at entry
    split_ifs at entry with same
    · subst same
      cases entry
      obtain ⟨row', stored', failed⟩ := marked.stored
      cases stored.symm.trans stored'
      exact ⟨row, by simp, failed⟩
    · obtain ⟨sch, allocated, failed⟩ := marked.cached cached entry
      have bound := (List.getElem?_eq_some_iff.mp allocated).1
      exact ⟨sch, by rwa [getElem?_append_left bound], failed⟩
  | erase id' =>
    simp only [invalidateCache, GoMap.lookup_erase_eq] at entry
    split_ifs at entry
    exact marked.cached cached entry
  | clear => cases entry

theorem Marked.run {calls : List StoreCall} (marked : Marked s id)
    (reading : ∀ call ∈ calls, reads call = true) : Marked (calls.foldl apply s) id := by
  induction calls generalizing s with
  | nil => exact marked
  | cons call calls ih =>
    have path := caches_apply marked.kept (reading call mem_cons_self)
    refine ih (preserved_of_caches (fun _ _ => Marked.caches) marked path) ?_
    intro call' member
    exact reading call' (mem_cons_of_mem call member)

variable {failure : Option Text}

theorem Marked.shown (marked : Marked s id) (returned : shown s failure id now = .ok sch) :
    ∃ sch', sch = some sch' ∧ Failed sch' := by
  unfold Scheduler.shown at returned
  rcases getSchedule_cases s failure id now with
    ⟨cached, entry, result⟩ | ⟨row, stored, result⟩ | ⟨err, result⟩ <;> rw [result] at returned <;>
    cases returned
  · exact marked.cached cached entry
  · obtain ⟨row', stored', failed⟩ := marked.stored
    cases stored.symm.trans stored'
    exact ⟨row, by simp, failed⟩

def ReportsFailed (s : PostgresScheduleStore) (id : String) : Prop :=
  ∀ calls : List StoreCall, (∀ call ∈ calls, reads call = true) → ∀ failure now sch,
    shown (calls.foldl PostgresScheduleStore.apply s) failure id now = .ok sch →
      ∃ sch', sch = some sch' ∧ Failed sch'

def ReadsAlike (s s' : PostgresScheduleStore) (id : String) : Prop :=
  s'.repo.lookup id = s.repo.lookup id ∧
    ∀ calls : List StoreCall, (∀ call ∈ calls, reads call = true) → ∀ failure now,
      shown (calls.foldl PostgresScheduleStore.apply s') failure id now =
        shown (calls.foldl PostgresScheduleStore.apply s) failure id now

@[mk_iff]
structure Marks (s : PostgresScheduleStore) (getFailure toggleFailure : Option Text) (id : String)
    (now : Int) : Prop where
  succeeded : (s.markScheduleFailed getFailure toggleFailure id now).1 = .ok () →
    ReportsFailed (s.markScheduleFailed getFailure toggleFailure id now).2 id
  failed : ∀ err, (s.markScheduleFailed getFailure toggleFailure id now).1 = .error err →
    ReadsAlike (s.apply (.getSchedule getFailure id now))
      (s.markScheduleFailed getFailure toggleFailure id now).2 id

theorem reportsFailed_iff (kept : WellKept s) (stored : s.repo.lookup id = some row)
    (disabled : row.Enabled = false) (uncached : s.cache.lookup id = none) :
    ReportsFailed s id ↔ row.Status = .failed := by
  constructor
  · intro reports
    have read : shown s none id 0 = .ok (some row) := by
      simp [shown, getSchedule, getFromCache, uncached, ScheduleRepository.get, stored, Except.map]
    obtain ⟨sch, same, failed⟩ := reports [] (by simp) none 0 _ read
    cases same
    exact failed.1
  · intro status calls reading failure later sch returned
    have marked : Marked s id := by
      refine ⟨kept, ⟨row, stored, status, disabled⟩, fun cached entry => ?_⟩
      rw [uncached] at entry
      cases entry
    exact (marked.run reading).shown returned

theorem blamed_eq_self_iff : blamed sch = sch ↔ Failed sch := by
  constructor
  · intro same
    rw [← same]
    exact ⟨rfl, rfl⟩
  · rintro ⟨status, enabled⟩
    rw [blamed, ← status, ← enabled]

theorem modify_blamed_eq_self {objects : List Schedule}
    (failed : ∀ sch, objects[pointer]? = some sch → Failed sch) :
    objects.modify pointer blamed = objects := by
  apply ext_getElem?
  intro i
  rw [getElem?_modify]
  split_ifs with same
  · subst same
    cases found : objects[pointer]? with
    | none => rfl
    | some sch => exact congrArg some (blamed_eq_self_iff.mpr (failed sch found))
  · simp

theorem getFromCache_of_read (kept : WellKept s)
    (read : s.getSchedule failure id now = (.ok pointer, s')) :
    s'.getFromCache id now = some pointer := by
  rw [getSchedule] at read
  cases found : s.getFromCache id now with
  | some hit =>
    rw [found] at read
    cases read
    exact found
  | none =>
    rw [found] at read
    cases stored : s.repo.get failure id with
    | error err =>
      simp only [stored] at read
      cases read
    | ok row =>
      have live : ¬ now - now > s.ttl := by
        have := kept.ttl
        omega
      simp only [stored] at read
      cases read
      simp only [getFromCache, Finmap.lookup_insert, if_neg live]

theorem readsAlike_blamed_iff (kept : WellKept s)
    (read : s.getSchedule failure id now = (.ok pointer, s')) :
    ReadsAlike s' { s' with objects := s'.objects.modify pointer blamed } id ↔
      ∀ sch, s'.objects[pointer]? = some sch → Failed sch := by
  constructor
  · rintro ⟨-, alike⟩ sch allocated
    -- read once more at the same instant: the entry is still live
    have live := getFromCache_of_read kept read
    have before : shown s' none id now = .ok (some sch) := by
      simp only [shown, getSchedule, live, allocated, Except.map]
    have after : shown { s' with objects := s'.objects.modify pointer blamed } none id now =
        .ok (some (blamed sch)) := by
      have live' : getFromCache
          { s' with objects := s'.objects.modify pointer blamed } id now = some pointer := live
      simp only [shown, getSchedule, live', Except.map, getElem?_modify_self allocated]
    have same := alike [] (by simp) none now
    rw [foldl_nil, foldl_nil, before, after, Except.ok.injEq, Option.some.injEq] at same
    exact blamed_eq_self_iff.mp same
  · intro failed
    rw [modify_blamed_eq_self failed]
    exact ⟨rfl, fun _ _ _ _ => rfl⟩

theorem markScheduleFailed_marks_iff (s : PostgresScheduleStore) (kept : WellKept s)
    (getFailure toggleFailure : Option Text) (id : String) (now : Int) :
    Marks s getFailure toggleFailure id now ↔
      ∀ pointer s₁, s.getSchedule getFailure id now = (.ok pointer, s₁) →
        (toggleFailure = none → ∀ row, s.repo.lookup id = some row → row.Status = .failed) ∧
        (toggleFailure ≠ none ∨ s.repo.lookup id = none →
          ∀ sch, s₁.objects[pointer]? = some sch → Failed sch) := by
  obtain ⟨repo, ttl⟩ := frame_of_caches (caches_getSchedule s getFailure id now)
  have step := markScheduleFailed_step s getFailure toggleFailure id now
  have reading : s.apply (.getSchedule getFailure id now) = (s.getSchedule getFailure id now).2 :=
    rfl
  rw [marks_iff, reading]
  obtain ⟨answered, read⟩ : ∃ answered, s.getSchedule getFailure id now = answered := ⟨_, rfl⟩
  obtain ⟨result, called⟩ : ∃ result,
      s.markScheduleFailed getFailure toggleFailure id now = result := ⟨_, rfl⟩
  rw [read] at repo ttl
  rw [read, called] at step ⊢
  cases step with
  | unread err s₁ => exact iff_of_true ⟨by simp, fun _ _ => ⟨rfl, fun _ _ _ _ => rfl⟩⟩ (by simp)
  | refused pointer s₁ err refuses =>
    have alike := readsAlike_blamed_iff kept read
    constructor
    · rintro ⟨-, failed⟩ pointer' s' same
      cases same
      refine ⟨fun accepts row stored => ?_, fun _ => alike.mp (failed _ rfl)⟩
      rcases refuses with broken | absent
      · exact absurd accepts broken
      · rw [absent] at stored
        cases stored
    · intro condition
      exact ⟨by simp, fun _ _ => alike.mpr ((condition pointer s₁ rfl).2 refuses)⟩
  | marked pointer s₁ row accepts stored =>
    have stored₁ : s₁.repo.lookup id = some row := repo ▸ stored
    have keyed₁ : Keyed s₁.repo := repo ▸ kept.keyed
    have reports := reportsFailed_iff (s := { s₁ with
          repo := s₁.repo.insert id { row with Enabled := false, UpdatedAt := ⟨now, .utc⟩ }
          objects := s₁.objects.modify pointer blamed
          cache := s₁.cache.erase id })
        ⟨keyed₁.insert stored₁ rfl, ttl ▸ kept.ttl⟩ (Finmap.lookup_insert _) rfl
        (Finmap.lookup_erase id _)
    constructor
    · rintro ⟨succeeded, -⟩ pointer' s' same
      cases same
      refine ⟨fun _ row' stored' => ?_, fun refuses => ?_⟩
      · cases stored.symm.trans stored'
        exact reports.mp (succeeded rfl)
      · rcases refuses with broken | absent
        · exact absurd accepts broken
        · rw [absent] at stored
          cases stored
    · intro condition
      exact ⟨fun _ => reports.mpr ((condition pointer s₁ rfl).1 accepts row stored), by simp⟩

theorem hourly_active_after_mark :
    ((newPostgresScheduleStore oneRow).markScheduleFailed none none hourlySchedule.ID 0).1 = .ok () ∧
      (shown ((newPostgresScheduleStore oneRow).markScheduleFailed none none hourlySchedule.ID 0).2
        none hourlySchedule.ID 0).map (fun sch => sch.map fun sch => (sch.Status, sch.Enabled)) =
          .ok (some (.active, false)) ∧
      -- and when the table refuses, the cached schedule is changed all the same
      (∃ err, ((newPostgresScheduleStore oneRow).markScheduleFailed none (some (.str "timeout"))
        hourlySchedule.ID 0).1 = .error err) ∧
      (shown ((newPostgresScheduleStore oneRow).markScheduleFailed none (some (.str "timeout"))
        hourlySchedule.ID 0).2 none hourlySchedule.ID 0).map
          (fun sch => sch.map fun sch => (sch.Status, sch.Enabled)) = .ok (some (.failed, false)) :=
  ⟨by decide +kernel, by decide +kernel, ⟨_, rfl⟩, by decide +kernel⟩

def failedRow : Schedule := { hourlySchedule with Status := .failed }

theorem failedRow_marks :
    Marks (newPostgresScheduleStore ((∅ : ScheduleRepository).insert failedRow.ID failedRow)) none
      none failedRow.ID 0 := by
  have stored : ((∅ : ScheduleRepository).insert failedRow.ID failedRow).lookup failedRow.ID =
      some failedRow := Finmap.lookup_insert _
  apply (markScheduleFailed_marks_iff _ ⟨keyed_single failedRow, by decide⟩ _ _ _ _).mpr
  intro pointer s₁ _
  refine ⟨fun _ row stored' => ?_, fun refuses => ?_⟩
  · cases stored.symm.trans stored'
    rfl
  · rcases refuses with broken | absent
    · exact absurd rfl broken
    · cases stored.symm.trans absent

end NexusPipe.Proof.Scheduler
