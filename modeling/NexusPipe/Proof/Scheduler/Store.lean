import Mathlib.Logic.Relation
import NexusPipe.Library.Schedule
import NexusPipe.Proof.Scheduler.Job
import NexusPipe.Scheduler.Store

namespace NexusPipe.Proof.Scheduler
open Library Models NexusPipe.Scheduler Relation PostgresScheduleStore Option

def SameRow (sch row : Schedule) : Prop := ∃ updatedAt, row = { sch with UpdatedAt := updatedAt }

theorem SameRow.refl (row : Schedule) : SameRow row row := ⟨row.UpdatedAt, rfl⟩

variable {row sch : Schedule}

theorem SameRow.id_eq (same : SameRow sch row) : sch.ID = row.ID := by
  obtain ⟨_, rfl⟩ := same
  rfl

def ShowsRow (s : PostgresScheduleStore) (id : String) (pointer : Nat) : Prop :=
  ∃ sch row, s.objects[pointer]? = some sch ∧ s.repo.lookup id = some row ∧ SameRow sch row

def Keyed (rows : ScheduleRepository) : Prop := ∀ id row, rows.lookup id = some row → row.ID = id

structure WellKept (s : PostgresScheduleStore) : Prop where
  keyed : Keyed s.repo
  ttl : 0 ≤ s.ttl

def Coherent (s : PostgresScheduleStore) : Prop :=
  ∀ id cached, s.cache.lookup id = some cached → ShowsRow s id cached.schedule

def ReadsTable (s : PostgresScheduleStore) : Prop :=
  ∀ failure id now pointer s', s.getSchedule failure id now = (.ok pointer, s') →
    ShowsRow s' id pointer

variable {s s' : PostgresScheduleStore} {id : String} {pointer : Nat} {now : Int}

theorem ShowsRow.frame (shows : ShowsRow s id pointer) (repo : s'.repo.lookup id = s.repo.lookup id)
    (object : s'.objects[pointer]? = s.objects[pointer]?) : ShowsRow s' id pointer := by
  obtain ⟨sch, row, allocated, stored, same⟩ := shows
  exact ⟨sch, row, object.trans allocated, repo.trans stored, same⟩

theorem ShowsRow.pointer_ne (shows : ShowsRow s id pointer) (shows' : ShowsRow s id' pointer')
    (kept : WellKept s) (other : id' ≠ id) : pointer' ≠ pointer := by
  -- a shared object would carry both IDs
  rintro rfl
  obtain ⟨sch, row, allocated, stored, same⟩ := shows
  obtain ⟨sch', row', allocated', stored', same'⟩ := shows'
  obtain rfl := mem_unique allocated allocated'
  rw [← kept.keyed id row stored, ← kept.keyed id' row' stored', ← same.id_eq, ← same'.id_eq] at other
  exact other rfl

theorem getSchedule_cases (s : PostgresScheduleStore) (failure : Option Text) (id : String)
    (now : Int) :
    (∃ cached, s.cache.lookup id = some cached ∧
        s.getSchedule failure id now = (.ok cached.schedule, s)) ∨
      (∃ row, s.repo.lookup id = some row ∧
        s.getSchedule failure id now = (.ok s.objects.length, { s with
          objects := s.objects ++ [row]
          cache := s.cache.insert id ⟨s.objects.length, now⟩ })) ∨
      ∃ err, s.getSchedule failure id now = (.error err, s) := by
  rw [getSchedule]
  cases found : s.getFromCache id now with
  | some pointer =>
    rw [getFromCache] at found
    split at found
    · cases found
    · rename_i cached entry
      split_ifs at found
      exact .inl ⟨cached, entry, by rw [← some.inj found]⟩
  | none =>
    cases read : s.repo.get failure id with
    | error err => exact .inr (.inr ⟨err, rfl⟩)
    | ok row =>
      refine .inr (.inl ⟨row, ?_, rfl⟩)
      cases failure with
      | some err => cases read
      | none =>
        simp only [ScheduleRepository.get] at read
        split at read
        · cases read
        · rename_i stored
          rw [stored, Except.ok.inj read]

inductive Caches (s : PostgresScheduleStore) : PostgresScheduleStore → Prop
  | insert {id : String} {row : Schedule} (stored : s.repo.lookup id = some row) (now : Int) :
      Caches s { s with
        objects := s.objects ++ [row]
        cache := s.cache.insert id ⟨s.objects.length, now⟩ }
  | erase (id : String) : Caches s (s.invalidateCache id)
  | clear : Caches s s.clearCache

theorem preserved_of_caches {P : PostgresScheduleStore → Prop}
    (step : ∀ s s', P s → Caches s s' → P s') (holds : P s) (path : ReflTransGen Caches s s') :
    P s' := by
  induction path with
  | refl => exact holds
  | tail _ last ih => exact step _ _ ih last

theorem Caches.frame (caches : Caches s s') : s'.repo = s.repo ∧ s'.ttl = s.ttl := by
  cases caches <;> exact ⟨rfl, rfl⟩

theorem frame_of_caches (path : ReflTransGen Caches s s') : s'.repo = s.repo ∧ s'.ttl = s.ttl := by
  refine preserved_of_caches (P := fun s' => s'.repo = s.repo ∧ s'.ttl = s.ttl)
    (fun s₁ s₂ same caches => ?_) ⟨rfl, rfl⟩ path
  rwa [caches.frame.1, caches.frame.2]

theorem WellKept.caches (kept : WellKept s) (caches : Caches s s') : WellKept s' := by
  obtain ⟨repo, ttl⟩ := caches.frame
  exact ⟨repo ▸ kept.keyed, ttl ▸ kept.ttl⟩

theorem Coherent.caches (coherent : Coherent s) (caches : Caches s s') : Coherent s' := by
  intro id cached entry
  cases caches with
  | @insert _ row stored now =>
    rw [GoMap.lookup_insert_eq] at entry
    split_ifs at entry with same
    · subst same
      cases entry
      exact ⟨row, row, by simp, stored, .refl row⟩
    · have shows := coherent id cached entry
      refine shows.frame rfl ?_
      obtain ⟨sch, row', allocated, -⟩ := shows
      obtain ⟨bound, -⟩ := List.getElem?_eq_some_iff.mp allocated
      exact List.getElem?_append_left bound
  | erase id' =>
    simp only [invalidateCache, GoMap.lookup_erase_eq] at entry
    split_ifs at entry
    exact coherent id cached entry
  | clear => cases entry

theorem caches_getSchedule (s : PostgresScheduleStore) (failure : Option Text) (id : String)
    (now : Int) : ReflTransGen Caches s (s.getSchedule failure id now).2 := by
  rcases getSchedule_cases s failure id now with
    ⟨cached, -, result⟩ | ⟨row, stored, result⟩ | ⟨err, result⟩ <;> rw [result]
  exact .single (.insert stored now)

theorem readsTable_iff (kept : WellKept s) : ReadsTable s ↔ Coherent s := by
  constructor
  · intro reads id cached entry
    -- Read at the very moment the entry was cached: it cannot have expired.
    have hit : s.getSchedule none id cached.cachedAt = (.ok cached.schedule, s) := by
      have live : ¬ cached.cachedAt - cached.cachedAt > s.ttl := by
        have := kept.ttl
        omega
      simp only [getSchedule, getFromCache, entry, if_neg live]
    exact reads none id cached.cachedAt _ s hit
  · intro coherent failure id now pointer s' result
    rcases getSchedule_cases s failure id now with
      ⟨cached, entry, hit⟩ | ⟨row, stored, miss⟩ | ⟨err, failed⟩
    · cases result.symm.trans hit
      exact coherent id cached entry
    · cases result.symm.trans miss
      exact ⟨row, row, by simp, stored, .refl row⟩
    · cases result.symm.trans failed

variable {rows : ScheduleRepository}

theorem lookup_of_mem_select (keyed : Keyed rows) (member : row ∈ rows.select order condition) :
    rows.lookup row.ID = some row := by
  rw [ScheduleRepository.select, List.mem_mergeSort, List.mem_filter, List.mem_map] at member
  obtain ⟨⟨⟨id, row⟩, entry, rfl⟩, -⟩ := member
  have stored := (order rows).mem_entries.mp entry
  exact (keyed id row stored).symm ▸ stored

theorem lookup_of_mem_list (kept : WellKept s) {failure : Option ScheduleRepository.QueryFault}
    {rows : List Schedule} (listed : s.repo.list order failure filter = .ok rows)
    (member : row ∈ rows) : s.repo.lookup row.ID = some row := by
  simp only [ScheduleRepository.list] at listed
  split at listed
  · cases listed
  · cases listed
  · cases listed
  · cases listed
    exact lookup_of_mem_select kept.keyed (List.mem_of_mem_drop (List.mem_of_mem_take member))

theorem caches_rows {rows : List Schedule} (stored : ∀ row ∈ rows, s.repo.lookup row.ID = some row)
    (now : Int) : ReflTransGen Caches s (rows.foldl (fun s row => s.cacheRow row now) s) := by
  induction rows generalizing s with
  | nil => exact .refl
  | cons row rows ih =>
    refine .head (.insert (stored row List.mem_cons_self) now) (ih ?_)
    exact fun row' member => stored row' (List.mem_cons_of_mem row member)

def reads : StoreCall → Bool
  | .updateNextRunTime _ _ _ _ | .markScheduleFailed _ _ _ _ => false
  | _ => true

theorem caches_apply (kept : WellKept s) (reading : reads call = true) :
    ReflTransGen Caches s (s.apply call) := by
  cases call with
  | getActiveSchedules order failure now =>
    simp only [apply, getActiveSchedules]
    split
    · exact .refl
    · rename_i rows listed
      exact caches_rows (fun _ => lookup_of_mem_list kept listed) now
  | getSchedule failure id now => exact caches_getSchedule s failure id now
  | invalidateCache id => exact .single (.erase id)
  | refreshCache order failure now =>
    simp only [apply, refreshCache]
    cases listed : s.repo.list order failure activeFilter with
    | error err => exact .refl
    | ok rows =>
      exact .head .clear
        (caches_rows (s := s.clearCache) (fun _ => lookup_of_mem_list kept listed) now)
  | clearCache => exact .single .clear
  | updateNextRunTime | markScheduleFailed => cases reading

variable {objects : List Schedule}

theorem getElem?_modify_self (allocated : objects[pointer]? = some sch) :
    (objects.modify pointer change)[pointer]? = some (change sch) := by
  simp [allocated]

theorem getElem?_modify_other (other : pointer' ≠ pointer) :
    (objects.modify pointer change)[pointer']? = objects[pointer']? := by
  simp [Ne.symm other]

theorem coherent_write_iff (kept : WellKept s) (coherent : Coherent s)
    (entry : s.cache.lookup id = some cached) (changed : s'.objects[cached.schedule]? = some sch)
    (stored : s'.repo.lookup id = some row)
    (objects : ∀ pointer, pointer ≠ cached.schedule → s'.objects[pointer]? = s.objects[pointer]?)
    (repo : ∀ id', id' ≠ id → s'.repo.lookup id' = s.repo.lookup id')
    (cache : ∀ id', id' ≠ id → s'.cache.lookup id' = s.cache.lookup id')
    (entry' : (s'.cache.lookup id).map (·.schedule) = some cached.schedule) :
    Coherent s' ↔ SameRow sch row := by
  obtain ⟨cached', found, pointer⟩ := map_eq_some_iff.mp entry'
  constructor
  · intro coherent'
    obtain ⟨sch', row', allocated', stored', same⟩ := coherent' id cached' found
    rw [pointer, changed, some.injEq] at allocated'
    rw [stored, some.injEq] at stored'
    exact allocated' ▸ stored' ▸ same
  · intro same id' cached'' entry''
    by_cases this : id' = id
    · subst this
      rw [found, some.injEq] at entry''
      exact ⟨sch, row, by rw [← entry'', pointer, changed], stored, same⟩
    · rw [cache id' this] at entry''
      have shows := coherent id' cached'' entry''
      have apart := (coherent id cached entry).pointer_ne shows kept this
      exact shows.frame (repo id' this) (objects _ apart)

theorem updateNextRunTime_cases (s : PostgresScheduleStore) (failure : Option Text) (id : String)
    (nextRun : Time) (now : Int) :
    (failure ≠ none ∨ s.repo.lookup id = none) ∧
        (∃ err, s.updateNextRunTime failure id nextRun now = .error err) ∨
      ∃ row, failure = none ∧ s.repo.lookup id = some row ∧
        (s.cache.lookup id = none ∧ s.updateNextRunTime failure id nextRun now = .ok { s with
            repo := s.repo.insert id (ScheduleRepository.advance row nextRun now) } ∨
          ∃ cached, s.cache.lookup id = some cached ∧
            s.updateNextRunTime failure id nextRun now = .ok { s with
              repo := s.repo.insert id (ScheduleRepository.advance row nextRun now)
              objects := s.objects.modify cached.schedule fun sch =>
                { sch with NextRunTimeValue := nextRun }
              cache := s.cache.insert id { cached with cachedAt := now } }) := by
  rw [updateNextRunTime, ScheduleRepository.updateNextRunTime.eq_def]
  cases failure with
  | some err => exact .inl ⟨.inl (by simp), _, rfl⟩
  | none =>
    cases stored : s.repo.lookup id with
    | none => exact .inl ⟨.inr rfl, _, rfl⟩
    | some row =>
      refine .inr ⟨row, rfl, rfl, ?_⟩
      cases entry : s.cache.lookup id with
      | none => exact .inl ⟨rfl, rfl⟩
      | some cached => exact .inr ⟨cached, rfl, rfl⟩

theorem sameRow_advance_iff (same : SameRow sch row) (nextRun : Time) (now : Int) :
    SameRow { sch with NextRunTimeValue := nextRun } (ScheduleRepository.advance row nextRun now) ↔
      (row.NextRunTimeValue.instant < nextRun.instant →
        row.LastRunTime = some row.NextRunTimeValue) := by
  obtain ⟨updatedAt, rfl⟩ := same
  simp only [SameRow, ScheduleRepository.advance, Schedule.mk.injEq, true_and, ite_eq_right_iff]
  constructor
  · rintro ⟨_, kept, -⟩ less
    exact (kept less).symm
  · intro kept
    exact ⟨_, fun less => (kept less).symm, rfl⟩

theorem coherent_updateNextRunTime_iff (kept : WellKept s) (coherent : Coherent s)
    (failure : Option Text) (id : String) (nextRun : Time) (now : Int) :
    Coherent (s.apply (.updateNextRunTime failure id nextRun now)) ↔
      (failure = none → id ∈ s.cache → ∀ row, s.repo.lookup id = some row →
        row.NextRunTimeValue.instant < nextRun.instant →
        row.LastRunTime = some row.NextRunTimeValue) := by
  simp only [apply]
  rcases updateNextRunTime_cases s failure id nextRun now with
    ⟨cause, err, failed⟩ | ⟨row, rfl, stored, ⟨absent, updated⟩ | ⟨cached, entry, updated⟩⟩
  · rw [failed]
    refine iff_of_true coherent fun healthy _ row stored => ?_
    rcases cause with broken | missing
    · exact absurd healthy broken
    · cases missing.symm.trans stored
  · rw [updated]
    refine iff_of_true ?_ fun _ present => ?_
    · intro id' cached entry
      have other : id' ≠ id := by
        rintro rfl
        cases absent.symm.trans entry
      exact (coherent id' cached entry).frame (Finmap.lookup_insert_of_ne _ other) rfl
    · exact absurd present (Finmap.lookup_eq_none.mp absent)
  · rw [updated]
    obtain ⟨sch, row', allocated, stored', same⟩ := coherent id cached entry
    obtain rfl := mem_unique stored stored'
    rw [coherent_write_iff kept coherent entry (getElem?_modify_self allocated)
      (Finmap.lookup_insert s.repo) (fun _ => getElem?_modify_other)
      (fun _ other => Finmap.lookup_insert_of_ne _ other)
      (fun _ other => Finmap.lookup_insert_of_ne _ other)
      (by rw [Finmap.lookup_insert, map_some]), sameRow_advance_iff same]
    refine ⟨fun kept _ _ row' stored' => ?_, fun kept => ?_⟩
    · obtain rfl := mem_unique stored stored'
      exact kept
    · exact kept rfl (Finmap.mem_iff.mpr ⟨cached, entry⟩) row stored

variable {failure : Option Text}

theorem getSchedule_entry (read : s.getSchedule failure id now = (.ok pointer, s')) :
    (s'.cache.lookup id).map (·.schedule) = some pointer := by
  rcases getSchedule_cases s failure id now with
    ⟨cached, entry, hit⟩ | ⟨row, -, miss⟩ | ⟨err, failed⟩
  · cases read.symm.trans hit
    rw [entry, map_some]
  · cases read.symm.trans miss
    rw [Finmap.lookup_insert, map_some]
  · cases read.symm.trans failed

def Failed (sch : Schedule) : Prop := sch.Status = .failed ∧ sch.Enabled = false

def blamed (sch : Schedule) : Schedule := { sch with Status := .failed, Enabled := false }

theorem sameRow_blamed_iff (same : SameRow sch row) : SameRow (blamed sch) row ↔ Failed sch := by
  obtain ⟨updatedAt, rfl⟩ := same
  simp only [SameRow, blamed, Failed, Schedule.mk.injEq, true_and]
  constructor
  · rintro ⟨_, status, enabled, -⟩
    exact ⟨status, enabled⟩
  · rintro ⟨status, enabled⟩
    exact ⟨_, status, enabled, rfl⟩

theorem coherent_erase_write (kept : WellKept s) (coherent : Coherent s)
    (entry : s.cache.lookup id = some cached) (row : Schedule) :
    Coherent { s with
      repo := s.repo.insert id row
      objects := s.objects.modify cached.schedule change
      cache := s.cache.erase id } := by
  intro id' cached' entry'
  rw [GoMap.lookup_erase_eq] at entry'
  split_ifs at entry' with this
  have shows := coherent id' cached' entry'
  have apart := (coherent id cached entry).pointer_ne shows kept this
  exact shows.frame (Finmap.lookup_insert_of_ne _ this) (getElem?_modify_other apart)

inductive MarkStep (s : PostgresScheduleStore) (toggleFailure : Option Text) (id : String)
    (now : Int) : Except Text Nat × PostgresScheduleStore →
      Except Text Unit × PostgresScheduleStore → Prop
  | unread (err : Text) (s₁ : PostgresScheduleStore) :
      MarkStep s toggleFailure id now (.error err, s₁)
        (.error (sprintf "get schedule for mark failed: %w" [err]), s₁)
  | refused (pointer : Nat) (s₁ : PostgresScheduleStore) (err : Text)
      (refuses : toggleFailure ≠ none ∨ s.repo.lookup id = none) :
      MarkStep s toggleFailure id now (.ok pointer, s₁)
        (.error (sprintf "disable failed schedule: %w" [err]),
          { s₁ with objects := s₁.objects.modify pointer blamed })
  | marked (pointer : Nat) (s₁ : PostgresScheduleStore) (row : Schedule)
      (accepts : toggleFailure = none) (stored : s.repo.lookup id = some row) :
      MarkStep s toggleFailure id now (.ok pointer, s₁)
        (.ok (), { s₁ with
          repo := s₁.repo.insert id { row with Enabled := false, UpdatedAt := ⟨now, .utc⟩ }
          objects := s₁.objects.modify pointer blamed
          cache := s₁.cache.erase id })

theorem markScheduleFailed_step (s : PostgresScheduleStore) (getFailure toggleFailure : Option Text)
    (id : String) (now : Int) : MarkStep s toggleFailure id now (s.getSchedule getFailure id now)
      (s.markScheduleFailed getFailure toggleFailure id now) := by
  have repo := (frame_of_caches (caches_getSchedule s getFailure id now)).1
  rw [markScheduleFailed]
  obtain ⟨⟨answer, s₁⟩, read⟩ : ∃ answered, s.getSchedule getFailure id now = answered := ⟨_, rfl⟩
  rw [read] at repo ⊢
  cases answer with
  | error err => exact .unread err s₁
  | ok pointer =>
    cases toggleFailure with
    | some err =>
      have broken : some err ≠ none := by simp
      exact .refused pointer s₁ _ (.inl broken)
    | none =>
      cases stored : s.repo.lookup id with
      | none =>
        simp only [ScheduleRepository.toggleEnabled, repo ▸ stored]
        exact .refused pointer s₁ _ (.inr stored)
      | some row =>
        simp only [ScheduleRepository.toggleEnabled, repo ▸ stored]
        exact .marked pointer s₁ row rfl stored

theorem coherent_markScheduleFailed_iff (kept : WellKept s) (coherent : Coherent s)
    (getFailure toggleFailure : Option Text) (id : String) (now : Int) :
    Coherent (s.markScheduleFailed getFailure toggleFailure id now).2 ↔
      ∀ pointer s', s.getSchedule getFailure id now = (.ok pointer, s') → toggleFailure ≠ none →
        ∀ sch, s'.objects[pointer]? = some sch → Failed sch := by
  have step := markScheduleFailed_step s getFailure toggleFailure id now
  have path := caches_getSchedule s getFailure id now
  have read := preserved_of_caches (fun _ _ => Coherent.caches) coherent path
  have kept₁ := preserved_of_caches (fun _ _ => WellKept.caches) kept path
  have repo := (frame_of_caches path).1
  generalize s.markScheduleFailed getFailure toggleFailure id now = called at step ⊢
  obtain ⟨answered, result⟩ : ∃ answered, s.getSchedule getFailure id now = answered := ⟨_, rfl⟩
  rw [result] at step read kept₁ repo ⊢
  cases step with
  | unread err s₁ => exact iff_of_true read (by simp)
  | refused pointer s₁ err refuses =>
    -- the object was changed before the statement failed, and stays in the cache
    have entry := getSchedule_entry result
    obtain ⟨cached, found, rfl⟩ := map_eq_some_iff.mp entry
    obtain ⟨sch, row, allocated, stored, same⟩ := read id cached found
    have broken := refuses.resolve_right fun absent => by cases (repo ▸ stored).symm.trans absent
    refine Iff.trans (coherent_write_iff kept₁ read found (getElem?_modify_self allocated) stored
      (fun _ => getElem?_modify_other) (fun _ _ => rfl) (fun _ _ => rfl) entry) ?_
    rw [sameRow_blamed_iff same]
    constructor
    · rintro marked _ _ again - sch' allocated'
      cases again
      cases allocated.symm.trans allocated'
      exact marked
    · exact fun marked => marked _ _ rfl broken sch allocated
  | marked pointer s₁ row accepts stored =>
    obtain ⟨cached, found, rfl⟩ := map_eq_some_iff.mp (getSchedule_entry result)
    exact iff_of_true (coherent_erase_write kept₁ read found _) (by simp [accepts])

theorem Keyed.insert {row' : Schedule} (keyed : Keyed rows) (stored : rows.lookup id = some row)
    (same : row'.ID = row.ID) : Keyed (rows.insert id row') := by
  intro id' found lookup
  rw [GoMap.lookup_insert_eq] at lookup
  split_ifs at lookup with this
  · cases lookup
    rw [same, keyed id row stored, this]
  · exact keyed id' found lookup

theorem WellKept.apply (kept : WellKept s) (call : StoreCall) : WellKept (s.apply call) := by
  cases call with
  | updateNextRunTime failure id nextRun now =>
    simp only [PostgresScheduleStore.apply]
    rcases updateNextRunTime_cases s failure id nextRun now with
      ⟨-, err, failed⟩ | ⟨row, -, stored, ⟨-, updated⟩ | ⟨cached, -, updated⟩⟩
    · simpa only [failed] using kept
    · simp only [updated]
      exact ⟨kept.keyed.insert stored rfl, kept.ttl⟩
    · simp only [updated]
      exact ⟨kept.keyed.insert stored rfl, kept.ttl⟩
  | markScheduleFailed getFailure toggleFailure id now =>
    have step := markScheduleFailed_step s getFailure toggleFailure id now
    have path := caches_getSchedule s getFailure id now
    have read := preserved_of_caches (fun _ _ => WellKept.caches) kept path
    have repo := (frame_of_caches path).1
    rw [PostgresScheduleStore.apply]
    generalize s.markScheduleFailed getFailure toggleFailure id now = called at step ⊢
    generalize s.getSchedule getFailure id now = answered at step read repo
    cases step with
    | unread | refused => exact ⟨read.keyed, read.ttl⟩
    | marked pointer s₁ row accepts stored =>
      have stored : s₁.repo.lookup id = some row := repo ▸ stored
      exact ⟨read.keyed.insert stored rfl, read.ttl⟩
  | _ => exact preserved_of_caches (fun _ _ => WellKept.caches) kept (caches_apply kept rfl)

def Transparent (s : PostgresScheduleStore) : StoreCall → Prop
  | .updateNextRunTime failure id nextRun _ =>
    failure = none → id ∈ s.cache → ∀ row, s.repo.lookup id = some row →
      row.NextRunTimeValue.instant < nextRun.instant →
      row.LastRunTime = some row.NextRunTimeValue
  | .markScheduleFailed getFailure toggleFailure id now =>
    ∀ pointer s', s.getSchedule getFailure id now = (.ok pointer, s') → toggleFailure ≠ none →
      ∀ sch, s'.objects[pointer]? = some sch → sch.Status = .failed ∧ sch.Enabled = false
  | _ => True

theorem coherent_apply_iff (kept : WellKept s) (coherent : Coherent s) (call : StoreCall) :
    Coherent (s.apply call) ↔ Transparent s call := by
  cases call with
  | updateNextRunTime failure id nextRun now =>
    exact coherent_updateNextRunTime_iff kept coherent failure id nextRun now
  | markScheduleFailed getFailure toggleFailure id now =>
    exact coherent_markScheduleFailed_iff kept coherent getFailure toggleFailure id now
  | _ =>
    refine iff_of_true ?_ trivial
    exact preserved_of_caches (fun _ _ => Coherent.caches) coherent (caches_apply kept rfl)

def storeAfter (rows : ScheduleRepository) (calls : List StoreCall) : PostgresScheduleStore :=
  calls.foldl PostgresScheduleStore.apply (newPostgresScheduleStore rows)

theorem storeAfter_concat (rows : ScheduleRepository) (calls : List StoreCall) (call : StoreCall) :
    storeAfter rows (calls ++ [call]) = (storeAfter rows calls).apply call := by
  simp [storeAfter]

theorem wellKept_storeAfter (keyed : Keyed rows) (calls : List StoreCall) :
    WellKept (storeAfter rows calls) := by
  induction calls using List.reverseRecOn with
  | nil =>
    have positive : 0 ≤ 30 * second := by decide
    exact ⟨keyed, positive⟩
  | append_singleton calls call ih => exact storeAfter_concat rows calls call ▸ ih.apply call

theorem getSchedule_reads_table_iff {rows : ScheduleRepository} (keyed : Keyed rows)
    (calls : List StoreCall) : (∀ before, before <+: calls → ReadsTable (storeAfter rows before)) ↔
      ∀ before call, before ++ [call] <+: calls → Transparent (storeAfter rows before) call := by
  have kept := wellKept_storeAfter keyed
  simp only [readsTable_iff (kept _)]
  refine forall_prefix_iff ?_ ?_ calls
  · intro before call coherent
    rw [storeAfter_concat]
    exact coherent_apply_iff (kept before) coherent call
  · intro id cached entry
    cases entry

def hourlySchedule : Schedule := sampleSchedule "0 * * * *" "UTC"

theorem keyed_single (row : Schedule) : Keyed ((∅ : ScheduleRepository).insert row.ID row) := by
  intro id row' stored
  rw [GoMap.lookup_insert_eq] at stored
  split_ifs at stored with this
  · cases stored
    exact this.symm
  · cases stored

def oneRow : ScheduleRepository := (∅ : ScheduleRepository).insert hourlySchedule.ID hourlySchedule

theorem getSchedule_reads_table_iff_oneRow :
    ReadsTable (storeAfter oneRow [.getSchedule none hourlySchedule.ID 0]) := by
  have keyed : Keyed oneRow := keyed_single hourlySchedule
  have reads := (getSchedule_reads_table_iff keyed
    [.getSchedule none hourlySchedule.ID 0]).mpr ?_
  · exact reads _ List.prefix_rfl
  · rintro before call ⟨rest, split⟩
    cases before with
    | nil =>
      cases split
      trivial
    | cons first before => simp at split

theorem getSchedule_stale_after_update :
    let s := storeAfter oneRow [.getSchedule none hourlySchedule.ID 0,
      .updateNextRunTime none hourlySchedule.ID (hourlySchedule.NextRunTimeValue.add (60 * minute)) 0]
    s.getSchedule none hourlySchedule.ID 0 = (.ok 0, s) ∧
      s.objects[0]?.map (·.LastRunTime) = some hourlySchedule.LastRunTime ∧
      (s.repo.lookup hourlySchedule.ID).map (·.LastRunTime) =
        some (some hourlySchedule.NextRunTimeValue) := by
  decide +kernel

end NexusPipe.Proof.Scheduler
