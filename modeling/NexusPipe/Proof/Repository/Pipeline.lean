import NexusPipe.Library.Schedule
import NexusPipe.Repository.Pipeline

namespace NexusPipe.Proof.Repository
open Library Models NexusPipe.Repository PipelineRepository Option

variable {row : PipelineRow}

section
variable {rows : PipelineRepository} {failure : Option Text} {id : String} {p : StoredPipeline}
  {clock now : Time}

theorem get_eq_ok (run : rows.get failure id = .ok p) :
    ∃ row, rows.lookup id = some row ∧ p = { row with ID := id } := by
  unfold PipelineRepository.get at run
  repeat' split at run
  all_goals cases run
  exact ⟨_, by assumption, rfl⟩

theorem updateStatus_eq_ok (run : rows.updateStatus failure id status now = .ok rows') :
    ∃ row, rows.lookup id = some row ∧ rows' = rows.insert id (withStatus row status now) := by
  unfold updateStatus at run
  repeat' split at run
  all_goals cases run
  exact ⟨_, by assumption, rfl⟩

theorem softDelete_eq_ok (run : rows.softDelete failure id now = .ok rows') :
    (id ∉ rows ∧ rows' = rows) ∨ ∃ row, rows.lookup id = some row ∧
      rows' = rows.insert id (withStatus row pipelineStatusDeleted now) := by
  cases failure with
  | some err => cases run
  | none =>
    cases stored : rows.lookup id with
    | none =>
      simp only [softDelete, stored, Except.ok.injEq] at run
      exact .inl ⟨Finmap.lookup_eq_none.mp stored, run.symm⟩
    | some row =>
      simp only [softDelete, stored, Except.ok.injEq] at run
      exact .inr ⟨row, rfl, run.symm⟩

def conflict (id : String) : Text := sprintf "pipeline %s: %w" [.str id, errConcurrentModification]

inductive Updated (rows : PipelineRepository) (p : StoredPipeline) :
    Except Text PipelineRepository × StoredPipeline → Prop
  | failed {err : Text} {p' : StoredPipeline} (sameID : p'.ID = p.ID)
      (sameVersion : p'.Version = p.Version) : Updated rows p (.error err, p')
  | written {row row' : PipelineRow} {p' : StoredPipeline}
      (stored : rows.lookup p.ID = some row) (current : row.Version = p.Version)
      (advanced : row'.Version = row.Version + 1) (sameID : p'.ID = p.ID)
      (refreshed : p'.Version = row'.Version) :
      Updated rows p (.ok (rows.insert p.ID row'), p')

variable (failure) in
theorem update_cases : Updated rows p (rows.update failure p clock now) := by
  unfold update
  cases failure with
  | some err => exact .failed rfl rfl
  | none =>
    simp only
    split
    · exact .failed rfl rfl
    · rename_i row found
      obtain ⟨stored, current⟩ := filter_eq_some_iff.mp found
      split_ifs
      · exact .failed rfl rfl
      · exact .written stored (of_decide_eq_true current) rfl rfl rfl

theorem update_of_newer (stored : rows.lookup p.ID = some row) (newer : row.Version ≠ p.Version) :
    (rows.update none p clock now).1 = .error (conflict p.ID) := by
  simp [update, stored, newer, Option.filter, conflict]

theorem update_of_current (stored : rows.lookup p.ID = some row) (current : row.Version = p.Version) :
    (rows.update none p clock now).1 ≠ .error (conflict p.ID) := by
  simp only [update, stored, current, Option.filter, decide_true, if_true]
  split_ifs <;> simp [conflict, sprintf]

end

section
variable {C : Type}

def Tracks (rows : PipelineRepository) (session : PipelineSession) : Prop :=
  ∃ row, rows.lookup session.copy.ID = some row ∧ session.copy.Version ≤ row.Version ∧
    (row.Version = session.copy.Version ↔ .update ∉ session.since)

def Tracked (s : PipelineClients C) : Prop :=
  ∀ c session, s.sessions c = some session → Tracks s.rows session

def Writes (write : PipelineWrite) (row row' : PipelineRow) : Prop :=
  row'.Version = if write = .update then row.Version + 1 else row.Version

variable {s : PipelineClients C}

theorem Tracked.noted (tracked : Tracked s) {id : String} (stored : s.rows.lookup id = some row)
    (writes : Writes write row row') :
    Tracked { rows := s.rows.insert id row', sessions := PipelineClients.noted s.sessions id write } := by
  intro c session held
  obtain ⟨before, heldBefore, rfl⟩ := map_eq_some_iff.mp held
  obtain ⟨current, found, least, same⟩ := tracked c before heldBefore
  by_cases here : before.copy.ID = id
  · subst here
    obtain rfl := mem_unique found stored
    rw [if_pos rfl]
    refine ⟨row', by simp, ?_, ?_⟩
    · rw [writes]
      split_ifs
      · exact le_add_of_le_of_nonneg least zero_le_one
      · exact least
    · rw [List.mem_append, not_or, ← same, writes]
      cases write with
      | update =>
        simp only [if_true, List.mem_singleton, not_true, and_false, iff_false]
        omega
      | updateStatus | softDelete => simp
  · rw [if_neg here]
    refine ⟨current, ?_, least, same⟩
    rw [GoMap.lookup_insert_eq, if_neg here]
    exact found

variable [DecidableEq C]

theorem Tracked.hold (tracked : Tracked s) (c : C) (tracks : Tracks s.rows session) :
    Tracked { s with sessions := Function.update s.sessions c (some session) } := by
  intro c' session' held
  simp only [Function.update_apply] at held
  split_ifs at held with same
  · exact some.inj held ▸ tracks
  · exact tracked c' session' held

theorem step_tracked (tracked : Tracked s) (next : s.step call = some s') : Tracked s' := by
  cases call with
  | get c failure id =>
    simp only [PipelineClients.step] at next
    split at next
    · exact some.inj next ▸ tracked
    · next p run =>
      obtain rfl := some.inj next
      obtain ⟨row, stored, rfl⟩ := get_eq_ok run
      exact tracked.hold c ⟨row, stored, le_rfl, by simp⟩
  | update c failure edit clock now =>
    obtain ⟨session, held, rfl⟩ := map_eq_some_iff.mp next
    obtain ⟨row, found, least, same⟩ := tracked c session held
    have outcome : Updated s.rows (edit.apply session.copy)
        (s.rows.update failure (edit.apply session.copy) clock now) := update_cases failure
    generalize s.rows.update failure (edit.apply session.copy) clock now = result at outcome
    cases outcome with
    | failed sameID sameVersion =>
      refine tracked.hold c ⟨row, ?_, ?_, ?_⟩
      · rw [sameID]
        exact found
      · rw [sameVersion]
        exact least
      · rw [sameVersion]
        exact same
    | @written row row' p stored current advanced sameID refreshed =>
      simp only [sameID]
      have writes : Writes .update row row' := advanced
      refine Tracked.hold (tracked.noted stored writes) c ⟨row', ?_, refreshed.le, ?_⟩
      · rw [sameID]
        simp
      · simp [refreshed]
  | updateStatus failure id status now =>
    simp only [PipelineClients.step] at next
    split at next
    · exact some.inj next ▸ tracked
    · next rows run =>
      obtain rfl := some.inj next
      obtain ⟨row, stored, rfl⟩ := updateStatus_eq_ok run
      exact tracked.noted stored rfl
  | softDelete failure id now =>
    simp only [PipelineClients.step] at next
    split at next
    · exact some.inj next ▸ tracked
    · next rows run =>
      obtain rfl := some.inj next
      rcases softDelete_eq_ok run with ⟨absent, rfl⟩ | ⟨row, stored, rfl⟩
      · rw [if_neg absent]
        exact tracked
      · rw [if_pos (Finmap.mem_of_lookup_eq_some stored)]
        exact tracked.noted stored rfl

/-- An executed `Update` succeeds only with no other write since the client read, and else reports
the conflict. -/
def Guarded (s : PipelineClients C) : PipelineCall C → Prop
  | .update c none edit clock now => ∀ session, s.sessions c = some session →
      ((∃ rows, (s.rows.update none (edit.apply session.copy) clock now).1 = .ok rows) →
        session.since = []) ∧
      (session.since ≠ [] →
        (s.rows.update none (edit.apply session.copy) clock now).1 =
          .error (conflict session.copy.ID))
  | _ => True

def SeenByVersion (s : PipelineClients C) : PipelineCall C → Prop
  | .update c none _ _ _ => ∀ session, s.sessions c = some session →
      session.since = [] ∨ .update ∈ session.since
  | _ => True

omit [DecidableEq C] in
theorem guarded_iff (tracked : Tracked s) (call : PipelineCall C) :
    Guarded s call ↔ SeenByVersion s call := by
  cases call with
  | update c failure edit clock now =>
    cases failure with
    | some err => rfl
    | none =>
      refine forall_congr' fun session => forall_congr' fun held => ?_
      obtain ⟨row, found, -, same⟩ := tracked c session held
      constructor
      · rintro ⟨-, reported⟩
        by_cases quiet : session.since = []
        · exact .inl quiet
        · refine .inr (not_not.mp fun unseen => ?_)
          exact update_of_current (p := edit.apply session.copy) found (same.mpr unseen)
            (reported quiet)
      · rintro (quiet | seen)
        · exact ⟨fun _ => quiet, fun written => absurd quiet written⟩
        · have reported : (s.rows.update none (edit.apply session.copy) clock now).1 =
              .error (conflict session.copy.ID) :=
            update_of_newer found fun current => same.mp current seen
          refine ⟨fun success => ?_, fun _ => reported⟩
          obtain ⟨rows, written⟩ := success
          rw [written] at reported
          cases reported
  | get | updateStatus | softDelete => rfl

theorem updates_guarded_iff (rows : PipelineRepository) (calls : List (PipelineCall C)) :
    Along PipelineClients.step Guarded { rows := rows } calls ↔
      Along PipelineClients.step SeenByVersion { rows := rows } calls := by
  refine along_congr_of_invariant Tracked ?_ ?_ ?_
  · exact fun s call s' tracked next => step_tracked tracked next
  · exact fun s call tracked => guarded_iff tracked call
  · intro c session held
    cases held

end

def activePipeline : PipelineRow where
  Name := "etl"
  Status := .active
  ConfigJSON := "\x7b\x7d"
  CreatedAt := Time.zero
  UpdatedAt := Time.zero

def renamed : PipelineEdit where
  Name := "nightly etl"
  Description := ""
  Status := .active
  ConfigJSON := "\x7b\x7d"

def pausedMeanwhile : List (PipelineCall Unit) :=
  [.get () none "p", .updateStatus none "p" .paused Time.zero,
    .update () none renamed Time.zero Time.zero]

theorem paused_status_overwritten :
    ¬ Along PipelineClients.step Guarded
        { rows := Finmap.singleton "p" activePipeline } pausedMeanwhile ∧
      (runSchedule PipelineClients.step { rows := Finmap.singleton "p" activePipeline }
        pausedMeanwhile).map (fun s => (s.rows.lookup "p").map (·.Status)) = some (some .active) := by
  refine ⟨?_, by decide⟩
  rintro ⟨-, readFirst⟩
  obtain ⟨-, statusNext⟩ := readFirst _ rfl
  obtain ⟨guarded, -⟩ := statusNext _ rfl
  have unwritten := (guarded _ rfl).1 ⟨_, rfl⟩
  cases unwritten

end NexusPipe.Proof.Repository
