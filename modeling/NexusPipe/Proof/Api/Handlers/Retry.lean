import NexusPipe.Api.Handlers.Task

namespace NexusPipe.Proof.Api.Handlers.Retry
open Library Models NexusPipe.Repository NexusPipe.Api.Handlers TaskRepository

variable {repo : TaskRepository} {id : String} {failure : Option Text} {now : Time}
  {columns : String → TaskRepository.TaskColumns}

def Due (columns : String → TaskRepository.TaskColumns) (now : Time) (id : String) : Prop :=
  ∀ scheduled ∈ (columns id).ScheduledAt, scheduled.instant ≤ now.instant

theorem retryTaskAlone_success
    (succeeded : (retryTaskAlone failure repo id fetching now).2 = .success task) :
    ∃ row, task = { row with Status := .pending } ∧
      (retryTaskAlone failure repo id fetching now).1 =
        repo.insert id (withRetry row "manual retry" now) := by
  unfold retryTaskAlone at succeeded ⊢
  cases fetched : fetchTask fetching repo id with
  | error response =>
    rw [fetched] at succeeded
    unfold fetchTask at fetched
    split at fetched <;> cases fetched <;> cases succeeded
  | ok row =>
    have stored : repo.lookup id = some row := by
      unfold fetchTask getByID at fetched
      cases fetching with
      | some err => cases fetched
      | none =>
        cases found : repo.lookup id with
        | none =>
          rw [found] at fetched
          cases fetched
        | some row =>
          rw [found] at fetched
          cases fetched
          rfl
    rw [fetched] at succeeded
    dsimp only [retryTask, incrementRetry] at succeeded ⊢
    cases failure with
    | some err => cases succeeded
    | none =>
      simp only [stored] at succeeded ⊢
      split_ifs at succeeded ⊢
      cases succeeded
      exact ⟨row, rfl, rfl⟩

theorem mem_listPending (room : (order repo).entries.length ≤ limit) :
    ∃ listed, repo.listPending none columns order now limit = .ok listed ∧
      ∀ row, ⟨id, row⟩ ∈ listed ↔
        repo.lookup id = some row ∧ row.Status = .pending ∧ Due columns now id := by
  refine ⟨_, rfl, fun row => ?_⟩
  rw [List.take_of_length_le]
  · simp [List.mem_mergeSort, GoMap.Ranging.mem_entries, Due, Time.after, Option.all_eq_true]
  · rw [List.length_mergeSort]
    exact (List.length_filter_le _ _).trans room

theorem retried_task_stored
    (succeeded : (retryTaskAlone failure repo id fetching now).2 = .success task) :
    let stored := (retryTaskAlone failure repo id fetching now).1
    ∃ row, stored.lookup id = some row ∧ row.RetryCount = task.RetryCount + 1 ∧
      task.Status = .pending ∧ (row.Status = task.Status ↔ task.RetryCount + 1 < task.MaxRetries) ∧
      ∀ columns order later limit, (order stored).entries.length ≤ limit →
        ∃ listed, stored.listPending none columns order later limit = .ok listed ∧
          (⟨id, row⟩ ∈ listed ↔
            task.RetryCount + 1 < task.MaxRetries ∧ Due columns later id) := by
  obtain ⟨row, rfl, stored⟩ := retryTaskAlone_success succeeded
  have found : (repo.insert id (withRetry row "manual retry" now)).lookup id =
      some (withRetry row "manual retry" now) := Finmap.lookup_insert repo
  have status : (withRetry row "manual retry" now).Status = .pending ↔
      row.RetryCount + 1 < row.MaxRetries := by
    dsimp only [withRetry]
    split_ifs with exhausted
    · simpa using exhausted
    · simpa using exhausted
  rw [stored]
  refine ⟨_, found, rfl, rfl, status, fun columns order later limit room => ?_⟩
  obtain ⟨listed, listing, members⟩ := mem_listPending room
  refine ⟨listed, listing, (members _).trans ?_⟩
  rw [status]
  exact and_iff_right found

def failedTask (retries : Int) : TaskExecution where
  Status := .failed
  RetryCount := retries
  UpdatedAt := Time.zero

theorem retried_task_stored_sample :
    let stored := (retryTaskAlone none (Finmap.singleton "t" (failedTask 1)) "t" none Time.zero).1
    ∃ row, stored.lookup "t" = some row ∧ row.RetryCount = 1 + 1 :=
  have succeeded :
      (retryTaskAlone none (Finmap.singleton "t" (failedTask 1)) "t" none Time.zero).2 =
        .success { failedTask 1 with Status := .pending } := rfl
  have ⟨row, found, counted, _⟩ := retried_task_stored succeeded
  ⟨row, found, counted⟩

theorem last_retry_fails :
    let (stored, response) :=
      retryTaskAlone none (Finmap.singleton "t" (failedTask 2)) "t" none Time.zero
    response = .success { failedTask 2 with Status := .pending } ∧
      (stored.lookup "t").map (fun row => (row.Status, row.RetryCount)) = some (.failed, 3) :=
  ⟨rfl, rfl⟩

end NexusPipe.Proof.Api.Handlers.Retry
