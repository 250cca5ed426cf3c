import NexusPipe.Api.Handlers.Task
import NexusPipe.Proof.Worker.Retry

namespace NexusPipe.Proof.Api.Handlers
open Library Models NexusPipe.Repository NexusPipe.Queue NexusPipe.Worker NexusPipe.Api.Handlers
open Option
open Proof.Worker

inductive TaskWrite
  | setStatus (status : TaskStatus)
  | countRetry
  deriving DecidableEq

def TaskWrite.status (row : TaskExecution) : TaskWrite → TaskStatus
  | .setStatus status => status
  | .countRetry => if row.RetryCount + 1 ≥ row.MaxRetries then .failed else .pending

structure Statement where
  failure : Option Text
  id : String
  write : TaskWrite

def Statement.Executes (statement : Statement) (row : TaskExecution) : Prop :=
  statement.failure = none ∧ (statement.write = .countRetry → row.RetryCount + 1 < 2 ^ 31)

inductive Wrote (repo : TaskRepository) (issued : Option Statement) : TaskRepository → Prop
  | nothing (idle : ∀ statement ∈ issued, ∀ row ∈ repo.lookup statement.id,
      ¬ statement.Executes row) : Wrote repo issued repo
  | row {statement : Statement} {row row' : TaskExecution} (made : issued = some statement)
      (stored : repo.lookup statement.id = some row) (executes : statement.Executes row)
      (status : row'.Status = statement.write.status row) :
      Wrote repo issued (repo.insert statement.id row')

section
variable (failure : Option Text) (id : String) (now : Time)

theorem wrote_updateStatus (status : TaskStatus) (msg : String) :
    Wrote repo (some ⟨failure, id, .setStatus status⟩)
      (keepOnError repo (repo.updateStatus failure id status msg now)) := by
  unfold TaskRepository.updateStatus
  cases failure with
  | some err => exact .nothing (by simp [Statement.Executes])
  | none =>
    cases stored : repo.lookup id with
    | none => exact .nothing (by simp [stored])
    | some row =>
      refine .row rfl stored ⟨rfl, by simp⟩ ?_
      unfold TaskRepository.withStatus
      split_ifs <;> rfl

theorem wrote_incrementRetry (errMsg : String) : Wrote repo (some ⟨failure, id, .countRetry⟩)
      (keepOnError repo (repo.incrementRetry failure id errMsg now)) := by
  unfold TaskRepository.incrementRetry
  cases failure with
  | some err => exact .nothing (by simp [Statement.Executes])
  | none =>
    cases stored : repo.lookup id with
    | none => exact .nothing (by simp [stored])
    | some row =>
      simp only
      split_ifs with full
      · refine .nothing ?_
        rintro statement ⟨⟩ row' found ⟨-, room⟩
        obtain rfl := mem_unique stored found
        exact Int.not_le.mpr (room rfl) full
      · exact .row rfl stored ⟨rfl, fun _ => Int.not_le.mp full⟩ rfl

end

def taskOf (host : HandlerHost) (msg : Delivery) : Option String :=
  (envelopeFromDelivery host.toJsonHost msg).toOption.bind fun env =>
    (host.decodeTask (env.Payload.getD [])).toOption

def exitWrite : Exit → Option TaskWrite
  | .succeeded _ => some (.setStatus .completed)
  | .retried => some .countRetry
  | .failed _ => some (.setStatus .failed)
  | .undecodable | .timedOut _ => none

def operationWrite : TaskOperation → TaskWrite
  | .retry => .countRetry
  | .cancel => .setStatus .cancelled

section
variable {R : Type} (host : HandlerHost)

def issued (s : TaskSystem R) : TaskAction R → Option Statement
  | .fetch _ _ _ _ => none
  | .finish r failure _ =>
    (s.requests r).map fun request => ⟨failure, request.id, operationWrite request.operation⟩
  | .deliver cfg call msg =>
    (taskOf host msg).bind fun id =>
      (exitWrite (exitOf cfg host call msg)).map fun write => ⟨call.repoErr, id, write⟩

variable {host} in
theorem taskOf_eq {msg : Delivery} {env : Envelope} {id : String}
    (decoded : envelopeFromDelivery host.toJsonHost msg = .ok env)
    (task : host.decodeTask (env.Payload.getD []) = .ok id) : taskOf host msg = some id := by
  simp [taskOf, decoded, task, Except.toOption]

theorem wrote_handleDelivery (cfg : HandlerConfig) (call : DeliveryCall) (repo : TaskRepository)
    (msg : Delivery) : Wrote repo ((taskOf host msg).bind fun id =>
        (exitWrite (exitOf cfg host call msg)).map fun write => ⟨call.repoErr, id, write⟩)
      (handleDelivery cfg host call repo msg).repo := by
  have handles := handleDelivery_handles cfg host call repo msg
  generalize exitOf cfg host call msg = exit at handles
  generalize handleDelivery cfg host call repo msg = run at handles
  cases handles with
  | undecodable err =>
    have untouched : (handleDeserializeError cfg host call repo msg err).repo = repo := by
      unfold handleDeserializeError
      split <;> rfl
    rw [untouched]
    exact .nothing (by simp [exitWrite])
  | @timedOut env decoded =>
    have untouched : (handleTimeout cfg host call repo env).repo = repo := by
      unfold handleTimeout
      split <;> rfl
    rw [untouched]
    exact .nothing (by simp [exitWrite])
  | @succeeded env id result task decoded =>
    have updates : ((handleSuccess cfg call repo id).after [.processed env]).repo =
        keepOnError repo (repo.updateStatus call.repoErr id .completed "" call.now) := by
      simp only [handleSuccess, HandlerRun.after]
      split <;> rfl
    rw [updates, taskOf_eq decoded task]
    exact wrote_updateStatus call.repoErr id call.now .completed ""
  | @retried env id errMsg decoded task =>
    have updates : ((handleRetry cfg host call repo env id errMsg).after [.processed env]).repo =
        keepOnError repo (repo.incrementRetry call.repoErr id errMsg call.now) := by
      simp only [handleRetry, HandlerRun.after]
      split <;> rfl
    rw [updates, taskOf_eq decoded task]
    exact wrote_incrementRetry call.repoErr id call.now errMsg
  | @failed env id errMsg decoded task =>
    rw [HandlerRun.after, routeToDLQ_repo, taskOf_eq decoded task]
    exact wrote_updateStatus call.repoErr id call.now .failed errMsg

theorem wrote_finish (failure : Option Text) (repo : TaskRepository) (now : Time)
    (request : TaskRequest) :
    Wrote repo (some ⟨failure, request.id, operationWrite request.operation⟩)
      (request.finish failure repo now).1 := by
  obtain ⟨operation, id, task⟩ := request
  cases operation with
  | retry =>
    have writes : Wrote repo _ _ := wrote_incrementRetry failure id now "manual retry"
    simp only [TaskRequest.finish, retryTask]
    generalize repo.incrementRetry failure id "manual retry" now = result at writes
    cases result <;> exact writes
  | cancel =>
    have writes : Wrote repo _ _ :=
      wrote_updateStatus failure id now .cancelled "cancelled by user"
    simp only [TaskRequest.finish, cancelTask]
    generalize repo.updateStatus failure id .cancelled "cancelled by user" now = result at writes
    cases result <;> exact writes

variable [DecidableEq R] {host}

theorem step_wrote {s : TaskSystem R} (next : s.step host action = some s') :
    Wrote s.repo (issued host s action) s'.repo := by
  cases action with
  | fetch r operation failure id =>
    simp only [TaskSystem.step] at next
    split at next
    · cases next
    · exact some.inj next ▸ .nothing (by simp [issued])
    · exact some.inj next ▸ .nothing (by simp [issued])
  | finish r failure now =>
    obtain ⟨request, held, rfl⟩ := map_eq_some_iff.mp next
    rw [issued, held]
    exact wrote_finish failure s.repo now request
  | deliver cfg call msg =>
    obtain rfl := some.inj next
    exact wrote_handleDelivery host cfg call s.repo msg

theorem step_of_issued {action : TaskAction R} (made : issued host s action = some statement) :
    ∃ s', s.step host action = some s' := by
  cases action with
  | fetch r operation failure id => cases made
  | finish r failure now =>
    obtain ⟨request, held, -⟩ := map_eq_some_iff.mp made
    exact ⟨_, map_eq_some_iff.mpr ⟨request, held, rfl⟩⟩
  | deliver cfg call msg => exact ⟨_, rfl⟩

def Final (status : TaskStatus) : Prop := status = .completed ∨ status = .cancelled

def KeepsFinal (s s' : TaskSystem R) : Prop :=
  ∀ id row, s.repo.lookup id = some row → Final row.Status →
    ∃ row', s'.repo.lookup id = some row' ∧ row'.Status = row.Status

/-- A statement that changes a completed or cancelled task is an `UpdateStatus` to its own status. -/
def LeavesFinal (host : HandlerHost) (s : TaskSystem R) (action : TaskAction R) : Prop :=
  ∀ statement ∈ issued host s action, ∀ row ∈ s.repo.lookup statement.id, Final row.Status →
    statement.Executes row → statement.write = .setStatus row.Status

end

section
variable {R : Type} [DecidableEq R]

theorem status_eq_iff {row : TaskExecution} (final : Final row.Status) (write : TaskWrite) :
    write.status row = row.Status ↔ write = .setStatus row.Status := by
  cases write with
  | setStatus status => simp [TaskWrite.status]
  | countRetry =>
    refine iff_of_false (fun same => ?_) (by simp)
    simp only [TaskWrite.status] at same
    split_ifs at same <;> rw [← same] at final <;> simp [Final] at final

theorem Wrote.keepsFinal_iff {issued : Option Statement} (wrote : Wrote repo issued repo') :
    (∀ id row, repo.lookup id = some row → Final row.Status →
        ∃ row', repo'.lookup id = some row' ∧ row'.Status = row.Status) ↔
      ∀ statement ∈ issued, ∀ row ∈ repo.lookup statement.id, Final row.Status →
        statement.Executes row → statement.write = .setStatus row.Status := by
  cases wrote with
  | nothing idle =>
    refine iff_of_true (fun id row stored _ => ⟨row, stored, rfl⟩) ?_
    exact fun statement made row stored _ executes => absurd executes (idle statement made row stored)
  | @row statement row row' made stored executes status =>
    constructor
    · rintro kept _ made' row₁ stored₁ final -
      obtain rfl := mem_unique made made'
      obtain rfl := mem_unique stored stored₁
      obtain ⟨row₂, stored₂, same⟩ := kept statement.id row stored final
      rw [Finmap.lookup_insert, some.injEq] at stored₂
      rw [← status_eq_iff final, ← status, stored₂, same]
    · intro leaves id row₁ stored₁ final
      rw [GoMap.lookup_insert_eq]
      split_ifs with here
      · subst here
        obtain rfl := mem_unique stored stored₁
        have own := leaves statement made row stored final executes
        exact ⟨row', rfl, by rw [status, own, TaskWrite.status]⟩
      · exact ⟨row₁, stored₁, rfl⟩

theorem keepsFinal_iff_leavesFinal {s : TaskSystem R} (action : TaskAction R) :
    (∀ s', s.step host action = some s' → KeepsFinal s s') ↔ LeavesFinal host s action := by
  cases next : s.step host action with
  | none =>
    refine iff_of_true (by simp) fun statement made => ?_
    obtain ⟨s', taken⟩ := step_of_issued made
    rw [next] at taken
    cases taken
  | some s' =>
    have kept : (∀ s'', some s' = some s'' → KeepsFinal s s'') ↔ KeepsFinal s s' := by simp
    rw [kept]
    exact (step_wrote next).keepsFinal_iff

theorem final_status_kept_iff (host : HandlerHost) (repo : TaskRepository)
    (actions : List (TaskAction R)) :
    (∀ before between after s₁ s₂, actions = before ++ (between ++ after) →
        runSchedule (TaskSystem.step host) { repo := repo } before = some s₁ →
        runSchedule (TaskSystem.step host) s₁ between = some s₂ → KeepsFinal s₁ s₂) ↔
      Along (TaskSystem.step host) (LeavesFinal host) { repo := repo } actions := by
  rw [ordered_iff_along]
  · exact along_congr_of_invariant (fun _ => True) (fun _ _ _ _ _ => trivial)
      (fun s action _ => keepsFinal_iff_leavesFinal action) trivial
  · exact fun s id row stored _ => ⟨row, stored, rfl⟩
  · intro s₁ s₂ s₃ first second id row stored final
    obtain ⟨row₂, stored₂, same₂⟩ := first id row stored final
    obtain ⟨row₃, stored₃, same₃⟩ := second id row₂ stored₂ (same₂ ▸ final)
    exact ⟨row₃, stored₃, same₃.trans same₂⟩

end

def runningTask : TaskExecution := { Status := .running, UpdatedAt := Time.zero }

def cancelThenRetry : List (TaskAction Bool) :=
  [.fetch false .cancel none "t", .fetch true .retry none "t", .finish false none Time.zero,
    .finish true none Time.zero]

theorem late_retry_revives :
    let run := runSchedule (TaskSystem.step sampleHandlerHost)
      { repo := Finmap.singleton "t" runningTask }
    ((run (cancelThenRetry.take 3)).bind (·.repo.lookup "t")).map (·.Status) = some .cancelled ∧
      ((run cancelThenRetry).bind (·.repo.lookup "t")).map (·.Status) = some .pending :=
  ⟨rfl, rfl⟩

end NexusPipe.Proof.Api.Handlers
