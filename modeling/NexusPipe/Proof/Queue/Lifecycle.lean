import NexusPipe.Queue.Lifecycle
import NexusPipe.Queue.RabbitMQ

namespace NexusPipe.Proof.Queue
open NexusPipe.Queue Library

variable {s s' : Lifecycle} {pc : LifecyclePc}

inductive Toggles (s s' : Lifecycle) : LifecyclePc → Prop
  | start (idle : s.running = false) (on : s'.running = true)
      (noted : s'.history = .started :: s.history) : Toggles s s' .lockStart
  | stop (off : s'.running = false) (noted : s'.history = .stopped :: s.history) :
      Toggles s s' .lockStopped
  | keep {pc : LifecyclePc} (other : pc ≠ .lockStopped) (same : s'.running = s.running)
      (history : s'.history = s.history) : Toggles s s' pc

theorem access_running (taken : s.access answer pc = some (pc', s')) :
    Toggles s s' pc ∧ s'.calls = s.calls := by
  unfold Lifecycle.access at taken
  cases pc with
  | lockStart =>
    simp only at taken
    split_ifs at taken with on
    · cases taken
      exact ⟨.keep (by simp) rfl rfl, rfl⟩
    · cases taken
      exact ⟨.start (by simpa using on) rfl rfl, rfl⟩
  | lockStopped =>
    cases taken
    exact ⟨.stop rfl rfl, rfl⟩
  | acquireChannel ctx | qos ctx ch | consume ctx ch =>
    cases answer <;> cases taken <;> exact ⟨.keep (by simp) rfl rfl, rfl⟩
  | lockCancel =>
    simp only at taken
    split_ifs at taken <;> cases taken <;> exact ⟨.keep (by simp) rfl rfl, rfl⟩
  | cancel =>
    cases taken
    unfold Lifecycle.cancelContext
    split <;> exact ⟨.keep (by simp) rfl rfl, rfl⟩
  | wait =>
    cases answer with
    | error err =>
      cases taken
      exact ⟨.keep (by simp) rfl rfl, rfl⟩
    | ok ch =>
      simp only at taken
      split_ifs at taken
      cases taken
      exact ⟨.keep (by simp) rfl rfl, rfl⟩
  | returned err => cases taken

theorem step_call (stepped : s.step (.step call answer) = some s') :
    ∃ pc pc' taken, s.calls[call]? = some pc ∧ s.access answer pc = some (pc', taken) ∧
      s' = { taken with calls := s.calls.set call pc' } := by
  simp only [Lifecycle.step] at stepped
  cases here : s.calls[call]? with
  | none =>
    rw [here] at stepped
    cases stepped
  | some pc =>
    rw [here] at stepped
    obtain ⟨⟨pc', taken⟩, accessed, rfl⟩ := Option.map_eq_some_iff.mp stepped
    exact ⟨pc, pc', taken, rfl, accessed, by rw [(access_running accessed).2]⟩

def Tracks (s : Lifecycle) : Prop := s.running = true ↔ s.history.head? = some .started

theorem Toggles.tracks (toggles : Toggles s s' pc) (tracks : Tracks s) : Tracks s' := by
  unfold Tracks at tracks ⊢
  cases toggles with
  | start idle on noted => simp [on, noted]
  | stop off noted => simp [off, noted]
  | keep _ same history => rwa [same, history]

theorem Tracks.step (tracks : Tracks s) (stepped : s.step action = some s') : Tracks s' := by
  cases action with
  | step call answer =>
    obtain ⟨pc, pc', taken, -, accessed, rfl⟩ := step_call stepped
    exact (access_running accessed).1.tracks tracks
  | releaseHeld holder =>
    simp only [Lifecycle.step] at stepped
    split at stepped
    · cases stepped
    · split_ifs at stepped
      cases stepped
      exact tracks
  | _ =>
    cases stepped
    exact tracks

theorem run_tracks (run : runSchedule Lifecycle.step (newLifecycle concurrency) schedule = some s) :
    Tracks s :=
  runSchedule_invariant Tracks (fun _ _ _ tracks stepped => tracks.step stepped) run
    (by simp [Tracks, newLifecycle])

def asks : LifecyclePc → Bool
  | .acquireChannel _ | .qos _ _ | .consume _ _ => true
  | _ => false

def startWith (s : Lifecycle) (ch : Nat) : List LifecycleAction :=
  .start :: List.replicate 4 (.step s.calls.length (.ok ch))

def Restartable (s : Lifecycle) : Prop :=
  s.isRunning = false ∧ ∀ ch, ∃ s', runSchedule Lifecycle.step s (startWith s ch) = some s' ∧
    s'.calls[s.calls.length]? = some (.returned none)

theorem step_append {taken : Lifecycle} (here : s.calls = calls ++ [pc])
    (accessed : s.access answer pc = some (pc', taken)) :
    s.step (.step calls.length answer) = some { taken with calls := calls ++ [pc'] } := by
  have own : s.calls[calls.length]? = some pc := by
    rw [here]
    simp
  have set : taken.calls.set calls.length pc' = calls ++ [pc'] := by
    rw [(access_running accessed).2, here]
    simp
  simp only [Lifecycle.step, own, accessed, Option.map_some, set]

theorem restartable_iff : Restartable s ↔ s.running = false := by
  constructor
  · exact fun restartable => restartable.1
  · intro idle
    refine ⟨idle, fun ch => ?_⟩
    have locked : (⟨s.Concurrency, s.running, s.cancel, s.contexts, s.workers, s.holders, s.released,
        s.calls ++ [.lockStart], s.history⟩ : Lifecycle).access (.ok ch) .lockStart = some
          (.acquireChannel s.contexts.length, ⟨s.Concurrency, true, some s.contexts.length,
            s.contexts ++ [false], s.workers, s.holders, s.released, s.calls ++ [.lockStart],
            .started :: s.history⟩) := by
      simp [Lifecycle.access, idle]
    refine ⟨_, runSchedule_cons.mpr ⟨_, rfl, runSchedule_cons.mpr ⟨_, step_append rfl locked,
      runSchedule_cons.mpr ⟨_, step_append rfl rfl, runSchedule_cons.mpr ⟨_, step_append rfl rfl,
        runSchedule_cons.mpr ⟨_, step_append rfl rfl, rfl⟩⟩⟩⟩⟩, ?_⟩
    simp

theorem failed_start_restartable_iff (concurrency : Int) (schedule : List LifecycleAction)
    (s s' : Lifecycle) (call : Nat) (pc : LifecyclePc) (err : Text)
    (run : runSchedule Lifecycle.step (newLifecycle concurrency) schedule = some s)
    (here : s.calls[call]? = some pc) (inside : asks pc = true)
    (failed : s.step (.step call (.error err)) = some s') :
    (∃ text, s'.calls[call]? = some (.returned (some text))) ∧
      (Restartable s' ↔ s.history.head? ≠ some .started) := by
  have tracks := run_tracks run
  obtain ⟨pc₁, pc', taken, here', accessed, rfl⟩ := step_call failed
  cases here.symm.trans here'
  have own : (s.calls.set call pc')[call]? = some pc' :=
    List.getElem?_set_self (List.getElem?_eq_some_iff.mp here).1
  have kept : taken.running = s.running := by
    cases (access_running accessed).1 with
    | start | stop => cases inside
    | keep _ same _ => exact same
  constructor
  · cases pc with
    | acquireChannel ctx | qos ctx ch | consume ctx ch =>
      cases accessed
      exact ⟨_, own⟩
    | _ => cases inside
  · unfold Tracks at tracks
    rw [restartable_iff, Ne, ← tracks, Bool.not_eq_true]
    exact Eq.congr_left kept

def refusedStart : List LifecycleAction :=
  [.start, .step 0 (.ok 0), .step 0 (.error errConnectionClosed), .start, .step 1 (.ok 0)]

theorem refusedStart_blocks : (runSchedule Lifecycle.step (newLifecycle 1) refusedStart).map
      (fun s => (s.isRunning, s.calls)) = some (true,
    [.returned (some (sprintf "acquire channel: %w" [errConnectionClosed])),
      .returned (some (.str "consumer already running"))]) := by
  decide +kernel

def overtakenStart : List LifecycleAction :=
  [.start, .step 0 (.ok 0), .cancel, .step 1 (.ok 0), .step 1 (.ok 0), .step 1 (.ok 0),
    .step 1 (.ok 0)]

theorem overtakenStart_restartable : ∃ s s',
    runSchedule Lifecycle.step (newLifecycle 1) overtakenStart = some s ∧
      s.step (.step 0 (.error errConnectionClosed)) = some s' ∧ Restartable s' := by
  obtain ⟨s, run, here, last, returns⟩ : ∃ s,
      runSchedule Lifecycle.step (newLifecycle 1) overtakenStart = some s ∧
      s.calls[0]? = some (.acquireChannel 0) ∧ s.history.head? = some .stopped ∧
      (s.step (.step 0 (.error errConnectionClosed))).isSome :=
    exists_reached _ (by decide +kernel) fun _ _ seen => seen
  obtain ⟨s', failed⟩ := Option.isSome_iff_exists.mp returns
  refine ⟨s, s', run, failed, ?_⟩
  apply (failed_start_restartable_iff 1 overtakenStart s s' 0 _ _ run here rfl failed).2.mpr
  rw [last]
  decide

end NexusPipe.Proof.Queue
