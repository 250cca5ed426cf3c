import NexusPipe.Worker.HealthCheck

namespace NexusPipe.Proof.Worker.HealthCheck
open Library NexusPipe.Worker HealthCheck List

variable {s : HealthCheck} {a : CheckAction} {workers : List Nat} {panics : Nat → Nat}

def start (workers : List Nat) (panics : Nat → Nat) : HealthCheck := { workers, panics }

def marked (panics : Nat → Nat) (workers : List Nat) : List Nat :=
  (workers.zipIdx.filter fun entry => 3 < panics entry.1).map (·.2)

theorem marked_concat (panics : Nat → Nat) (workers : List Nat) (w : Nat) :
    marked panics (workers ++ [w]) =
      if panics w > 3 then marked panics workers ++ [workers.length] else marked panics workers := by
  rw [marked, zipIdx_append, filter_append, map_append, ← marked]
  by_cases many : panics w > 3
  · simp [many]
  · simp [many]

theorem marked_eq_nil_iff : marked panics workers = [] ↔ ∀ w ∈ workers, panics w ≤ 3 := by
  induction workers using reverseRecOn with
  | nil => simp [marked]
  | append_singleton workers w ih =>
    rw [marked_concat]
    split_ifs with many
    · refine iff_of_false (by simp) fun few => ?_
      have := few w (by simp)
      omega
    · rw [ih, forall_mem_append, forall_mem_singleton]
      exact (and_iff_left (by omega)).symm

def after (n : Nat) (s : HealthCheck) : Option HealthCheck :=
  runSchedule HealthCheck.step s (List.replicate n .check)

theorem after_succ (before : after n s = some s') (next : s'.check = some s'') :
    after (n + 1) s = some s'' := by
  rw [after, replicate_succ']
  exact runSchedule_append before (runSchedule_cons.mpr ⟨s'', next, rfl⟩)

theorem after_scanning (inside : k ≤ workers.length) :
    after (k + 1) (start workers panics) =
      some { start workers panics with phase := .scanning k (marked panics (workers.take k)) } := by
  induction k with
  | zero => rfl
  | succ k ih =>
    have here : workers[k]? = some workers[k] := getElem?_eq_getElem inside
    refine after_succ (ih (by omega)) ?_
    simp only [check, start, here]
    rw [take_add_one, here, Option.toList_some, marked_concat, length_take_of_le (by omega)]
    rfl

theorem after_scan (workers : List Nat) (panics : Nat → Nat) :
    after (workers.length + 2) (start workers panics) =
      some { start workers panics with phase := .removing (marked panics workers) } := by
  refine after_succ (after_scanning le_rfl) ?_
  simp [check, start]

def Nested (s : HealthCheck) : Prop := s.phase.requests ∧ s.phase.holds

def Doomed (s : HealthCheck) : Prop :=
  match s.phase with
  | .scanning _ indices | .removing indices => indices ≠ []
  | .locking _ _ => True
  | _ => False

theorem doomed_check (doomed : Doomed s) (stepped : s.check = some s') : Doomed s' := by
  unfold Doomed at doomed
  unfold check at stepped
  split at doomed
  · next i indices phase =>
      rw [phase] at stepped
      dsimp only at stepped
      split at stepped
      · cases stepped
        exact doomed
      · cases stepped
        simp only [Doomed]
        split_ifs
        · simp
        · exact doomed
  · next indices phase =>
      rw [phase] at stepped
      cases indices with
      | nil => exact absurd rfl doomed
      | cons idx left =>
        cases stepped
        trivial
  · next index left phase =>
      have held : s.canLock = false := by simp [canLock, phase, CheckPhase.holds]
      rw [phase] at stepped
      simp [held] at stepped
  · exact doomed.elim

theorem doomed_step (doomed : Doomed s) (stepped : s.step a = some s') : Doomed s' := by
  have kept (same : s'.phase = s.phase) : Doomed s' := by
    rw [Doomed, same]
    exact doomed
  cases a with
  | check => exact doomed_check doomed stepped
  | rLock =>
    simp only [step] at stepped
    split at stepped
    · cases stepped
    · split_ifs at stepped
      cases stepped
      exact kept rfl
  | rUnlock | lock | unlock workers =>
    simp only [step] at stepped
    split_ifs at stepped
    cases stepped
    exact kept rfl
  | panicked worker =>
    cases stepped
    exact kept rfl

theorem Doomed.not_returned (doomed : Doomed s) : s.phase ≠ .returned := by
  intro returned
  rw [Doomed, returned] at doomed
  exact doomed

theorem doomed_run (doomed : Doomed s) (run : runSchedule step s actions = some s') :
    s'.phase ≠ .returned := by
  have still : Doomed s' :=
    runSchedule_invariant Doomed (fun _ _ _ before stepped => doomed_step before stepped) run doomed
  exact still.not_returned

theorem not_returned_of_doomed (run : after m s = some reached) (doomed : Doomed reached)
    (run' : after n s = some s') : s'.phase ≠ .returned := by
  rcases Nat.le_total m n with fewer | more
  · obtain ⟨k, rfl⟩ := Nat.exists_eq_add_of_le fewer
    rw [after, replicate_add] at run'
    exact doomed_run doomed (runSchedule_rest run' run)
  · obtain ⟨k, rfl⟩ := Nat.exists_eq_add_of_le more
    rw [after, replicate_add] at run
    have rest := runSchedule_rest run run'
    intro returned
    cases k with
    | zero =>
      obtain rfl := Option.some.inj rest
      exact doomed.not_returned returned
    | succ k =>
      obtain ⟨next, stepped, -⟩ := runSchedule_cons.mp rest
      simp [step, check, returned] at stepped

structure Harmless (workers : List Nat) (s : HealthCheck) : Prop where
  workers_eq : s.workers = workers
  few : ∀ w ∈ workers, s.panics w ≤ 3
  phase : s.phase = .called ∨ (∃ i, s.phase = .scanning i []) ∨ s.phase = .removing [] ∨
    s.phase = .returned

theorem Harmless.check (harmless : Harmless workers s) (stepped : s.check = some s') :
    Harmless workers s' := by
  obtain ⟨same, few, phase⟩ := harmless
  unfold HealthCheck.check at stepped
  rcases phase with phase | ⟨i, phase⟩ | phase | phase
  · simp only [phase] at stepped
    split_ifs at stepped
    cases stepped
    exact ⟨same, few, .inr (.inl ⟨0, rfl⟩)⟩
  · simp only [phase] at stepped
    split at stepped
    · cases stepped
      exact ⟨same, few, .inr (.inr (.inl rfl))⟩
    · next w found =>
        have unmarked : ¬ s.panics w > 3 := by
          have := few w (same ▸ mem_of_getElem? found)
          omega
        rw [if_neg unmarked] at stepped
        cases stepped
        exact ⟨same, few, .inr (.inl ⟨i + 1, rfl⟩)⟩
  · simp only [phase] at stepped
    cases stepped
    exact ⟨same, few, .inr (.inr (.inr rfl))⟩
  · simp [phase] at stepped

theorem Harmless.not_nested (harmless : Harmless workers s) : ¬ Nested s := by
  rcases harmless.phase with phase | ⟨i, phase⟩ | phase | phase
  all_goals simp [Nested, phase, CheckPhase.requests, CheckPhase.holds]

theorem harmless_after (few : ∀ w ∈ workers, panics w ≤ 3)
    (run : after n (start workers panics) = some s) : Harmless workers s := by
  refine runSchedule_invariant_along (fun _ a => a = .check) (Harmless workers) ?_ run ?_
    ⟨rfl, few, .inl rfl⟩
  · rintro s a s' before rfl stepped
    exact before.check stepped
  · exact along_of_forall (fun a member _ => eq_of_mem_replicate member) _

theorem check_correct_iff (workers : List Nat) (panics : Nat → Nat) :
    ((∃ n s, after n (start workers panics) = some s ∧ s.phase = .returned ∧
        s.workers = workers.filter (panics · ≤ 3)) ∧
      ∀ n s, after n (start workers panics) = some s → ¬ Nested s) ↔
      ∀ w ∈ workers, panics w ≤ 3 := by
  constructor
  · rintro ⟨-, unnested⟩
    by_contra many
    have some_marked : marked panics workers ≠ [] := marked_eq_nil_iff.not.mpr many
    obtain ⟨idx, left, split⟩ := exists_cons_of_ne_nil some_marked
    have scanned := after_scan workers panics
    rw [split] at scanned
    exact unnested _ _ (after_succ scanned rfl) ⟨rfl, rfl⟩
  · intro few
    refine ⟨⟨workers.length + 3, { start workers panics with phase := .returned }, ?_, rfl, ?_⟩, ?_⟩
    · have scanned := after_scan workers panics
      rw [marked_eq_nil_iff.mpr few] at scanned
      exact after_succ scanned rfl
    · exact (filter_eq_self.mpr fun w member => decide_eq_true (few w member)).symm
    · exact fun n s run => (harmless_after few run).not_nested

theorem four_panics_deadlock :
    (∃ s, after 5 (start [0, 1] fun w => if w = 1 then 4 else 0) = some s ∧ Nested s ∧
      s.workers = [0, 1]) ∧
    ∀ actions s, runSchedule HealthCheck.step (start [0, 1] fun w => if w = 1 then 4 else 0)
      (List.replicate 5 .check ++ actions) = some s → s.phase ≠ .returned := by
  have reached : after 5 (start [0, 1] fun w => if w = 1 then 4 else 0) =
    some { start [0, 1] fun w => if w = 1 then 4 else 0 with phase := .locking 1 [] } := rfl
  refine ⟨⟨_, reached, ⟨rfl, rfl⟩, rfl⟩, fun actions s run => ?_⟩
  exact doomed_run (by trivial) (runSchedule_rest run reached)

variable {wp : WorkerPool}

end NexusPipe.Proof.Worker.HealthCheck
