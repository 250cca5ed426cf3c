import NexusPipe.Cmd.Worker

namespace NexusPipe.Proof.Cmd
open Library NexusPipe.Cmd.Worker NexusPipe.Queue Message

def CanRedeliver (m : Message) : Prop :=
  ∃ actions t, (∀ a ∈ actions, ∀ handlers settleErr, a ≠ .process handlers settleErr) ∧
    runSchedule Message.step m actions = some t ∧ m.deliveries < t.deliveries

def FailureFits (m : Message) (a : Action) : Prop :=
  ∀ handlers settleErr msg, a = .process handlers settleErr → m.place = .delivered msg →
    handleDelivery handlers msg ≠ none → ∀ t, m.step a = some t →
      (m.deliveries = 1 → CanRedeliver t) ∧ (1 < m.deliveries → t.place = .rejected)

/-- The handler succeeds, or it fails on the first delivery and the message cannot be settled. -/
def Careful (m : Message) (a : Action) : Prop :=
  ∀ handlers settleErr msg, a = .process handlers settleErr → m.place = .delivered msg →
    handleDelivery handlers msg = none ∨ m.deliveries = 1 ∧ settleErr ≠ none

def Flagged (m : Message) : Prop :=
  match m.place with
  | .ready redelivered => redelivered = false ↔ m.deliveries = 0
  | .delivered msg => 1 ≤ m.deliveries ∧ (msg.Redelivered = false ↔ m.deliveries = 1)
  | _ => 1 ≤ m.deliveries

variable {m : Message}

theorem flagged_step (flagged : Flagged m) (stepped : m.step a = some t) : Flagged t := by
  cases a with
  | deliver tag =>
    cases place : m.place with
    | ready redelivered =>
      simp only [step, place] at stepped
      cases stepped
      simp only [Flagged, place] at flagged ⊢
      simp [flagged]
    | _ => simp [step, place] at stepped
  | process handlers settleErr =>
    cases place : m.place with
    | delivered msg =>
      simp only [step, place] at stepped
      cases stepped
      simp only [Flagged, place] at flagged
      split
      · rcases processMessage handlers msg with _ | _ | _
        · exact flagged.1
        · exact flagged.1
        · exact iff_of_false (by simp) (by simp [settle]; omega)
      · exact flagged.1
    | _ => simp [step, place] at stepped
  | channelClosed =>
    have once : 1 ≤ m.deliveries ∧ t = { m with place := .ready true } := by
      cases place : m.place <;> simp_all [step, Flagged]
    rw [once.2]
    exact iff_of_false (by simp) (by have := once.1; simp; omega)

theorem canRedeliver_iff : CanRedeliver m ↔ m.place ≠ .acked ∧ m.place ≠ .rejected := by
  constructor
  · rintro ⟨actions, t, -, ran, more⟩
    cases actions with
    | nil =>
      cases ran
      omega
    | cons a actions =>
      obtain ⟨middle, stepped, -⟩ := runSchedule_cons.mp ran
      refine ⟨fun gone => ?_, fun gone => ?_⟩ <;> cases a <;> simp [step, gone] at stepped
  · rintro ⟨unacked, kept⟩
    cases place : m.place with
    | ready redelivered =>
      exact ⟨[.deliver 0], _, by simp, by simp [runSchedule, step, place]; rfl, by simp⟩
    | delivered | unsettled =>
      exact ⟨[.channelClosed, .deliver 0], _, by simp,
        by simp [runSchedule, step, place]; rfl, by simp⟩
    | acked => exact absurd place unacked
    | rejected => exact absurd place kept

theorem failureFits_iff (flagged : Flagged m) : FailureFits m a ↔ Careful m a := by
  -- the request to requeue is the wrong way round: the first failure rejects the message, and every
  -- later one puts it back
  refine forall₅_congr fun handlers settleErr msg same place => ?_
  subst same
  cases failed : handleDelivery handlers msg with
  | none => simp
  | some err =>
    simp only [Flagged, place] at flagged
    simp only [step, place, Option.some.injEq, forall_eq', processMessage, failed, canRedeliver_iff]
    cases again : msg.Redelivered with
    | false =>
      have first : m.deliveries = 1 := flagged.2.mp again
      cases settleErr <;> simp [settle, first]
    | true =>
      have later : 1 < m.deliveries := by
        have := flagged.2.not.mp (by simp [again])
        omega
      cases settleErr <;> simp [settle, later, later.ne']

theorem failures_fit_iff_careful {key : String} {body : List UInt8} {actions : List Action} :
    Along Message.step FailureFits { RoutingKey := key, Body := body } actions ↔
      Along Message.step Careful { RoutingKey := key, Body := body } actions := by
  have start : Flagged { RoutingKey := key, Body := body } := by simp [Flagged]
  exact along_congr_of_invariant Flagged (fun _ _ _ flagged stepped => flagged_step flagged stepped)
    (fun _ _ flagged => failureFits_iff flagged) start

def AlwaysFails (handlers : Handlers) (m : Message) : Prop :=
  ∀ msg : Delivery, msg.RoutingKey = m.RoutingKey → msg.Body = m.Body →
    handleDelivery handlers msg ≠ none

theorem requeued_again {handlers : Handlers} (ready : m.place = .ready true)
    (fails : AlwaysFails handlers m) :
    runSchedule step m [.deliver 0, .process handlers none] =
      some { m with deliveries := m.deliveries + 1, requeues := m.requeues + 1 } := by
  have failed : ∀ msg : Delivery, msg.RoutingKey = m.RoutingKey → msg.Body = m.Body →
      processMessage handlers msg = .nack msg.Redelivered := by
    intro msg key body
    obtain ⟨err, failed⟩ := Option.ne_none_iff_exists'.mp (fails msg key body)
    simp only [processMessage, failed]
  simp [runSchedule, step, ready, failed, settle]

theorem requeues_unbounded {handlers : Handlers} (ready : m.place = .ready true)
    (fails : AlwaysFails handlers m) (n : Nat) :
    ∃ actions t, runSchedule step m actions = some t ∧ t.requeues = m.requeues + n := by
  induction n generalizing m with
  | zero => exact ⟨[], m, rfl, rfl⟩
  | succ n ih =>
    obtain ⟨actions, t, ran, count⟩ :=
      ih (m := { m with deliveries := m.deliveries + 1, requeues := m.requeues + 1 }) ready fails
    refine ⟨[.deliver 0, .process handlers none] ++ actions, t,
      runSchedule_append (requeued_again ready fails) ran, ?_⟩
    rw [count]
    dsimp only
    omega

theorem unknown_key_dropped_or_requeued :
    let m : Message := { RoutingKey := "pipeline.cancel", Body := [] }
    (∃ t, runSchedule Message.step m [.deliver 1, .process handlers none] = some t ∧
      t.deliveries = 1 ∧ ¬ CanRedeliver t) ∧
    ∀ n, ∃ actions t, runSchedule Message.step m actions = some t ∧ t.requeues = n := by
  intro m
  refine ⟨⟨{ m with place := .rejected, deliveries := 1 }, rfl, rfl, ?_⟩, fun n => ?_⟩
  · simp [canRedeliver_iff]
  · have fails : AlwaysFails handlers { m with place := .ready true, deliveries := 1 } := by
      intro msg key _
      simp [handleDelivery, key, m]
    obtain ⟨actions, t, ran, count⟩ := requeues_unbounded rfl fails n
    refine ⟨[.deliver 1, .channelClosed] ++ actions, t, runSchedule_append ?_ ran, ?_⟩
    · rfl
    · simpa [m] using count

end NexusPipe.Proof.Cmd
