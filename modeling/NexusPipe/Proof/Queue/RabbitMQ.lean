import NexusPipe.Queue.RabbitMQ

namespace NexusPipe.Proof.Queue
open Library NexusPipe.Queue Option List

def filling (r : RabbitMQ) : Bool :=
  match r.phase with
  | .opening _ _ | .sending _ _ _ => true
  | _ => false

def atSend (r : RabbitMQ) : Bool :=
  match r.phase with
  | .sending _ _ _ => true
  | _ => false

def Blocked (r : RabbitMQ) : Prop := atSend r ∧ r.size ≤ r.channels.length

instance (r : RabbitMQ) : Decidable (Blocked r) := inferInstanceAs (Decidable (_ ∧ _))

def isRefill : RabbitAction → Bool
  | .openPooled _ | .send | .finish => true
  | _ => false

def stillToSend (r : RabbitMQ) : Nat :=
  match r.phase with
  | .opening _ i => if r.connected then r.size - i else 0
  | .sending _ i _ => if r.connected then r.size - i else 1
  | _ => 0

def Fits (r : RabbitMQ) : Prop := r.channels.length + stillToSend r ≤ r.size

structure WellFormed (r : RabbitMQ) : Prop where
  bounded : r.channels.length ≤ r.size
  opening : ∀ n i, r.phase = .opening n i → i ≤ r.size ∧ r.conn.isSome
  sending : ∀ n i ch, r.phase = .sending n i ch → i < r.size ∧ r.conn.isSome

/-- A dial that succeeds finds the pool empty, and a channel released while the pool is filled
leaves room for the sends that are still to come. -/
def Careful (r : RabbitMQ) : RabbitAction → Prop
  | .dial none => r.channels = []
  | .release (some _) => stillToSend r = 0 ∨ r.channels.length + stillToSend r < r.size
  | _ => True

instance (r : RabbitMQ) (a : RabbitAction) : Decidable (Careful r a) := by
  unfold Careful
  split <;> infer_instance

section
variable (r : RabbitMQ)

def view : Config × ConnectPhase × List Nat × Option Nat × List Bool :=
  (r.cfg, r.phase, r.channels, r.conn, r.conns)

theorem closeChannel_view (ch : Nat) : view (r.closeChannel ch) = view r := rfl

theorem readConn_view : view r.readConn = view r := by
  unfold RabbitMQ.readConn
  dsimp only
  split
  · rfl
  · split <;> rfl

theorem openOn_view {r : RabbitMQ} (made : r.openOn conn err = .ok (ch, r')) :
    view r' = view r ∧ r.connOpen conn := by
  unfold RabbitMQ.openOn at made
  split at made
  · cases made
  · split_ifs at made with isOpen
    cases made
    exact ⟨rfl, isOpen⟩

theorem openChannel_view (call conn : Nat) (err : Option Text) :
    view (r.openChannel call conn err) = view r := by
  unfold RabbitMQ.openChannel
  dsimp only
  split
  · rfl
  · rename_i made
    exact (openOn_view made).1

theorem size_of_view {r : RabbitMQ} (same : view r' = view r) : r'.size = r.size := by
  simp only [view, Prod.mk.injEq] at same
  rw [RabbitMQ.size, same.1, RabbitMQ.size]

theorem connected_of_view {r : RabbitMQ} (same : view r' = view r) :
    r'.connected = r.connected := by
  simp only [view, Prod.mk.injEq] at same
  unfold RabbitMQ.connected RabbitMQ.connOpen
  rw [same.2.2.2.1, same.2.2.2.2]

theorem fits_of_view {r : RabbitMQ} (same : view r' = view r) : Fits r' ↔ Fits r := by
  have size := size_of_view same
  have alive := connected_of_view same
  simp only [view, Prod.mk.injEq] at same
  simp only [Fits, stillToSend, size, alive, same.2.1, same.2.2.1]

end

variable {a : RabbitAction}

section
variable {r r' : RabbitMQ}

structure Shrinks (r r' : RabbitMQ) : Prop where
  cfg : r'.cfg = r.cfg
  phase : r'.phase = r.phase
  conn : r'.conn = r.conn
  fewer : r'.channels.length ≤ r.channels.length
  alive : r'.connected → r.connected

theorem shrinks_of_view (same : view r' = view r) : Shrinks r r' := by
  have alive := connected_of_view same
  simp only [view, Prod.mk.injEq] at same
  obtain ⟨cfg, phase, channels, conn, -⟩ := same
  exact ⟨cfg, phase, conn, channels ▸ Nat.le_refl _, alive ▸ id⟩

theorem Shrinks.wellFormed (shrinks : Shrinks r r') (valid : WellFormed r) : WellFormed r' := by
  obtain ⟨cfg, phase, conn, fewer, -⟩ := shrinks
  constructor
  · rw [RabbitMQ.size, cfg]
    exact fewer.trans valid.bounded
  · rw [RabbitMQ.size, cfg, phase, conn]
    exact valid.opening
  · rw [RabbitMQ.size, cfg, phase, conn]
    exact valid.sending

theorem Shrinks.fits (shrinks : Shrinks r r') (valid : WellFormed r) (fits : Fits r) : Fits r' := by
  obtain ⟨cfg, phase, -, fewer, alive⟩ := shrinks
  have size : r'.size = r.size := congrArg (·.ChannelPoolSize.toNat) cfg
  simp only [Fits, stillToSend, size, phase] at fits ⊢
  split at fits
  · split_ifs at fits ⊢ <;> grind
  · rename_i n i ch sending
    have below := (valid.sending n i ch sending).1
    split_ifs at fits ⊢ <;> grind
  · omega

theorem stillToSend_settled (settled : filling r = false) : stillToSend r = 0 := by
  cases phase : r.phase with
  | opening | sending => simp [filling, phase] at settled
  | _ => simp only [stillToSend, phase]

theorem fits_settled (bounded : r.channels.length ≤ r.size) (settled : filling r = false) :
    WellFormed r ∧ Fits r := by
  refine ⟨⟨bounded, ?_, ?_⟩, ?_⟩
  · intro n i phase
    simp [filling, phase] at settled
  · intro n i ch phase
    simp [filling, phase] at settled
  · simpa only [Fits, stillToSend_settled settled, Nat.add_zero] using bounded

structure Settles (r r' : RabbitMQ) : Prop where
  settled : filling r' = false
  channels : r'.channels = r.channels
  cfg : r'.cfg = r.cfg

theorem Settles.fits (settles : Settles r r') (bounded : r.channels.length ≤ r.size) :
    WellFormed r' ∧ Fits r' := by
  refine fits_settled ?_ settles.settled
  rw [RabbitMQ.size, settles.cfg, settles.channels]
  exact bounded

theorem settles_attempt (r : RabbitMQ) (n : Nat) : Settles r (r.attempt n) := by
  unfold RabbitMQ.attempt
  split_ifs <;> exact ⟨rfl, rfl, rfl⟩

theorem settles_connectFailed (r : RabbitMQ) (n : Nat) (err : Text) :
    Settles r (r.connectFailed n err) := by
  unfold RabbitMQ.connectFailed
  dsimp only
  split_ifs
  · exact ⟨rfl, rfl, rfl⟩
  · have settles := settles_attempt { r with state := .disconnected } (n + 1)
    exact ⟨settles.settled, settles.channels, settles.cfg⟩

theorem closeConn_frame (r : RabbitMQ) :
    r.closeConn.phase = r.phase ∧ r.closeConn.channels = r.channels ∧ r.closeConn.cfg = r.cfg ∧
      r.closeConn.conn = r.conn ∧ r.closeConn.connected = false := by
  unfold RabbitMQ.closeConn
  split
  · rename_i absent
    simp [RabbitMQ.connected, absent]
  · rename_i conn present
    refine ⟨rfl, rfl, rfl, rfl, ?_⟩
    simp only [RabbitMQ.connected, RabbitMQ.connOpen, present, elim_some, getD_eq_getElem?_getD]
    by_cases known : conn < r.conns.length
    · simp [known]
    · simp [known]

theorem shrinks_acquire (r : RabbitMQ) : Shrinks r r.acquire := by
  unfold RabbitMQ.acquire
  split
  · exact ⟨rfl, rfl, rfl, Nat.le_refl _, id⟩
  · next pooled =>
      split <;> exact ⟨rfl, rfl, rfl, by simp [pooled], id⟩

theorem release_full (full : r.size ≤ r.channels.length) : view (r.release (some ch)) = view r := by
  simp only [RabbitMQ.release, Nat.not_lt.mpr full, if_false]
  exact closeChannel_view r ch

theorem release_room (room : r.channels.length < r.size) :
    r.release (some ch) = { r with channels := r.channels ++ [ch] } := by
  simp only [RabbitMQ.release, room, if_true]

theorem wellFormed_release (valid : WellFormed r) (ch : Option Nat) : WellFormed (r.release ch) := by
  cases ch with
  | none => exact valid
  | some ch =>
    by_cases room : r.channels.length < r.size
    · rw [release_room room]
      refine ⟨?_, valid.opening, valid.sending⟩
      rw [length_append]
      exact room
    · exact (shrinks_of_view (release_full (Nat.not_lt.mp room))).wellFormed valid

theorem fits_release (fits : Fits r) (ch : Nat) :
    Fits (r.release (some ch)) ↔ Careful r (.release (some ch)) := by
  by_cases room : r.channels.length < r.size
  · rw [release_room room]
    change (r.channels ++ [ch]).length + stillToSend r ≤ r.size ↔
      stillToSend r = 0 ∨ r.channels.length + stillToSend r < r.size
    simp only [length_append, length_singleton]
    omega
  · rw [fits_of_view (release_full (Nat.not_lt.mp room))]
    unfold Fits at fits ⊢
    unfold Careful
    omega

theorem shrinks_closeConn (r : RabbitMQ) : Shrinks r r.closeConn := by
  obtain ⟨phase, channels, cfg, conn, dead⟩ := closeConn_frame r
  exact ⟨cfg, phase, conn, channels ▸ Nat.le_refl _, fun alive => absurd alive (by simp [dead])⟩

theorem dial_fits (bounded : r.channels.length ≤ r.size) (n : Nat) :
    WellFormed (r.dial n none) ∧ (Fits (r.dial n none) ↔ r.channels = []) := by
  have alive : (r.dial n none).connected := by
    simp [RabbitMQ.dial, RabbitMQ.connected, RabbitMQ.connOpen]
  have count : stillToSend (r.dial n none) = r.size := by
    change (if (r.dial n none).connected then r.size - 0 else 0) = r.size
    rw [if_pos alive, Nat.sub_zero]
  refine ⟨⟨bounded, ?_, ?_⟩, ?_⟩
  · intro n' i phase
    cases phase
    exact ⟨Nat.zero_le _, rfl⟩
  · intro n' i ch phase
    cases phase
  · rw [Fits, count]
    change r.channels.length + r.size ≤ r.size ↔ r.channels = []
    rw [← length_eq_zero_iff]
    omega

theorem openPooled_cases (valid : WellFormed r) (phase : r.phase = .opening n i) (err : Option Text) :
    (Settles r (r.openPooled n i err) ∧ (err = none → r.connected = false)) ∨
      ∃ ch made, view made = view r ∧ r.connected ∧ r.openPooled n i err =
        { made with phase := .sending n i ch } := by
  -- a round of `initChannelPool` moves on to its send, or ends `connect` with an error
  obtain ⟨conn, present⟩ := isSome_iff_exists.mp (valid.opening n i phase).2
  unfold RabbitMQ.openPooled
  simp only [present]
  cases made : r.openOn conn err with
  | error err =>
    obtain ⟨-, channels, cfg, -⟩ := closeConn_frame r
    have settles := settles_connectFailed r.closeConn n
      (sprintf "channel pool init failed: %w" [sprintf "create channel %d: %w" [.int i, err]])
    refine .inl ⟨⟨settles.settled, settles.channels.trans channels, settles.cfg.trans cfg⟩, ?_⟩
    rintro rfl
    simp only [RabbitMQ.openOn] at made
    split_ifs at made with isOpen
    simpa only [RabbitMQ.connected, present, elim_some, Bool.not_eq_true] using isOpen
  | ok result =>
    obtain ⟨same, isOpen⟩ := openOn_view made
    refine .inr ⟨result.1, result.2, same, ?_, rfl⟩
    simpa only [RabbitMQ.connected, present, elim_some] using isOpen

theorem openPooled_fits (valid : WellFormed r) (phase : r.phase = .opening n i) (below : i < r.size)
    (err : Option Text) :
    WellFormed (r.openPooled n i err) ∧ (Fits r → Fits (r.openPooled n i err)) ∧
      (err = none → Fits (r.openPooled n i err) → Fits r) := by
  rcases openPooled_cases valid phase err with ⟨settles, lost⟩ | ⟨ch, made, same, alive, eq⟩
  · have kept := settles.fits valid.bounded
    refine ⟨kept.1, fun _ => kept.2, ?_⟩
    intro noErr _
    simpa [Fits, stillToSend, phase, lost noErr] using valid.bounded
  · have valid' := (shrinks_of_view same).wellFormed valid
    have size := size_of_view same
    have alive' : made.connected := (connected_of_view same).trans alive
    have channels : made.channels = r.channels := congrArg (·.2.2.1) same
    have conn : made.conn = r.conn := congrArg (·.2.2.2.1) same
    have fits_iff : Fits { made with phase := .sending n i ch } ↔ Fits r := by
      change made.channels.length + (if made.connected then made.size - i else 1) ≤ made.size ↔ _
      simp only [Fits, stillToSend, phase, alive, alive', if_true, channels, size]
    rw [eq]
    refine ⟨⟨valid'.bounded, ?_, ?_⟩, fits_iff.mpr, fun _ => fits_iff.mp⟩
    · intro n' i' phase'
      cases phase'
    · intro n' i' ch' phase'
      cases phase'
      exact ⟨size ▸ below, conn ▸ (valid.opening n i phase).2⟩

theorem send_fits (valid : WellFormed r) (phase : r.phase = .sending n i ch)
    (room : r.channels.length < r.size) :
    WellFormed { r with channels := r.channels ++ [ch], phase := .opening n (i + 1) } ∧
      (Fits r → Fits { r with channels := r.channels ++ [ch], phase := .opening n (i + 1) }) := by
  obtain ⟨below, present⟩ := valid.sending n i ch phase
  refine ⟨⟨?_, ?_, ?_⟩, ?_⟩
  · rw [length_append]
    exact room
  · intro n' i' phase'
    cases phase'
    exact ⟨below, present⟩
  · intro n' i' ch' phase'
    cases phase'
  · intro fits
    change (r.channels ++ [ch]).length + (if r.connected then r.size - (i + 1) else 0) ≤ r.size
    simp only [Fits, stillToSend, phase] at fits
    simp only [length_append, length_singleton]
    split_ifs at fits ⊢ <;> omega

theorem settles_reconnect (r : RabbitMQ) (n : Nat) :
    Settles r { (if r.connected then r.closeConn else r) with
      state := .connecting, phase := .dialling n } := by
  obtain ⟨-, channels, cfg, -⟩ := closeConn_frame r
  split_ifs
  · exact ⟨rfl, channels, cfg⟩
  · exact ⟨rfl, rfl, rfl⟩

theorem spec_of_fits (careful : Careful r a) (kept : WellFormed r' ∧ (Fits r → Fits r')) :
    WellFormed r' ∧ (Fits r → (Fits r' ↔ Careful r a)) :=
  ⟨kept.1, fun fits => iff_of_true (kept.2 fits) careful⟩

theorem spec_of_shrinks (careful : Careful r a) (valid : WellFormed r) (shrinks : Shrinks r r') :
    WellFormed r' ∧ (Fits r → (Fits r' ↔ Careful r a)) :=
  spec_of_fits careful ⟨shrinks.wellFormed valid, shrinks.fits valid⟩

theorem spec_of_settles (careful : Careful r a) (valid : WellFormed r) (settles : Settles r r') :
    WellFormed r' ∧ (Fits r → (Fits r' ↔ Careful r a)) :=
  have kept := settles.fits valid.bounded
  spec_of_fits careful ⟨kept.1, fun _ => kept.2⟩

theorem step_fits (valid : WellFormed r) (stepped : r.step a = some r') :
    WellFormed r' ∧ (Fits r → (Fits r' ↔ Careful r a)) := by
  cases a with
  | acquire =>
    obtain ⟨-, ⟨⟩⟩ := ite_none_right_eq_some.mp stepped
    exact spec_of_shrinks trivial valid (shrinks_acquire r)
  | readConn =>
    obtain ⟨-, ⟨⟩⟩ := ite_none_right_eq_some.mp stepped
    exact spec_of_shrinks trivial valid (shrinks_of_view (readConn_view r))
  | openChannel call err =>
    obtain ⟨conn, -, rfl⟩ := map_eq_some_iff.mp stepped
    exact spec_of_shrinks trivial valid (shrinks_of_view (openChannel_view r call conn err))
  | release ch =>
    obtain ⟨-, ⟨⟩⟩ := ite_none_right_eq_some.mp stepped
    refine ⟨wellFormed_release valid ch, fun fits => ?_⟩
    cases ch with
    | none => exact iff_of_true fits trivial
    | some ch => exact fits_release fits ch
  | breakChannel ch =>
    obtain rfl := some.inj stepped
    exact spec_of_shrinks trivial valid (shrinks_of_view (closeChannel_view r ch))
  | loseConnection =>
    obtain ⟨-, ⟨⟩⟩ := ite_none_right_eq_some.mp stepped
    exact spec_of_shrinks trivial valid (shrinks_closeConn r)
  | notice =>
    simp only [RabbitMQ.step] at stepped
    split at stepped
    · split_ifs at stepped
      obtain rfl := some.inj stepped
      exact spec_of_settles trivial valid (settles_attempt r 1)
    · cases stepped
  | reconnect =>
    simp only [RabbitMQ.step] at stepped
    split at stepped
    · next n phase =>
        obtain rfl := some.inj stepped
        exact spec_of_settles trivial valid (settles_reconnect r n)
    · cases stepped
  | dial err =>
    simp only [RabbitMQ.step] at stepped
    split at stepped
    · next n phase =>
        obtain rfl := some.inj stepped
        cases err with
        | some err => exact spec_of_settles trivial valid (settles_connectFailed r n _)
        | none =>
          have kept := dial_fits valid.bounded n
          exact ⟨kept.1, fun _ => kept.2⟩
    · cases stepped
  | openPooled err =>
    simp only [RabbitMQ.step] at stepped
    split at stepped
    · next n i phase =>
        split_ifs at stepped with below
        obtain rfl := some.inj stepped
        have kept := openPooled_fits valid phase below err
        exact spec_of_fits trivial ⟨kept.1, kept.2.1⟩
    · cases stepped
  | send =>
    simp only [RabbitMQ.step] at stepped
    split at stepped
    · next n i ch phase =>
        split_ifs at stepped with room
        obtain rfl := some.inj stepped
        exact spec_of_fits trivial (send_fits valid phase room)
    · cases stepped
  | finish =>
    simp only [RabbitMQ.step] at stepped
    split at stepped
    · split_ifs at stepped
      obtain rfl := some.inj stepped
      exact spec_of_settles trivial valid ⟨rfl, rfl, rfl⟩
    · cases stepped

end

section
variable {r r' : RabbitMQ} {actions : List RabbitAction}

theorem not_blocked_of_fits (valid : WellFormed r) (fits : Fits r) : ¬ Blocked r := by
  rintro ⟨sending, full⟩
  unfold atSend at sending
  split at sending
  · rename_i n i ch phase
    have below := (valid.sending n i ch phase).1
    simp only [Fits, stillToSend, phase] at fits
    split_ifs at fits <;> omega
  · cases sending

theorem careful_of_isRefill (refill : isRefill a) : Careful r a := by
  cases a <;> trivial

theorem refill_fits (valid : WellFormed r) (fits : Fits r) (refill : ∀ a ∈ actions, isRefill a)
    (run : runSchedule RabbitMQ.step r actions = some r') : WellFormed r' ∧ Fits r' := by
  refine runSchedule_invariant_along (fun _ a => isRefill a) (fun r => WellFormed r ∧ Fits r) ?_ run
    (along_of_forall (fun a member _ => refill a member) r) ⟨valid, fits⟩
  intro s a s' kept allowed stepped
  have spec := step_fits kept.1 stepped
  exact ⟨spec.1, (spec.2 kept.2).mpr (careful_of_isRefill allowed)⟩

def refillRank (r : RabbitMQ) : Nat :=
  match r.phase with
  | .opening _ i => 2 * (r.size - i) + 1
  | .sending _ i _ => 2 * (r.size - i)
  | _ => 0

theorem refillRank_settled (settled : filling r = false) : refillRank r = 0 := by
  cases phase : r.phase with
  | opening | sending => simp [filling, phase] at settled
  | _ => simp only [refillRank, phase]

theorem exists_refill_step (valid : WellFormed r) (busy : filling r) (free : ¬ Blocked r) :
    ∃ a s, isRefill a ∧ r.step a = some s ∧ (Fits s → Fits r) ∧ refillRank s < refillRank r := by
  -- a `connect` that is not blocked has a step of its own, after which there is room only if there
  -- was
  unfold filling at busy
  split at busy
  · rename_i n i phase
    have rank : refillRank r = 2 * (r.size - i) + 1 := by simp only [refillRank, phase]
    by_cases below : i < r.size
    · have kept := openPooled_fits valid phase below none
      refine ⟨.openPooled none, r.openPooled n i none, rfl, ?_, kept.2.2 rfl, ?_⟩
      · simp only [RabbitMQ.step, phase, below, if_true]
      · rcases openPooled_cases valid phase none with ⟨settles, -⟩ | ⟨ch, made, same, -, eq⟩
        · rw [refillRank_settled settles.settled, rank]
          omega
        · rw [eq, rank, ← size_of_view same]
          exact Nat.lt_succ_self _
    · refine ⟨.finish, { r with phase := .watching }, rfl, ?_, ?_, ?_⟩
      · simp only [RabbitMQ.step, phase, below, if_false]
      · intro _
        have bounded := valid.bounded
        simp only [Fits, stillToSend, phase]
        split_ifs <;> omega
      · rw [rank]
        exact Nat.succ_pos _
  · rename_i n i ch phase
    have room : r.channels.length < r.size := by
      by_contra full
      exact free ⟨by simp only [atSend, phase], Nat.not_lt.mp full⟩
    have below := (valid.sending n i ch phase).1
    refine ⟨.send, { r with channels := r.channels ++ [ch], phase := .opening n (i + 1) }, rfl,
      ?_, ?_, ?_⟩
    · simp only [RabbitMQ.step, phase, room, if_true]
    · intro fits
      change (r.channels ++ [ch]).length + (if r.connected then r.size - (i + 1) else 0) ≤ r.size
        at fits
      simp only [length_append, length_singleton] at fits
      simp only [Fits, stillToSend, phase]
      split_ifs at fits ⊢ <;> omega
    · change 2 * (r.size - (i + 1)) + 1 < refillRank r
      simp only [refillRank, phase]
      omega
  · cases busy

theorem filling_of_not_fits (valid : WellFormed r) (short : ¬ Fits r) : filling r := by
  by_contra settled
  exact short (fits_settled valid.bounded (Bool.not_eq_true _ ▸ settled)).2

theorem exists_blocked (valid : WellFormed r) (short : ¬ Fits r) :
    ∃ actions r', (∀ a ∈ actions, isRefill a) ∧ runSchedule RabbitMQ.step r actions = some r' ∧
      Blocked r' := by
  refine exists_run_to_goal (fun a => isRefill a) (fun r => WellFormed r ∧ ¬ Fits r) Blocked
    refillRank ?_ ⟨valid, short⟩
  rintro s ⟨valid, short⟩ free
  obtain ⟨a, s', refill, stepped, back, less⟩ :=
    exists_refill_step valid (filling_of_not_fits valid short) free
  exact ⟨a, s', refill, stepped, ⟨(step_fits valid stepped).1, fun fits => short (back fits)⟩, less⟩

theorem exists_return (valid : WellFormed r) (fits : Fits r) :
    ∃ actions r', (∀ a ∈ actions, isRefill a) ∧ runSchedule RabbitMQ.step r actions = some r' ∧
      filling r' = false := by
  refine exists_run_to_goal (fun a => isRefill a) (fun r => WellFormed r ∧ Fits r)
    (fun r => filling r = false) refillRank ?_ ⟨valid, fits⟩
  rintro s ⟨valid, fits⟩ busy
  obtain ⟨a, s', refill, stepped, -, less⟩ := exists_refill_step valid
    (Bool.not_eq_false _ ▸ busy) (not_blocked_of_fits valid fits)
  have spec := step_fits valid stepped
  exact ⟨a, s', refill, stepped, ⟨spec.1, (spec.2 fits).mpr (careful_of_isRefill refill)⟩, less⟩

/-- Whatever steps `initChannelPool` takes, it is never at a send to a full pool and can go on until
`connect` has returned. -/
def ConnectReturns (r : RabbitMQ) : Prop :=
  ∀ actions r', (∀ a ∈ actions, isRefill a) → runSchedule RabbitMQ.step r actions = some r' →
    ¬ Blocked r' ∧ ∃ more r'', (∀ a ∈ more, isRefill a) ∧
      runSchedule RabbitMQ.step r' more = some r'' ∧ filling r'' = false

theorem connectReturns_iff (valid : WellFormed r) : ConnectReturns r ↔ Fits r := by
  constructor
  · intro returns
    by_contra short
    obtain ⟨actions, r', refill, run, blocked⟩ := exists_blocked valid short
    exact (returns actions r' refill run).1 blocked
  · intro fits actions r' refill run
    obtain ⟨valid', fits'⟩ := refill_fits valid fits refill run
    exact ⟨not_blocked_of_fits valid' fits', exists_return valid' fits'⟩

theorem newRabbitMQ_fits (created : newRabbitMQ cfg = .ok r) : WellFormed r ∧ Fits r := by
  unfold newRabbitMQ at created
  split at created
  · cases created
  · -- whatever the defaults that were filled in
    extract_lets _ _ _ cfg at created
    split at created
    · cases created
    · cases created
      exact fits_settled (Nat.zero_le _) rfl

theorem connect_returns_iff_careful {cfg : Config} (created : newRabbitMQ cfg = .ok r)
    (run : runSchedule RabbitMQ.step r actions = some r') :
    (∀ before after middle, actions = before ++ after →
        runSchedule RabbitMQ.step r before = some middle → ConnectReturns middle) ↔
      Along RabbitMQ.step Careful r actions := by
  obtain ⟨valid, fits⟩ := newRabbitMQ_fits created
  refine throughout_iff_along WellFormed ConnectReturns
    (fun s a s' valid stepped => (step_fits valid stepped).1) ?_ run valid
    ((connectReturns_iff valid).mpr fits)
  intro s a s' valid returns stepped
  obtain ⟨valid', kept⟩ := step_fits valid stepped
  rw [connectReturns_iff valid']
  exact kept ((connectReturns_iff valid).mp returns)

theorem blocked_of_view (same : view r' = view r) (blocked : Blocked r) : Blocked r' := by
  have size := size_of_view same
  simp only [view, Prod.mk.injEq] at same
  simpa only [Blocked, atSend, size, same.2.1, same.2.2.1] using blocked

theorem blocked_step (blocked : Blocked r) (other : a ≠ .acquire) (stepped : r.step a = some r') :
    Blocked r' := by
  obtain ⟨sending, full⟩ := blocked
  unfold atSend at sending
  split at sending
  · rename_i n i ch phase
    have blocked : Blocked r := ⟨by simp only [atSend, phase], full⟩
    cases a with
    | acquire => exact absurd rfl other
    | readConn => simp [RabbitMQ.step, RabbitMQ.locked, phase] at stepped
    | openChannel call err =>
      obtain ⟨conn, -, rfl⟩ := map_eq_some_iff.mp stepped
      exact blocked_of_view (openChannel_view r call conn err) blocked
    | release ch =>
      obtain ⟨-, ⟨⟩⟩ := ite_none_right_eq_some.mp stepped
      cases ch with
      | none => exact blocked
      | some ch => exact blocked_of_view (release_full full) blocked
    | breakChannel ch =>
      obtain rfl := some.inj stepped
      exact blocked_of_view (closeChannel_view r ch) blocked
    | loseConnection =>
      obtain ⟨-, ⟨⟩⟩ := ite_none_right_eq_some.mp stepped
      obtain ⟨phase', channels, cfg, -⟩ := closeConn_frame r
      simpa only [Blocked, atSend, RabbitMQ.size, phase', channels, cfg] using blocked
    | send => simp [RabbitMQ.step, phase, Nat.not_lt.mpr full] at stepped
    | _ => simp [RabbitMQ.step, phase] at stepped
  · cases sending

theorem blocked_until_acquire (blocked : Blocked r) (absent : RabbitAction.acquire ∉ actions)
    (run : runSchedule RabbitMQ.step r actions = some r') : Blocked r' ∧ r'.locked := by
  have blocked' : Blocked r' := by
    refine runSchedule_invariant_along (fun _ a => a ≠ .acquire) Blocked
      (fun s a s' blocked other stepped => blocked_step blocked other stepped) run
      (along_of_forall (fun a member _ => ?_) r) blocked
    rintro rfl
    exact absent member
  refine ⟨blocked', ?_⟩
  have sending := blocked'.1
  cases phase : r'.phase with
  | sending => simp only [RabbitMQ.locked, phase]
  | _ => simp [atSend, phase] at sending

end

def singleChannel : Config := { defaultConfig with URL := "amqp://localhost", ChannelPoolSize := 1 }

def connectSteps : List RabbitAction := [.dial none, .openPooled none, .send, .finish]

def redialSteps : List RabbitAction := [.loseConnection, .notice, .reconnect]

theorem connect_returns_drained : ∃ r r', newRabbitMQ singleChannel = .ok r ∧
      runSchedule RabbitMQ.step r
        (connectSteps ++ [.acquire] ++ redialSteps ++ connectSteps) = some r' ∧
      ∀ before after middle,
        connectSteps ++ [.acquire] ++ redialSteps ++ connectSteps = before ++ after →
        runSchedule RabbitMQ.step r before = some middle → ConnectReturns middle := by
  refine ⟨_, _, rfl, rfl, ?_⟩
  have created : newRabbitMQ singleChannel = .ok _ := rfl
  exact (connect_returns_iff_careful created rfl).mpr (by decide)

theorem redial_blocks : ∃ r r', newRabbitMQ singleChannel = .ok r ∧ runSchedule RabbitMQ.step r
        (connectSteps ++ redialSteps ++ [.dial none, .openPooled none]) = some r' ∧
      ∀ actions r'', RabbitAction.acquire ∉ actions →
        runSchedule RabbitMQ.step r' actions = some r'' → Blocked r'' ∧ r''.locked := by
  refine ⟨_, _, rfl, rfl, fun actions r'' absent run => ?_⟩
  exact blocked_until_acquire (by decide) absent run

end NexusPipe.Proof.Queue
