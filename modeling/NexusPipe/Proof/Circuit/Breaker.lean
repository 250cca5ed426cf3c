import NexusPipe.Circuit.Breaker
import NexusPipe.Library.List

namespace NexusPipe.Proof.Circuit
open NexusPipe.Circuit Library List

inductive Takes (cb : CircuitBreaker) (now : Int) : Pc → Access → Prop
  | admitClosed (seen : cb.state = .closed) : Takes cb now .loadReady ⟨.callFn, cb, [.admitted]⟩
  | readOpened (seen : cb.state = .opened) : Takes cb now .loadReady ⟨.checkTimeout, cb, []⟩
  | readHalfOpen (seen : cb.state = .halfOpen) : Takes cb now .loadReady ⟨.checkTotal, cb, []⟩
  | expire (expired : cb.expired now = true) :
      Takes cb now .checkTimeout ⟨.loadOld .halfOpen .run, cb, []⟩
  | early (early : cb.expired now = false) : Takes cb now .checkTimeout ⟨.countRejected, cb, []⟩
  | full (full : cb.config.HalfOpenMaxCalls ≤ cb.total) :
      Takes cb now .checkTotal ⟨.countRejected, cb, []⟩
  | room (room : cb.total < cb.config.HalfOpenMaxCalls) :
      Takes cb now .checkTotal ⟨.callFn, cb, [.admitted]⟩
  | reject :
      Takes cb now .countRejected ⟨.done, { cb with failedCalls := cb.failedCalls + 1 }, []⟩
  | succeed : Takes cb now .callFn ⟨.countSuccess, cb, []⟩
  | fail : Takes cb now .callFn ⟨.countFailure, cb, []⟩
  | countFailure :
      Takes cb now .countFailure ⟨.stampFailure, { cb with failedCalls := cb.failedCalls + 1 }, []⟩
  | stampFailure : Takes cb now .stampFailure ⟨.loadFailure, { cb with lastFailure := now }, []⟩
  | failHalfOpen (seen : cb.state = .halfOpen) :
      Takes cb now .loadFailure ⟨.addHalfOpenFailure, cb, []⟩
  | failClosed (seen : cb.state = .closed) : Takes cb now .loadFailure ⟨.addClosedFailure, cb, []⟩
  | failOpened (seen : cb.state = .opened) : Takes cb now .loadFailure ⟨.done, cb, []⟩
  | addHalfOpenFailure : Takes cb now .addHalfOpenFailure
      ⟨.loadOld .opened .finish, { cb with failures := cb.failures + 1 }, []⟩
  | trip (reached : cb.config.FailureThreshold ≤ cb.failures + 1) : Takes cb now .addClosedFailure
      ⟨.loadOld .opened .finish, { cb with failures := cb.failures + 1 }, []⟩
  | tolerate (below : cb.failures + 1 < cb.config.FailureThreshold) :
      Takes cb now .addClosedFailure ⟨.done, { cb with failures := cb.failures + 1 }, []⟩
  | countSuccess :
      Takes cb now .countSuccess ⟨.loadSuccess, { cb with successCalls := cb.successCalls + 1 }, []⟩
  | succeedHalfOpen (seen : cb.state = .halfOpen) : Takes cb now .loadSuccess ⟨.addSuccess, cb, []⟩
  | succeedClosed (seen : cb.state = .closed) : Takes cb now .loadSuccess ⟨.clearFailures, cb, []⟩
  | succeedOpened (seen : cb.state = .opened) : Takes cb now .loadSuccess ⟨.done, cb, []⟩
  | recover (reached : cb.config.SuccessThreshold ≤ cb.successes + 1) :
      Takes cb now .addSuccess ⟨.reset, { cb with successes := cb.successes + 1 }, []⟩
  | await (below : cb.successes + 1 < cb.config.SuccessThreshold) :
      Takes cb now .addSuccess ⟨.done, { cb with successes := cb.successes + 1 }, []⟩
  | clearFailures : Takes cb now .clearFailures ⟨.done, { cb with failures := 0 }, []⟩
  | reset : Takes cb now .reset ⟨.notify .halfOpen .closed .finish, cb.reset now,
      [.changed cb.state .closed (.halfOpen, .closed)]⟩
  | already (after : After) : Takes cb now (.loadOld cb.state after) (leave cb [] after)
  | loadOld (newState : State) (after : After) (different : cb.state ≠ newState) :
      Takes cb now (.loadOld newState after) ⟨.store cb.state newState after, cb, []⟩
  | store (old newState : State) (after : After) : Takes cb now (.store old newState after)
      ⟨.notify old newState after, cb.setState newState now,
        [.changed cb.state newState (old, newState)]⟩
  | notify (old newState : State) (after : After) : Takes cb now (.notify old newState after)
      (leave cb (if cb.config.OnStateChange then [.notified (old, newState)] else []) after)
  | probe (seen : cb.state = .opened) : Takes cb now .loadProbe ⟨.checkProbe, cb, []⟩
  | probeNothing (seen : cb.state ≠ .opened) : Takes cb now .loadProbe ⟨.done, cb, []⟩
  | probeExpired (expired : cb.expired now = true) :
      Takes cb now .checkProbe ⟨.loadOld .halfOpen .finish, cb, []⟩
  | probeEarly (early : cb.expired now = false) : Takes cb now .checkProbe ⟨.done, cb, []⟩

variable {ok : Bool}

theorem access_takes (next : access cb now ok pc = some a) : Takes cb now pc a := by
  cases pc <;> simp only [access, Option.some.injEq, reduceCtorEq] at next <;> subst next
  case loadReady =>
    cases seen : cb.state with
    | closed => exact .admitClosed seen
    | opened => exact .readOpened seen
    | halfOpen => exact .readHalfOpen seen
  case checkTimeout =>
    split_ifs with expired
    · exact .expire expired
    · exact .early (Bool.eq_false_iff.mpr expired)
  case checkTotal =>
    split_ifs with full
    · exact .full full
    · exact .room (UInt32.not_le.mp full)
  case countRejected => exact .reject
  case callFn =>
    cases ok
    · exact .fail
    · exact .succeed
  case countFailure => exact .countFailure
  case stampFailure => exact .stampFailure
  case loadFailure =>
    cases seen : cb.state with
    | closed => exact .failClosed seen
    | opened => exact .failOpened seen
    | halfOpen => exact .failHalfOpen seen
  case addHalfOpenFailure => exact .addHalfOpenFailure
  case addClosedFailure =>
    split_ifs with reached
    · exact .trip reached
    · exact .tolerate (UInt32.not_le.mp reached)
  case countSuccess => exact .countSuccess
  case loadSuccess =>
    cases seen : cb.state with
    | closed => exact .succeedClosed seen
    | opened => exact .succeedOpened seen
    | halfOpen => exact .succeedHalfOpen seen
  case addSuccess =>
    split_ifs with reached
    · exact .recover reached
    · exact .await (UInt32.not_le.mp reached)
  case clearFailures => exact .clearFailures
  case reset => exact .reset
  case loadOld newState after =>
    split_ifs with same
    · subst same
      exact .already after
    · exact .loadOld newState after same
  case store old newState after => exact .store old newState after
  case notify old newState after => exact .notify old newState after
  case loadProbe =>
    split_ifs with seen
    · exact .probe seen
    · exact .probeNothing seen
  case checkProbe =>
    split_ifs with expired
    · exact .probeExpired expired
    · exact .probeEarly (Bool.eq_false_iff.mpr expired)

@[simp] theorem leave_cb (cb : CircuitBreaker) (events : List Event) (after : After) :
    (leave cb events after).cb = cb := by
  cases after <;> rfl

theorem mem_leave_events {cb : CircuitBreaker} {events : List Event} {after : After} {event : Event}
    (shown : event ∈ (leave cb events after).events) : event = .admitted ∨ event ∈ events := by
  cases after with
  | run => exact mem_cons.mp shown
  | finish => exact .inr shown

variable {pair : State × State} {after before : State}

namespace Takes
theorem config (takes : Takes cb now pc a) : a.cb.config = cb.config := by
  cases takes <;> simp [CircuitBreaker.reset, CircuitBreaker.setState]

theorem changed (takes : Takes cb now pc a) (shown : .changed before after pair ∈ a.events) :
    before = cb.state ∧ (pc = .reset ∧ after = .closed ∧ pair = (.halfOpen, .closed) ∨
        ∃ old follow, pc = .store old after follow ∧ pair = (old, after)) := by
  cases takes with
  | reset =>
    simp only [mem_singleton, Event.changed.injEq] at shown
    exact ⟨shown.1, .inl ⟨rfl, shown.2⟩⟩
  | store old newState follow =>
    simp only [mem_singleton, Event.changed.injEq] at shown
    obtain ⟨rfl, rfl, rfl⟩ := shown
    exact ⟨rfl, .inr ⟨old, follow, rfl, rfl⟩⟩
  | already follow => simpa using mem_leave_events shown
  | notify old newState follow =>
    have other := mem_leave_events shown
    split_ifs at other <;> simp at other
  | _ => simp at shown

theorem notified (takes : Takes cb now pc a) (shown : .notified pair ∈ a.events) :
    ∃ old newState after, pc = .notify old newState after ∧ pair = (old, newState) := by
  cases takes with
  | notify old newState after =>
    have other := mem_leave_events shown
    split_ifs at other
    · simp only [mem_singleton, Event.notified.injEq, false_or] at other
      exact ⟨old, newState, after, rfl, other⟩
    · simp at other
  | already after => simpa using mem_leave_events shown
  | _ => simp at shown

end Takes

theorem default_ne_zero {α : Type} [Zero α] [DecidableEq α] (n : α) {d : α} (nonzero : d ≠ 0) :
    (if n = 0 then d else n) ≠ 0 := by
  split_ifs with zero
  · exact nonzero
  · exact zero

theorem withDefaults_ne_zero (config : Config) :
    config.withDefaults.FailureThreshold ≠ 0 ∧ config.withDefaults.SuccessThreshold ≠ 0 ∧
      config.withDefaults.HalfOpenMaxCalls ≠ 0 :=
  ⟨default_ne_zero _ (by decide), default_ne_zero _ (by decide), default_ne_zero _ (by decide)⟩

variable {s : Run}

inductive Moves (s : Run) : Action → Run → Prop
  | advance (d : Nat) : Moves s (.advance d) { s with now := s.now + d }
  | call : Moves s .call { s with
      cb := { s.cb with totalCalls := s.cb.totalCalls + 1 }
      goroutines := s.goroutines ++ [.loadReady] }
  | tick (ticking : s.cb.config.HalfOpenProbeInterval > 0) (idle : s.goroutines[0]? = some .done) :
      Moves s .tick { s with goroutines := s.goroutines.set 0 .loadProbe }
  | step (i : Nat) (ok : Bool) (here : s.goroutines[i]? = some pc)
      (takes : Takes s.cb s.now pc a) : Moves s (.step i ok) (s.move i a)

theorem runStep_moves (next : runStep s a = some s') : Moves s a s' := by
  cases a with
  | advance d =>
    cases next
    exact .advance d
  | call =>
    cases next
    exact .call
  | tick =>
    simp only [runStep] at next
    split_ifs at next with ready
    cases next
    exact .tick ready.1 ready.2
  | step i ok =>
    simp only [runStep] at next
    split at next
    · cases next
    · rename_i pc here
      obtain ⟨a, accessed, rfl⟩ := Option.map_eq_some_iff.mp next
      exact .step i ok here (access_takes accessed)

variable {i : Nat}

theorem runStep_step (here : s.goroutines[i]? = some pc)
    (accessed : access s.cb s.now ok pc = some a) : runStep s (.step i ok) = some (s.move i a) := by
  simp only [runStep, here, accessed, Option.map_some]

theorem move_own (here : s.goroutines[i]? = some pc) (a : Access) :
    (s.move i a).goroutines[i]? = some a.pc :=
  getElem?_set_of_found here a.pc

theorem move_other (other : j ≠ i) (a : Access) : (s.move i a).goroutines[j]? = s.goroutines[j]? :=
  getElem?_set_ne (Ne.symm other)

theorem Moves.goroutines (moves : Moves s a s') (P : Run → Pc → Prop)
    (holds : ∀ (i : Nat) pc, s.goroutines[i]? = some pc → P s pc)
    (fresh : P s' .loadReady ∧ (s.cb.config.HalfOpenProbeInterval > 0 → P s' .loadProbe))
    (others : ∀ pc, P s pc → P s' pc)
    (own : ∀ (i : Nat) pc access, s.goroutines[i]? = some pc → Takes s.cb s.now pc access →
      s' = s.move i access → P s' access.pc) :
    ∀ (i : Nat) pc, s'.goroutines[i]? = some pc → P s' pc := by
  intro i pc found
  cases moves with
  | advance d => exact others pc (holds i pc found)
  | call =>
    rcases getElem?_concat_cases found with old | ⟨_, rfl⟩
    · exact others pc (holds i pc old)
    · exact fresh.1
  | tick ticking idle =>
    rcases getElem?_set_cases found with ⟨_, rfl⟩ | ⟨_, old⟩
    · exact fresh.2 ticking
    · exact others pc (holds i pc old)
  | step j ok here takes =>
    rcases getElem?_set_cases found with ⟨_, rfl⟩ | ⟨_, old⟩
    · exact own j _ _ here takes rfl
    · exact others pc (holds i pc old)

theorem Moves.trace (moves : Moves s a s') : ∃ events, s'.trace = events ++ s.trace := by
  cases moves with
  | step i ok here takes => exact ⟨_, rfl⟩
  | _ => exact ⟨[], rfl⟩

theorem Moves.config (moves : Moves s a s') : s'.cb.config = s.cb.config := by
  cases moves with
  | step i ok here takes => exact takes.config
  | _ => rfl

def Placed (trace : List Event) : Pc → Prop
  | .loadOld newState _ => newState ≠ .closed
  | .store old newState _ => newState ≠ .closed ∧ old ≠ newState
  | .notify old newState _ => ∃ before, .changed before newState (old, newState) ∈ trace
  | _ => True

variable {trace : List Event}

theorem Placed.mono (placed : Placed trace pc) (events : List Event) :
    Placed (events ++ trace) pc := by
  cases pc with
  | notify old newState after =>
    obtain ⟨before, member⟩ := placed
    exact ⟨before, mem_append_right _ member⟩
  | _ => exact placed

theorem Takes.placed (takes : Takes cb now pc a) (placed : Placed trace pc) :
    Placed (a.events ++ trace) a.pc := by
  cases takes with
  | loadOld newState after different => exact ⟨placed, different⟩
  | store | reset => exact ⟨cb.state, by simp⟩
  | already after | notify old newState after => cases after <;> trivial
  | _ => simp [Placed]

inductive Arrow : State → State → Prop
  | trip : Arrow .closed .opened
  | probe : Arrow .opened .halfOpen
  | fail : Arrow .halfOpen .opened
  | recover : Arrow .halfOpen .closed

theorem Arrow.from_opened (arrow : Arrow before .halfOpen) : before = .opened := by
  cases arrow
  rfl

structure FollowsArrows (trace : List Event) : Prop where
  arrows : ∀ before after pair, .changed before after pair ∈ trace → Arrow before after
  pairs : ∀ before after pair, .changed before after pair ∈ trace → pair = (before, after)
  notified : ∀ pair, .notified pair ∈ trace → ∃ before after, .changed before after pair ∈ trace

/-- A locked section that writes the state finds the one its goroutine has read: `setState` the one
it has just loaded, which for a change to half-open is open, and `reset` half-open. -/
def finds (cb : CircuitBreaker) : Pc → Bool
  | .store old newState _ => cb.state = old ∧ (newState = .halfOpen → old = .opened)
  | .reset => cb.state = .halfOpen
  | _ => true

def Current (s : Run) : Action → Prop
  | .step i _ => s.goroutines[i]?.all (finds s.cb) = true
  | _ => True

instance (s : Run) (a : Action) : Decidable (Current s a) :=
  match a with
  | .step _ _ => inferInstanceAs (Decidable (_ = true))
  | .advance _ | .call | .tick => .isTrue trivial

structure Noted (s : Run) : Prop where
  placed : ∀ (i : Nat) pc, s.goroutines[i]? = some pc → Placed s.trace pc
  notified : ∀ pair, .notified pair ∈ s.trace → ∃ before after, .changed before after pair ∈ s.trace

theorem Noted.step (noted : Noted s) (moves : Moves s a s') : Noted s' := by
  constructor
  · obtain ⟨events, grown⟩ := moves.trace
    apply moves.goroutines (fun s => Placed s.trace) noted.placed
    · exact ⟨trivial, fun _ => trivial⟩
    · intro pc placed
      rw [grown]
      exact placed.mono events
    · rintro i pc access here takes rfl
      exact takes.placed (noted.placed i pc here)
  · intro pair shown
    cases moves with
    | step i ok here takes =>
      rcases mem_append.mp shown with new | old
      · obtain ⟨old, newState, after, rfl, rfl⟩ := takes.notified new
        obtain ⟨before, member⟩ := noted.placed i _ here
        exact ⟨before, newState, mem_append_right _ member⟩
      · obtain ⟨before, after, member⟩ := noted.notified pair old
        exact ⟨before, after, mem_append_right _ member⟩
    | _ => exact noted.notified pair shown

theorem noted_start (config : Config) (now : Int) : Noted (start config now) := by
  constructor
  · intro i pc found
    rw [mem_singleton.mp (mem_of_getElem? found)]
    trivial
  · simp [start]

theorem run_noted {config : Config} (run : runSchedule runStep (start config now) schedule = some s) :
    Noted s :=
  runSchedule_invariant Noted (fun _ _ _ noted next => noted.step (runStep_moves next)) run
    (noted_start config now)

theorem current_arrow {access : Access} (noted : Noted s) (current : Current s (.step i ok))
    (here : s.goroutines[i]? = some pc) (takes : Takes s.cb s.now pc access)
    (shown : .changed before after pair ∈ access.events) :
    Arrow before after ∧ pair = (before, after) := by
  obtain ⟨rfl, ⟨rfl, rfl, rfl⟩ | ⟨old, follow, rfl, rfl⟩⟩ := takes.changed shown
  · simp only [Current, here, Option.all_some, finds, decide_eq_true_eq] at current
    rw [current]
    exact ⟨.recover, rfl⟩
  · simp only [Current, here, Option.all_some, finds, decide_eq_true_eq] at current
    obtain ⟨same, fromOpen⟩ := current
    obtain ⟨open', different⟩ := noted.placed i _ here
    rw [same]
    refine ⟨?_, rfl⟩
    cases after with
    | closed => exact absurd rfl open'
    | opened =>
      cases old with
      | closed => exact .trip
      | opened => exact absurd rfl different
      | halfOpen => exact .fail
    | halfOpen =>
      rw [fromOpen rfl]
      exact .probe

theorem current_of_arrow (moves : Moves s (.step i ok) s')
    (follows : ∀ before after pair, .changed before after pair ∈ s'.trace →
      Arrow before after ∧ pair = (before, after)) : Current s (.step i ok) := by
  cases moves with
  | step _ _ here takes =>
    rw [Current, here, Option.all_some]
    cases takes with
    | reset =>
      have pair := (follows _ _ _ (mem_append_left _ (mem_singleton_self _))).2
      rw [Prod.mk.injEq] at pair
      exact decide_eq_true pair.1.symm
    | store old newState after =>
      obtain ⟨arrow, pair⟩ := follows _ _ _ (mem_append_left _ (mem_singleton_self _))
      rw [Prod.mk.injEq] at pair
      refine decide_eq_true ⟨pair.1.symm, ?_⟩
      rintro rfl
      rw [pair.1]
      exact arrow.from_opened
    | _ => rfl

theorem followsArrows_iff (config : Config) (now : Int) (schedule : List Action) (s : Run)
    (run : runSchedule runStep (start config now) schedule = some s) :
    FollowsArrows s.trace ↔ Along runStep Current (start config now) schedule := by
  constructor
  · intro follows
    by_contra broken
    obtain ⟨before, a, after, middle, next, rfl, reached, stale, step, rest⟩ :=
      exists_step_of_not_along run broken
    -- what the step has written is still in the trace at the end
    have kept : ∃ events, s.trace = events ++ next.trace := by
      apply runSchedule_invariant (fun s => ∃ events, s.trace = events ++ next.trace) ?_ rest ⟨[], rfl⟩
      intro s a s' grown next
      obtain ⟨events, grown⟩ := grown
      obtain ⟨more, trace⟩ := (runStep_moves next).trace
      exact ⟨more ++ events, by rw [trace, grown, append_assoc]⟩
    obtain ⟨events, kept⟩ := kept
    cases a with
    | step i ok =>
      apply stale
      apply current_of_arrow (runStep_moves step)
      intro before after pair shown
      have member : .changed before after pair ∈ s.trace := by
        rw [kept]
        exact mem_append_right _ shown
      exact ⟨follows.arrows _ _ _ member, follows.pairs _ _ _ member⟩
    | _ => exact stale trivial
  · intro along
    have noted := run_noted run
    have all : Noted s ∧ ∀ before after pair, .changed before after pair ∈ s.trace →
        Arrow before after ∧ pair = (before, after) := by
      apply runSchedule_invariant_along Current _ ?_ run along ⟨noted_start config now, by simp [start]⟩
      rintro s a s' ⟨noted, follows⟩ current next
      have moves := runStep_moves next
      refine ⟨noted.step moves, fun before after pair shown => ?_⟩
      cases moves with
      | step i ok here takes =>
        rcases mem_append.mp shown with new | old
        · exact current_arrow noted current here takes new
        · exact follows before after pair old
      | _ => exact follows before after pair shown
    exact ⟨fun _ _ _ shown => (all.2 _ _ _ shown).1, fun _ _ _ shown => (all.2 _ _ _ shown).2,
      noted.notified⟩

def steps (i n : Nat) (ok : Bool) : List Action := List.replicate n (.step i ok)

def outage : List Action :=
  (List.range 5).flatMap (fun i => .call :: steps (i + 1) 6 false) ++ steps 5 3 false ++
    [.advance 31000000000]

def touchy : Config where
  FailureThreshold := 1
  SuccessThreshold := 1
  Timeout := second
  HalfOpenMaxCalls := 2
  OnStateChange := true

def resetRace : List Action :=
  .call :: steps 1 9 false ++ .advance 2000000000 :: .call :: steps 2 5 true ++
    .call :: steps 3 2 true ++ steps 2 4 true ++ steps 3 7 false ++ steps 2 1 true

theorem resetRace_not_followsArrows : ∃ s,
    runSchedule runStep (start touchy 0) resetRace = some s ∧ ¬ FollowsArrows s.trace := by
  refine exists_reached (fun s => .changed .opened .closed (.halfOpen, .closed) ∈ s.trace)
    (by decide +kernel) fun s _ member follows => ?_
  have arrow := follows.arrows _ _ _ member
  cases arrow

def recovery : List Action :=
  .call :: steps 1 9 false ++ .advance 2000000000 :: .call :: steps 2 11 true

theorem recovery_followsArrows : ∃ s,
    runSchedule runStep (start touchy 0) recovery = some s ∧ s.cb.state = .closed ∧
      FollowsArrows s.trace := by
  refine exists_reached (fun s => s.cb.state = .closed) (by decide +kernel) fun s run closed => ?_
  exact ⟨closed, (followsArrows_iff touchy 0 recovery s run).mpr (by decide +kernel)⟩

end NexusPipe.Proof.Circuit
