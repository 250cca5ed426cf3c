import NexusPipe.Proof.Circuit.Breaker

namespace NexusPipe.Proof.Circuit
open NexusPipe.Circuit Library List

variable {cb : CircuitBreaker} {pc : Pc} {a : Access} {s : Run}

def admittedSince : List Event → Nat
  | [] => 0
  | .admitted :: trace => admittedSince trace + 1
  | .changed before after _ :: trace => if before = after then admittedSince trace else 0
  | .notified _ :: trace => admittedSince trace

def fresh : Pc → Bool
  | .done | .loadReady | .checkTotal | .countRejected | .loadProbe => true
  | _ => false

def decides (cb : CircuitBreaker) : Pc → Bool
  | .store _ newState _ => newState = .halfOpen
  | .checkTotal => cb.total < cb.config.HalfOpenMaxCalls
  | _ => false

/-- The breaker enters half-open and `ready` admits a call there only while no other goroutine has
an admitted call in flight or a change of state ahead. -/
def Exclusive (s : Run) : Action → Prop
  | .step i _ => s.goroutines[i]?.any (decides s.cb) = true →
      ∀ j < s.goroutines.length, j ≠ i → s.goroutines[j]?.all fresh = true
  | _ => True

instance (s : Run) (a : Action) : Decidable (Exclusive s a) :=
  match a with
  | .step _ _ => inferInstanceAs (Decidable (_ = true → ∀ j < s.goroutines.length, _))
  | .advance _ | .call | .tick => .isTrue trivial

theorem Exclusive.others (exclusive : Exclusive s (.step i ok)) (here : s.goroutines[i]? = some pc)
    (decisive : decides s.cb pc = true) (j : Nat) (pc' : Pc) (other : j ≠ i)
    (found : s.goroutines[j]? = some pc') : fresh pc' = true := by
  have all := exclusive (by rw [here]; exact decisive) j (List.getElem?_eq_some_iff.mp found).1 other
  rwa [found] at all

def Live (cb : CircuitBreaker) (admitted : Nat) : Pc → Prop
  | .notify _ .halfOpen _ => admitted = 0 ∧ cb.failures = 0 ∧ cb.successes = 0
  | .callFn | .countFailure | .stampFailure | .loadFailure | .addHalfOpenFailure
  | .countSuccess | .loadSuccess | .addSuccess =>
    cb.failures = 0 ∧ admitted = cb.successes.toNat + 1
  | .loadOld .opened .finish | .store _ .opened .finish | .reset => True
  | .done | .loadReady | .checkTotal | .countRejected | .loadProbe =>
    cb.failures = 0 ∧ admitted = cb.successes.toNat
  | _ => False

structure Bounded (s : Run) : Prop where
  max : s.cb.config.HalfOpenMaxCalls ≠ 0
  halfOpen : s.cb.state = .halfOpen →
    admittedSince s.trace ≤ s.cb.config.HalfOpenMaxCalls.toNat ∧
      ∃ (i : Nat) (pc : Pc), s.goroutines[i]? = some pc ∧ Live s.cb (admittedSince s.trace) pc ∧
        ∀ (j : Nat) pc', j ≠ i → s.goroutines[j]? = some pc' → fresh pc' = true

theorem Takes.enters (takes : Takes cb now pc a) (outside : cb.state ≠ .halfOpen)
    (inside : a.cb.state = .halfOpen) : ∃ old after, pc = .store old .halfOpen after ∧
      a = ⟨.notify old .halfOpen after, cb.setState .halfOpen now,
        [.changed cb.state .halfOpen (old, .halfOpen)]⟩ := by
  cases takes with
  | store old newState after =>
    cases inside
    exact ⟨old, after, rfl, rfl⟩
  | reset => cases inside
  | already after | notify old newState after => exact absurd (by simpa using inside) outside
  | _ => exact absurd inside outside

theorem Takes.of_fresh (takes : Takes cb now pc a) (idle : fresh pc = true)
    (inside : cb.state = .halfOpen) :
    fresh a.pc = true ∧ a.cb.failures = cb.failures ∧ a.cb.successes = cb.successes ∧ a.events = [] ∨
      pc = .checkTotal ∧ cb.total < cb.config.HalfOpenMaxCalls ∧ a = ⟨.callFn, cb, [.admitted]⟩ := by
  cases takes with
  | room room => exact .inr ⟨rfl, room, rfl⟩
  | readHalfOpen | full | reject | probeNothing => exact .inl ⟨rfl, rfl, rfl, rfl⟩
  | admitClosed seen | readOpened seen | probe seen =>
    rw [inside] at seen
    cases seen
  | _ => cases idle

theorem toNat_pos {n : UInt32} (nonzero : n ≠ 0) : 0 < n.toNat :=
  Nat.pos_of_ne_zero fun zero => nonzero (UInt32.toNat_inj.mp zero)

theorem toNat_succ_of_le {n : UInt32} (max : UInt32) (le : n.toNat + 1 ≤ max.toNat) :
    (n + 1).toNat = n.toNat + 1 := by
  have small := max.toNat_lt
  rw [UInt32.toNat_add, UInt32.toNat_one, Nat.mod_eq_of_lt]
  omega

theorem Live.takes {trace : List Event} (live : Live cb (admittedSince trace) pc)
    (takes : Takes cb now pc a) (inside : cb.state = .halfOpen) (stays : a.cb.state = .halfOpen)
    (max : cb.config.HalfOpenMaxCalls ≠ 0)
    (bound : admittedSince trace ≤ cb.config.HalfOpenMaxCalls.toNat) :
    admittedSince (a.events ++ trace) ≤ cb.config.HalfOpenMaxCalls.toNat ∧
      Live a.cb (admittedSince (a.events ++ trace)) a.pc := by
  cases takes with
  | admitClosed seen | readOpened seen | failClosed seen | failOpened seen | succeedClosed seen
  | succeedOpened seen | probe seen =>
    rw [inside] at seen
    cases seen
  | readHalfOpen | full | reject | probeNothing | succeed | fail | countFailure | stampFailure
  | failHalfOpen | countSuccess | succeedHalfOpen => exact ⟨bound, live⟩
  | room room =>
    obtain ⟨none, counted⟩ := live
    rw [CircuitBreaker.total, none, UInt32.zero_add, UInt32.lt_iff_toNat_lt, ← counted] at room
    exact ⟨room, none, congrArg (· + 1) counted⟩
  | addHalfOpenFailure | recover => exact ⟨bound, trivial⟩
  | await below =>
    obtain ⟨none, counted⟩ := live
    rw [counted] at bound
    refine ⟨counted ▸ bound, none, ?_⟩
    exact counted.trans (toNat_succ_of_le _ bound).symm
  | reset => cases stays
  | already after => cases after <;> simp [Live, inside] at live
  | loadOld newState after different =>
    cases newState <;> cases after <;> simp only [Live] at live
    exact ⟨bound, trivial⟩
  | store old newState after => cases newState <;> cases after <;> simp [Live] at live; cases stays
  | notify old newState after =>
    cases newState with
    | closed | opened => simp [Live] at live
    | halfOpen =>
      obtain ⟨none, failures, successes⟩ := live
      have positive := toNat_pos max
      cases after with
      | run =>
        split_ifs
        · exact ⟨by simp [leave, admittedSince, none]; omega,
            failures, by simp [leave, admittedSince, none, successes]⟩
        · exact ⟨by simp [leave, admittedSince, none]; omega,
            failures, by simp [leave, admittedSince, none, successes]⟩
      | finish =>
        split_ifs
        · exact ⟨bound, failures, by simp [leave, admittedSince, none, successes]⟩
        · exact ⟨bound, failures, by simp [leave, none, successes]⟩
  | expire | early | tolerate | trip | clearFailures | probeExpired | probeEarly =>
    exact live.elim

theorem Live.congr {cb' : CircuitBreaker} (live : Live cb admitted pc)
    (failures : cb'.failures = cb.failures) (successes : cb'.successes = cb.successes) :
    Live cb' admitted pc := by
  unfold Live at live ⊢
  rwa [failures, successes]

theorem Live.of_fresh (live : Live cb admitted pc) (idle : fresh pc = true) :
    cb.failures = 0 ∧ admitted = cb.successes.toNat := by
  cases pc with
  | done | loadReady | checkTotal | countRejected | loadProbe => exact live
  | _ => cases idle

theorem Bounded.access (b : Bounded s) (here : s.goroutines[i]? = some pc)
    (takes : Takes s.cb s.now pc a) (exclusive : Exclusive s (.step i ok)) :
    Bounded (s.move i a) := by
  refine ⟨by simpa [Run.move, takes.config] using b.max, fun stays => ?_⟩
  have own := move_own here a
  have config : (s.move i a).cb.config = s.cb.config := takes.config
  rw [config]
  by_cases inside : s.cb.state = .halfOpen
  · obtain ⟨bound, k, live, found, holds, idle⟩ := b.halfOpen inside
    by_cases same : i = k
    · subst same
      rw [here] at found
      cases found
      obtain ⟨bound', live'⟩ := holds.takes takes inside stays b.max bound
      refine ⟨bound', i, a.pc, own, live', fun j pc' other at' => ?_⟩
      rw [move_other other] at at'
      exact idle j pc' other at'
    · rcases takes.of_fresh (idle i pc same here) inside with
        ⟨idle', failures, successes, silent⟩ | ⟨rfl, room, rfl⟩
      · have trace : (s.move i a).trace = s.trace := by simp [Run.move, silent]
        rw [trace]
        refine ⟨bound, k, live, ?_, holds.congr failures successes, fun j pc' other at' => ?_⟩
        · rw [move_other (Ne.symm same)]
          exact found
        · by_cases mine : j = i
          · subst mine
            rw [own, Option.some.injEq] at at'
            exact at' ▸ idle'
          · rw [move_other mine] at at'
            exact idle j pc' other at'
      · -- the live goroutine has come to its end, and this one takes its place
        have alone := exclusive.others here (decide_eq_true room)
        obtain ⟨none, counted⟩ := holds.of_fresh (alone k live (Ne.symm same) found)
        rw [CircuitBreaker.total, none, UInt32.zero_add, UInt32.lt_iff_toNat_lt, ← counted] at room
        refine ⟨room, i, .callFn, own, ⟨none, congrArg (· + 1) counted⟩, fun j pc' other at' => ?_⟩
        rw [move_other other] at at'
        exact alone j pc' other at'
  · obtain ⟨old, after, rfl, rfl⟩ := takes.enters inside stays
    have alone := exclusive.others here rfl
    have trace : admittedSince (s.move i ⟨.notify old .halfOpen after, s.cb.setState .halfOpen s.now,
        [.changed s.cb.state .halfOpen (old, .halfOpen)]⟩).trace = 0 := by
      simp [Run.move, admittedSince, inside]
    refine ⟨by rw [trace]; exact Nat.zero_le _, i, _, own, ⟨trace, rfl, rfl⟩,
      fun j pc' other at' => ?_⟩
    rw [move_other other] at at'
    exact alone j pc' other at'

theorem Bounded.step (b : Bounded s) {a : Action} (moves : Moves s a s')
    (exclusive : Exclusive s a) : Bounded s' := by
  cases moves with
  | advance d => exact ⟨b.max, b.halfOpen⟩
  | call =>
    refine ⟨b.max, fun inside => ?_⟩
    obtain ⟨bound, k, live, found, holds, idle⟩ := b.halfOpen inside
    refine ⟨bound, k, live, ?_, holds.congr rfl rfl, fun j pc' other at' => ?_⟩
    · rw [getElem?_append_left (List.getElem?_eq_some_iff.mp found).1]
      exact found
    · rw [getElem?_append] at at'
      split_ifs at at' with old
      · exact idle j pc' other at'
      · rw [mem_singleton.mp (mem_of_getElem? at')]
        rfl
  | tick ticking waiting =>
    refine ⟨b.max, fun inside => ?_⟩
    obtain ⟨bound, k, live, found, holds, idle⟩ := b.halfOpen inside
    have first := (List.getElem?_eq_some_iff.mp waiting).1
    by_cases zero : k = 0
    · subst zero
      rw [waiting] at found
      cases found
      refine ⟨bound, 0, .loadProbe, getElem?_set_self first, holds,
        fun j pc' other at' => ?_⟩
      rw [getElem?_set_ne (Ne.symm other)] at at'
      exact idle j pc' other at'
    · refine ⟨bound, k, live, ?_, holds, fun j pc' other at' => ?_⟩
      · rw [getElem?_set_ne (Ne.symm zero)]
        exact found
      · rw [getElem?_set] at at'
        split_ifs at at' with same
        · cases at'
          rfl
        · exact idle j pc' other at'
  | step i ok here takes => exact b.access here takes exclusive

def WithinMaxCalls (s : Run) : Prop :=
  s.cb.state = .halfOpen → admittedSince s.trace ≤ s.cb.config.HalfOpenMaxCalls.toNat

theorem withinMaxCalls_of_exclusive (config : Config) (now : Int) (schedule : List Action) (s : Run)
    (run : runSchedule runStep (start config now) schedule = some s)
    (along : Along runStep Exclusive (start config now) schedule) : WithinMaxCalls s := by
  have initial : Bounded (start config now) :=
    ⟨(withDefaults_ne_zero config).2.2, fun inside => by cases inside⟩
  have b : Bounded s := runSchedule_invariant_along Exclusive Bounded
    (fun s a s' b exclusive next => b.step (runStep_moves next) exclusive) run along initial
  exact fun inside => (b.halfOpen inside).1

def crowd : List Action := outage ++ .call :: steps 6 5 true ++ .call :: steps 7 2 true

theorem crowd_not_withinMaxCalls : ∃ s,
    runSchedule runStep (start newConfig 0) crowd = some s ∧ ¬ WithinMaxCalls s := by
  refine exists_reached (fun s => s.cb.state = .halfOpen ∧ admittedSince s.trace = 2 ∧
    s.cb.config.HalfOpenMaxCalls = 1) (by decide +kernel) ?_
  rintro s - ⟨inside, admitted, max⟩ within
  have bound := within inside
  rw [admitted, max] at bound
  exact absurd bound (by decide)

theorem outage_withinMaxCalls : ∃ s,
    runSchedule runStep (start newConfig 0) (outage ++ .call :: steps 6 9 true) = some s ∧
      s.cb.state = .halfOpen ∧ admittedSince s.trace = 1 ∧ WithinMaxCalls s := by
  refine exists_reached (fun s => s.cb.state = .halfOpen ∧ admittedSince s.trace = 1)
    (by decide +kernel) fun s run values => ?_
  exact ⟨values.1, values.2, withinMaxCalls_of_exclusive newConfig 0 _ s run (by decide +kernel)⟩

end NexusPipe.Proof.Circuit
