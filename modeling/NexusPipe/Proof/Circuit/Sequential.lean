import NexusPipe.Proof.Circuit.HalfOpen

namespace NexusPipe.Proof.Circuit
open NexusPipe.Circuit Library List

variable {cfg : Config} {cb : CircuitBreaker} {now : Int} {ok : Bool} {pc : Pc} {a : Access}
  {s s' : Run}

inductive Mark
  | returned (ok : Bool)
  | changed
  deriving DecidableEq

def mark (ok : Bool) : Pc → List Mark
  | .callFn => [.returned ok]
  | .reset | .store _ _ _ => [.changed]
  | _ => []

def marksOf (s : Run) : Action → List Mark
  | .step i ok => (s.goroutines[i]?.map (mark ok)).getD []
  | _ => []

def history : Run → List Mark → List Action → List Mark
  | _, marks, [] => marks
  | s, marks, action :: actions =>
    match runStep s action with
    | none => marks
    | some s' => history s' (marksOf s action ++ marks) actions

def streak : List Mark → Nat
  | .returned false :: marks => streak marks + 1
  | _ => 0

def entersOpen : Event → Bool
  | .changed before .opened _ => before ≠ .opened
  | _ => false

def callsDone (s : Run) : Bool := s.goroutines.tail.all (· = .done)

/-- No call begins before the ones before it have returned, and a tick of the probe loop is not
interrupted by a call. A tick may come, and time may pass, between any two accesses of a call. -/
def Alone (s : Run) : Action → Prop
  | .call => callsDone s = true
  | .step i _ => 0 < i → s.goroutines[0]? = some .done
  | _ => True

instance (s : Run) (action : Action) : Decidable (Alone s action) :=
  match action with
  | .call => inferInstanceAs (Decidable (_ = true))
  | .step _ _ => inferInstanceAs (Decidable (_ → _))
  | .advance _ | .tick => .isTrue trivial

def Shape (cfg : Config) (cb : CircuitBreaker) (closed : Prop) : Prop :=
  cb.state = .closed ∧ closed ∨ cb.state = .opened ∨
    cb.state = .halfOpen ∧ cb.failures = 0 ∧ cb.successes < cfg.SuccessThreshold

def Tallies (cfg : Config) (cb : CircuitBreaker) (marks : List Mark) : Prop :=
  cb.failures.toNat = streak marks ∧ cb.failures < cfg.FailureThreshold

def Lags (cfg : Config) (cb : CircuitBreaker) (marks : List Mark) : Prop :=
  cb.failures.toNat + 1 = streak marks ∧ cb.failures < cfg.FailureThreshold

def Expects (cfg : Config) (cb : CircuitBreaker) (marks : List Mark) : Pc → Prop
  | .loadReady | .checkTimeout | .checkTotal | .countRejected | .callFn | .done | .notify _ _ _
  | .loadOld .halfOpen _ => Shape cfg cb (Tallies cfg cb marks)
  | .countFailure | .stampFailure | .loadFailure => Shape cfg cb (Lags cfg cb marks)
  | .addHalfOpenFailure => cb.state = .halfOpen
  | .addClosedFailure => cb.state = .closed ∧ Lags cfg cb marks
  | .loadOld .opened _ | .store _ .opened _ => cb.state ≠ .opened
  | .countSuccess | .loadSuccess => Shape cfg cb True ∧ streak marks = 0
  | .addSuccess => cb.state = .halfOpen ∧ cb.failures = 0 ∧ cb.successes < cfg.SuccessThreshold
  | .clearFailures => cb.state = .closed ∧ streak marks = 0
  | .reset | .store _ .halfOpen _ => True
  | .loadOld .closed _ | .store _ .closed _ | .loadProbe | .checkProbe => False

def Probes (cb : CircuitBreaker) : Pc → Prop
  | .loadProbe | .done | .notify _ _ .finish => True
  | .checkProbe | .loadOld .halfOpen .finish | .store _ .halfOpen .finish => cb.state = .opened
  | _ => False

def uncounted : Pc → UInt64
  | .loadReady | .checkTimeout | .checkTotal | .countRejected | .callFn | .countFailure
  | .countSuccess | .loadOld _ .run | .store _ _ .run | .notify _ _ .run => 1
  | _ => 0

theorem shape_setState (nonzero : cfg.SuccessThreshold ≠ 0) (closed : Prop) :
    Shape cfg (cb.setState .halfOpen now) closed :=
  .inr (.inr ⟨rfl, rfl, UInt32.pos_iff_ne_zero.mpr nonzero⟩)

theorem Shape.closed {closed : Prop} (shape : Shape cfg cb closed) (seen : cb.state = .closed) :
    closed := by
  rcases shape with ⟨_, holds⟩ | seen' | ⟨seen', _⟩
  · exact holds
  · rw [seen] at seen'
    cases seen'
  · rw [seen] at seen'
    cases seen'

theorem Shape.halfOpen {closed : Prop} (shape : Shape cfg cb closed) (seen : cb.state = .halfOpen) :
    cb.failures = 0 ∧ cb.successes < cfg.SuccessThreshold := by
  rcases shape with ⟨seen', _⟩ | seen' | ⟨_, holds⟩
  · rw [seen] at seen'
    cases seen'
  · rw [seen] at seen'
    cases seen'
  · exact holds

theorem Shape.mono {closed closed' : Prop} (shape : Shape cfg cb closed)
    (implies : closed → closed') : Shape cfg cb closed' := by
  rcases shape with ⟨seen, holds⟩ | rest
  · exact .inl ⟨seen, implies holds⟩
  · exact .inr rest

theorem toNat_succ_of_lt {n max : UInt32} (less : n < max) : (n + 1).toNat = n.toNat + 1 :=
  toNat_succ_of_le max (UInt32.lt_iff_toNat_lt.mp less)

theorem Expects.access {marks : List Mark} (expects : Expects cfg cb marks pc)
    (config : cb.config = cfg) (nonzero : cfg.FailureThreshold ≠ 0 ∧ cfg.SuccessThreshold ≠ 0)
    (accessed : access cb now ok pc = some a) : Expects cfg a.cb (mark ok pc ++ marks) a.pc := by
  cases access_takes accessed with
  | admitClosed | readOpened | readHalfOpen | expire | early | full | room | reject
  | countFailure | stampFailure => exact expects
  | countSuccess => exact expects
  | succeed =>
    obtain rfl : ok = true := by
      cases ok
      · simp [NexusPipe.Circuit.access] at accessed
      · rfl
    exact ⟨Shape.mono expects fun _ => trivial, rfl⟩
  | fail =>
    obtain rfl : ok = false := by
      cases ok
      · rfl
      · simp [NexusPipe.Circuit.access] at accessed
    refine Shape.mono expects fun tallies => ⟨?_, tallies.2⟩
    exact congrArg (· + 1) tallies.1
  | failHalfOpen seen => exact seen
  | failClosed seen => exact ⟨seen, Shape.closed expects seen⟩
  | failOpened seen => exact .inr (.inl seen)
  | addHalfOpenFailure =>
    have halfOpen : cb.state = .halfOpen := expects
    simp [Expects, halfOpen]
  | trip reached =>
    have closed : cb.state = .closed := expects.1
    simp [Expects, closed]
  | tolerate below =>
    obtain ⟨closed, lags, less⟩ := expects
    refine .inl ⟨closed, ?_, config ▸ below⟩
    rw [toNat_succ_of_lt less]
    exact lags
  | succeedHalfOpen seen => exact ⟨seen, Shape.halfOpen expects.1 seen⟩
  | succeedClosed seen => exact ⟨seen, expects.2⟩
  | succeedOpened seen => exact .inr (.inl seen)
  | recover reached => trivial
  | await below => exact .inr (.inr ⟨expects.1, expects.2.1, config ▸ below⟩)
  | clearFailures =>
    refine .inl ⟨expects.1, ?_, UInt32.pos_iff_ne_zero.mpr nonzero.1⟩
    exact expects.2.symm
  | reset => exact .inl ⟨rfl, rfl, UInt32.pos_iff_ne_zero.mpr nonzero.1⟩
  | already after =>
    cases seen : cb.state with
    | halfOpen =>
      rw [seen] at expects
      cases after <;> exact expects
    | opened =>
      rw [seen] at expects
      exact absurd seen expects
    | closed =>
      rw [seen] at expects
      cases expects
  | loadOld newState after different =>
    cases newState with
    | halfOpen => trivial
    | opened => exact expects
    | closed => cases expects
  | store old newState after =>
    cases newState with
    | halfOpen => exact shape_setState nonzero.2 _
    | opened => exact .inr (.inl rfl)
    | closed => cases expects
  | notify old newState after => cases after <;> exact expects
  | probe | probeNothing | probeExpired | probeEarly => cases expects

theorem Expects.calls (expects : Expects cfg cb marks pc) (takes : Takes cb now pc a)
    (counted : cb.totalCalls = cb.successCalls + cb.failedCalls + uncounted pc) :
    a.cb.totalCalls = a.cb.successCalls + a.cb.failedCalls + uncounted a.pc := by
  cases takes with
  | reject | countFailure =>
    rw [counted, UInt64.add_assoc]
    exact (UInt64.add_zero _).symm
  | countSuccess =>
    rw [counted, UInt64.add_assoc, UInt64.add_comm cb.failedCalls, ← UInt64.add_assoc]
    exact (UInt64.add_zero _).symm
  | already after | loadOld newState after | store old newState after | notify old newState after =>
    cases after <;> exact counted
  | probe | probeNothing | probeExpired | probeEarly => cases expects
  | _ => exact counted

theorem Expects.opens {trace : List Event} (expects : Expects cfg cb marks pc)
    (takes : Takes cb now pc a) (counted : cb.openCount = UInt64.ofNat (trace.countP entersOpen)) :
    a.cb.openCount = UInt64.ofNat ((a.events ++ trace).countP entersOpen) := by
  cases takes with
  | store old newState after =>
    cases newState with
    | closed => cases expects
    | halfOpen => exact counted
    | opened =>
      have outside : cb.state ≠ .opened := expects
      have entered : ([Event.changed cb.state .opened (old, .opened)] ++ trace).countP entersOpen =
          trace.countP entersOpen + 1 := by
        simp [entersOpen, outside]
      rw [entered, UInt64.ofNat_add, ← counted]
      rfl
  | already after => cases after <;> exact counted
  | notify old newState after =>
    cases after <;> split_ifs <;> exact counted
  | _ => exact counted

theorem Probes.takes (probes : Probes cb pc) (takes : Takes cb now pc a) (ok : Bool) :
    Probes a.cb a.pc ∧ (a.cb = cb ∧ mark ok pc = [] ∧ a.events.countP entersOpen = 0 ∨
        cb.state = .opened ∧ a.cb = cb.setState .halfOpen now ∧ mark ok pc = [.changed] ∧
          a.events.countP entersOpen = 0) := by
  cases takes with
  | probe seen => exact ⟨seen, .inl ⟨rfl, rfl, rfl⟩⟩
  | probeNothing | probeEarly => exact ⟨trivial, .inl ⟨rfl, rfl, rfl⟩⟩
  | probeExpired expired => exact ⟨probes, .inl ⟨rfl, rfl, rfl⟩⟩
  | already after =>
    cases seen : cb.state <;> cases after <;> rw [seen] at probes <;> simp [Probes, seen] at probes
  | loadOld newState after different =>
    cases newState <;> cases after <;> try cases probes
    exact ⟨probes, .inl ⟨rfl, rfl, rfl⟩⟩
  | store old newState after =>
    cases newState <;> cases after <;> try cases probes
    exact ⟨trivial, .inr ⟨probes, rfl, rfl, rfl⟩⟩
  | notify old newState after =>
    cases after with
    | run => cases probes
    | finish =>
      refine ⟨trivial, .inl ⟨rfl, rfl, ?_⟩⟩
      simp only [leave]
      split_ifs <;> rfl
  | _ => cases probes

theorem Expects.probed (expects : Expects cfg cb marks pc) (opened : cb.state = .opened)
    (nonzero : cfg.SuccessThreshold ≠ 0) :
    Expects cfg (cb.setState .halfOpen now) (.changed :: marks) pc := by
  cases pc with
  | loadOld newState after | store old newState after =>
    cases newState with
    | closed => cases expects
    | opened => exact absurd opened expects
    | halfOpen => first | trivial | exact shape_setState nonzero _
  | addHalfOpenFailure =>
    rw [Expects, opened] at expects
    cases expects
  | addClosedFailure | addSuccess | clearFailures =>
    have seen := expects.1
    rw [opened] at seen
    cases seen
  | countSuccess | loadSuccess => exact ⟨shape_setState nonzero _, rfl⟩
  | reset => trivial
  | loadProbe | checkProbe => cases expects
  | _ => exact shape_setState nonzero _

def Sole (s : Run) (probe current : Pc) : Prop :=
  ∃ finished : List Pc, (∀ pc ∈ finished, pc = .done) ∧
    (s.goroutines = probe :: finished ∧ current = .done ∨
      s.goroutines = probe :: (finished ++ [current]))

theorem Sole.probe {probe current : Pc} (sole : Sole s probe current) :
    s.goroutines[0]? = some probe := by
  obtain ⟨finished, _, ⟨goroutines, _⟩ | goroutines⟩ := sole <;> rw [goroutines] <;> rfl

theorem Sole.set_probe {probe current : Pc} (sole : Sole s probe current)
    (goroutines : s'.goroutines = s.goroutines.set 0 pc) : Sole s' pc current := by
  obtain ⟨finished, all, ⟨before, rest⟩ | before⟩ := sole
  · exact ⟨finished, all, .inl ⟨by rw [goroutines, before]; rfl, rest⟩⟩
  · exact ⟨finished, all, .inr (by rw [goroutines, before]; rfl)⟩

theorem Sole.busy {probe current : Pc} {i : Nat} (sole : Sole s probe current) (later : 0 < i)
    (here : s.goroutines[i]? = some pc) (busy : pc ≠ .done) :
    pc = current ∧ ∀ a, Sole (s.move i a) probe a.pc := by
  obtain ⟨finished, all, ⟨before, _⟩ | before⟩ := sole
  · rw [before] at here
    cases i with
    | zero => exact absurd later (Nat.lt_irrefl 0)
    | succ i => exact absurd (all pc (mem_of_getElem? here)) busy
  · rw [before] at here
    cases i with
    | zero => exact absurd later (Nat.lt_irrefl 0)
    | succ i =>
      rw [getElem?_cons_succ, getElem?_append] at here
      split_ifs at here with old
      · exact absurd (all pc (mem_of_getElem? here)) busy
      · obtain ⟨bound, same⟩ := List.getElem?_eq_some_iff.mp here
        rw [length_singleton] at bound
        obtain rfl : i = finished.length := by omega
        refine ⟨by simpa using same.symm, fun a => ⟨finished, all, .inr ?_⟩⟩
        rw [Run.move, before]
        simp

theorem Sole.current_done {probe current : Pc} (sole : Sole s probe current)
    (idle : callsDone s = true) : current = .done := by
  unfold callsDone at idle
  obtain ⟨finished, _, ⟨_, rest⟩ | before⟩ := sole
  · exact rest
  · rw [before] at idle
    simp only [tail_cons, all_eq_true, decide_eq_true_eq] at idle
    exact idle current (by simp)

theorem Sole.call {probe : Pc} (sole : Sole s probe .done)
    (goroutines : s'.goroutines = s.goroutines ++ [.loadReady]) : Sole s' probe .loadReady := by
  obtain ⟨finished, all, ⟨before, _⟩ | before⟩ := sole
  · exact ⟨finished, all, .inr (by rw [goroutines, before]; rfl)⟩
  · refine ⟨finished ++ [.done], ?_, .inr (by rw [goroutines, before]; rfl)⟩
    intro pc member
    rcases mem_append.mp member with old | last
    · exact all pc old
    · exact mem_singleton.mp last

structure Sequenced (cfg : Config) (s : Run) (marks : List Mark) (probe current : Pc) : Prop where
  config : s.cb.config = cfg
  sole : Sole s probe current
  probes : Probes s.cb probe
  expects : Expects cfg s.cb marks current
  calls : s.cb.totalCalls = s.cb.successCalls + s.cb.failedCalls + uncounted current
  opens : s.cb.openCount = UInt64.ofNat (s.trace.countP entersOpen)

variable {marks : List Mark}

section
variable (sequenced : Sequenced cfg s marks probe current)
include sequenced

theorem Sequenced.stepCall (nonzero : cfg.FailureThreshold ≠ 0 ∧ cfg.SuccessThreshold ≠ 0)
    (here : s.goroutines[i]? = some pc) (later : 0 < i) (idle : s.goroutines[0]? = some .done)
    (accessed : access s.cb s.now ok pc = some a) :
    Sequenced cfg (s.move i a) (mark ok pc ++ marks) probe a.pc := by
  have takes := access_takes accessed
  have busy : pc ≠ .done := by
    rintro rfl
    cases takes
  obtain ⟨rfl, sole⟩ := sequenced.sole.busy later here busy
  have resting := sequenced.sole.probe
  rw [idle] at resting
  cases resting
  exact {
    config := takes.config.trans sequenced.config
    sole := sole a
    probes := trivial
    expects := sequenced.expects.access sequenced.config nonzero accessed
    calls := sequenced.expects.calls takes sequenced.calls
    opens := sequenced.expects.opens takes sequenced.opens }

theorem Sequenced.stepProbe (nonzero : cfg.SuccessThreshold ≠ 0) (here : s.goroutines[0]? = some pc)
    (takes : Takes s.cb s.now pc a) (ok : Bool) :
    Sequenced cfg (s.move 0 a) (mark ok pc ++ marks) a.pc current := by
  have ticking := sequenced.sole.probe
  rw [here] at ticking
  cases ticking
  have sole : Sole (s.move 0 a) a.pc current := sequenced.sole.set_probe rfl
  have opens (same : a.cb.openCount = s.cb.openCount) (none : a.events.countP entersOpen = 0) :
      a.cb.openCount = UInt64.ofNat ((a.events ++ s.trace).countP entersOpen) := by
    rw [countP_append, none, Nat.zero_add, same]
    exact sequenced.opens
  obtain ⟨probes, ⟨same, unmarked, none⟩ | ⟨opened, moved, marked, none⟩⟩ :=
    sequenced.probes.takes takes ok
  · refine ⟨takes.config.trans sequenced.config, sole, probes, ?_, ?_, opens (by rw [same]) none⟩
    · simp only [Run.move, same, unmarked, nil_append]
      exact sequenced.expects
    · simp only [Run.move, same]
      exact sequenced.calls
  · refine ⟨takes.config.trans sequenced.config, sole, probes, ?_, ?_,
      opens (by rw [moved]; rfl) none⟩
    · simp only [Run.move, moved, marked, singleton_append]
      exact sequenced.expects.probed opened nonzero
    · simp only [Run.move, moved]
      exact sequenced.calls

theorem Sequenced.step (nonzero : cfg.FailureThreshold ≠ 0 ∧ cfg.SuccessThreshold ≠ 0)
    (alone : Alone s action) (next : runStep s action = some s') :
    ∃ probe current, Sequenced cfg s' (marksOf s action ++ marks) probe current := by
  cases action with
  | advance d =>
    cases next
    exact ⟨probe, current, { sequenced with }⟩
  | call =>
    cases next
    have idle : current = .done := sequenced.sole.current_done alone
    subst idle
    refine ⟨probe, .loadReady, { sequenced with sole := sequenced.sole.call rfl, calls := ?_ }⟩
    have counted : s.cb.totalCalls = s.cb.successCalls + s.cb.failedCalls + 0 := sequenced.calls
    rw [UInt64.add_zero] at counted
    exact congrArg (· + 1) counted
  | tick =>
    cases runStep_moves next
    exact ⟨.loadProbe, current,
      { sequenced with sole := sequenced.sole.set_probe rfl, probes := trivial }⟩
  | step i ok =>
    simp only [runStep] at next
    cases here : s.goroutines[i]? with
    | none =>
      rw [here] at next
      cases next
    | some pc =>
      rw [here] at next
      obtain ⟨a, accessed, rfl⟩ := Option.map_eq_some_iff.mp next
      rw [marksOf, here, Option.map_some, Option.getD_some]
      cases i with
      | zero =>
        exact ⟨a.pc, current, sequenced.stepProbe nonzero.2 here (access_takes accessed) ok⟩
      | succ i =>
        exact ⟨probe, a.pc, sequenced.stepCall nonzero here (Nat.succ_pos i)
          (alone (Nat.succ_pos i)) accessed⟩

theorem Sequenced.run (nonzero : cfg.FailureThreshold ≠ 0 ∧ cfg.SuccessThreshold ≠ 0)
    (run : runSchedule runStep s schedule = some s') (alone : Along runStep Alone s schedule) :
    ∃ probe current, Sequenced cfg s' (history s marks schedule) probe current := by
  induction schedule generalizing s marks probe current with
  | nil =>
    cases run
    exact ⟨probe, current, sequenced⟩
  | cons action actions ih =>
    obtain ⟨middle, next, rest⟩ := runSchedule_cons.mp run
    obtain ⟨probe', current', sequenced'⟩ := sequenced.step nonzero alone.1 next
    rw [history, next]
    exact ih sequenced' rest (alone.2 middle next)

end

theorem sequenced_start (config : Config) (now : Int) :
    Sequenced config.withDefaults (start config now) [] .done .done where
  config := rfl
  sole := ⟨[], by simp, .inl ⟨rfl, rfl⟩⟩
  probes := trivial
  expects := .inl ⟨rfl, rfl, UInt32.pos_iff_ne_zero.mpr (withDefaults_ne_zero config).1⟩
  calls := rfl
  opens := rfl

structure Settled (cfg : Config) (cb : CircuitBreaker) (marks : List Mark) (trace : List Event) :
    Prop where
  shape : cb.state = .closed ∧ cb.failures.toNat = streak marks ∧
        cb.failures < cfg.FailureThreshold ∨
      cb.state = .opened ∨
      cb.state = .halfOpen ∧ cb.failures = 0 ∧ cb.successes < cfg.SuccessThreshold
  calls : cb.metrics.TotalCalls = cb.metrics.SuccessCalls + cb.metrics.FailedCalls
  opens : cb.metrics.OpenCount = UInt64.ofNat (trace.countP entersOpen)

end NexusPipe.Proof.Circuit
