import NexusPipe.Proof.Circuit.HalfOpen

namespace NexusPipe.Proof.Circuit
open NexusPipe.Circuit Library List

variable {cb : CircuitBreaker} {now : Int} {ok : Bool} {pc : Pc} {a : Access} {s s' : Run}

/-! ## What a pending change owes to the counters -/

def opens : Pc → Bool
  | .loadOld newState _ => newState = .opened
  | .store _ newState _ => newState = .opened
  | _ => false

def attends : Pc → Bool
  | .notify _ newState after => newState = .halfOpen ∧ after = .run
  | .callFn | .countFailure | .stampFailure | .loadFailure | .addHalfOpenFailure
  | .countSuccess | .loadSuccess | .addSuccess | .reset => true
  | pc => opens pc

def probes : Pc → Bool
  | .loadProbe | .checkProbe => true
  | .loadOld newState after => newState = .halfOpen ∧ after = .finish
  | .store _ newState after => newState = .halfOpen ∧ after = .finish
  | _ => false

theorem not_le_zero {n : UInt32} (nonzero : n ≠ 0) : ¬ n ≤ 0 := by
  rw [UInt32.le_iff_toNat_le, UInt32.toNat_zero]
  exact not_le.mpr (toNat_pos nonzero)

def failing (cb : CircuitBreaker) : Prop :=
  cb.state = .halfOpen ∧ cb.config.FailureThreshold ≤ cb.failures

def succeeding (cb : CircuitBreaker) : Prop :=
  cb.state = .halfOpen ∧ cb.config.SuccessThreshold ≤ cb.successes

section
variable (takes : Takes cb now pc a)
include takes

theorem Takes.failing (nonzero : cb.config.FailureThreshold ≠ 0) (due : failing a.cb) :
    opens a.pc = true ∨ Circuit.failing cb ∧ opens pc = false := by
  obtain ⟨inside, reached⟩ := due
  have positive := not_le_zero nonzero
  cases takes with
  | addHalfOpenFailure | trip => exact .inl rfl
  | tolerate below => exact absurd reached (UInt32.not_le.mpr below)
  | clearFailures | store => exact absurd reached positive
  | reset => cases inside
  | already after =>
    rw [leave_cb] at inside reached
    exact .inr ⟨⟨inside, reached⟩, by simp [opens, inside]⟩
  | loadOld newState after different =>
    cases newState with
    | opened => exact .inl rfl
    | closed | halfOpen => exact .inr ⟨⟨inside, reached⟩, rfl⟩
  | notify old newState after =>
    rw [leave_cb] at inside reached
    exact .inr ⟨⟨inside, reached⟩, rfl⟩
  | _ => exact .inr ⟨⟨inside, reached⟩, rfl⟩

theorem Takes.succeeding (nonzero : cb.config.SuccessThreshold ≠ 0) (due : succeeding a.cb) :
    a.pc = .reset ∨ Circuit.succeeding cb ∧ pc ≠ .reset := by
  obtain ⟨inside, reached⟩ := due
  have positive := not_le_zero nonzero
  cases takes with
  | recover => exact .inl rfl
  | await below => exact absurd reached (UInt32.not_le.mpr below)
  | store => exact absurd reached positive
  | reset => cases inside
  | already after | notify old newState after =>
    rw [leave_cb] at inside reached
    exact .inr ⟨⟨inside, reached⟩, by simp⟩
  | _ => exact .inr ⟨⟨inside, reached⟩, by simp⟩

theorem Takes.attends (single : cb.config.SuccessThreshold = 1) (unprobed : probes pc = false)
    (inside : a.cb.state = .halfOpen) : attends a.pc = true ∨ cb.state = .halfOpen ∧
      (attends pc = false ∨ pc = .addSuccess ∧ Circuit.succeeding cb) := by
  cases takes with
  | admitClosed | room | succeed | fail | countFailure | stampFailure | failHalfOpen | addHalfOpenFailure
  | trip | countSuccess | succeedHalfOpen | recover => exact .inl rfl
  | failClosed seen | failOpened seen | succeedClosed seen | succeedOpened seen | probe seen =>
    rw [inside] at seen
    cases seen
  | await below =>
    -- only a counter that wraps around stays below one
    refine .inr ⟨inside, .inr ⟨rfl, inside, ?_⟩⟩
    rw [single, UInt32.lt_iff_toNat_lt, UInt32.toNat_add, UInt32.toNat_one] at below
    rw [single, UInt32.le_iff_toNat_le, UInt32.toNat_one]
    omega
  | reset => cases inside
  | already after =>
    cases after with
    | run => exact .inl rfl
    | finish =>
      rw [leave_cb] at inside
      exact .inr ⟨inside, .inl (by simp [Circuit.attends, opens, inside])⟩
  | loadOld newState after different =>
    cases newState with
    | opened => exact .inl rfl
    | closed | halfOpen => exact .inr ⟨inside, .inl rfl⟩
  | store old newState after =>
    cases inside
    cases after with
    | run => exact .inl rfl
    | finish => cases unprobed
  | notify old newState after =>
    cases after with
    | run => exact .inl rfl
    | finish =>
      rw [leave_cb] at inside
      exact .inr ⟨inside, .inl (by simp [Circuit.attends])⟩
  | _ => exact .inr ⟨inside, .inl rfl⟩

theorem Takes.probes (unprobed : probes pc = false) : probes a.pc = false := by
  cases takes with
  | probe | probeExpired => cases unprobed
  | loadOld newState after different => exact unprobed
  | already after | notify old newState after => cases after <;> rfl
  | _ => rfl

end

def Has (goroutines : List Pc) (P : Pc → Bool) : Prop :=
  ∃ (i : Nat) (pc : Pc), goroutines[i]? = some pc ∧ P pc = true

variable {goroutines : List Pc}

theorem Has.set (here : goroutines[i]? = some pc)
    (has : P pc' = true ∨ Has goroutines P ∧ P pc = false) : Has (goroutines.set i pc') P := by
  rcases has with own | ⟨⟨j, other, there, kind⟩, differs⟩
  · exact ⟨i, pc', getElem?_set_of_found here pc', own⟩
  · refine ⟨j, other, ?_, kind⟩
    rw [getElem?_set_ne, there]
    rintro rfl
    rw [here, Option.some.injEq] at there
    rw [← there, differs] at kind
    cases kind

theorem Moves.has (moves : Moves s action s') (due : CircuitBreaker → Prop)
    (owes : due s.cb → Has s.goroutines P) (busy : P .done = false)
    (calls : due { s.cb with totalCalls := s.cb.totalCalls + 1 } → due s.cb)
    (accesses : ∀ (i : Nat) pc a, s.goroutines[i]? = some pc → Takes s.cb s.now pc a → due a.cb →
      Has (s.goroutines.set i a.pc) P) (due' : due s'.cb) : Has s'.goroutines P := by
  cases moves with
  | advance d => exact owes due'
  | call =>
    obtain ⟨i, pc, here, kind⟩ := owes (calls due')
    exact ⟨i, pc, getElem?_concat_of_found here _, kind⟩
  | tick ticking idle => exact .set idle (.inr ⟨owes due', busy⟩)
  | step i ok here takes => exact accesses i _ _ here takes due'

structure Attended (s : Run) : Prop where
  thresholds : s.cb.config.FailureThreshold ≠ 0 ∧ s.cb.config.SuccessThreshold ≠ 0
  failures : failing s.cb → Has s.goroutines opens
  successes : succeeding s.cb → Has s.goroutines (· = .reset)
  unprobed : s.cb.config.HalfOpenProbeInterval ≤ 0 →
    ∀ (i : Nat) pc, s.goroutines[i]? = some pc → probes pc = false
  entrant : s.cb.config.HalfOpenProbeInterval ≤ 0 → s.cb.config.SuccessThreshold = 1 →
    s.cb.state = .halfOpen → Has s.goroutines attends

theorem Attended.step (t : Attended s) (moves : Moves s action s') : Attended s' := by
  refine ⟨?_, moves.has failing t.failures rfl id ?_,
    moves.has succeeding t.successes rfl id ?_, ?_, ?_⟩
  · rw [moves.config]
    exact t.thresholds
  · intro i pc a here takes due
    exact .set here ((takes.failing t.thresholds.1 due).imp_right (.imp_left t.failures))
  · intro i pc a here takes due
    rcases takes.succeeding t.thresholds.2 due with own | ⟨before, other⟩
    · exact .set here (.inl (decide_eq_true own))
    · exact .set here (.inr ⟨t.successes before, decide_eq_false other⟩)
  · rw [moves.config]
    intro silent
    apply moves.goroutines (fun _ pc => probes pc = false) (t.unprobed silent)
    · exact ⟨rfl, fun ticking => absurd ticking (not_lt.mpr silent)⟩
    · exact fun _ unprobed => unprobed
    · exact fun i pc a here takes _ => takes.probes (t.unprobed silent i pc here)
  · rw [moves.config]
    intro silent single
    apply moves.has (fun cb => cb.state = .halfOpen) (t.entrant silent single) rfl id
    intro i pc a here takes inside
    rcases takes.attends single (t.unprobed silent i pc here) inside with
      own | ⟨before, other | ⟨rfl, reached⟩⟩
    · exact .set here (.inl own)
    · exact .set here (.inr ⟨t.entrant silent single before, other⟩)
    · obtain ⟨j, pc, there, resets⟩ : Has (s.goroutines.set i a.pc) (· = .reset) :=
        .set here (.inr ⟨t.successes reached, rfl⟩)
      rw [decide_eq_true_eq] at resets
      exact ⟨j, pc, there, resets ▸ rfl⟩

theorem run_attended (run : runSchedule runStep (start config now) schedule = some s) :
    Attended s := by
  have nonzero := withDefaults_ne_zero config
  apply runSchedule_invariant Attended (fun _ _ _ t next => t.step (runStep_moves next)) run
  refine ⟨⟨nonzero.1, nonzero.2.1⟩, ?_, ?_, ?_, ?_⟩
  · rintro ⟨inside, _⟩
    cases inside
  · rintro ⟨inside, _⟩
    cases inside
  · intro _ i pc found
    rw [mem_singleton.mp (mem_of_getElem? found)]
    rfl
  · intro _ _ inside
    cases inside

def Quiescent (s : Run) : Prop := ∀ pc ∈ s.goroutines, pc = .done

theorem Quiescent.not_has (quiescent : Quiescent s) (busy : P .done = false) : ¬ Has s.goroutines P := by
  rintro ⟨i, pc, here, kind⟩
  rw [quiescent pc (mem_of_getElem? here), busy] at kind
  cases kind

theorem Attended.quiescent (t : Attended s) (quiescent : Quiescent s)
    (inside : s.cb.state = .halfOpen) : s.cb.failures < s.cb.config.FailureThreshold ∧
      s.cb.successes < s.cb.config.SuccessThreshold ∧
      ¬ (s.cb.config.HalfOpenProbeInterval ≤ 0 ∧ s.cb.config.SuccessThreshold = 1) := by
  refine ⟨UInt32.not_le.mp fun reached => ?_, UInt32.not_le.mp fun reached => ?_, ?_⟩
  · exact quiescent.not_has rfl (t.failures ⟨inside, reached⟩)
  · exact quiescent.not_has rfl (t.successes ⟨inside, reached⟩)
  · rintro ⟨silent, single⟩
    exact quiescent.not_has rfl (t.entrant silent single inside)

/-! ## One goroutine at a time -/

def drive (now : Int) (ok : Bool) : Nat → CircuitBreaker → Pc → Option (CircuitBreaker × Pc)
  | 0, cb, pc => some (cb, pc)
  | n + 1, cb, pc => (access cb now ok pc).bind fun a => drive now ok n a.cb a.pc

def Drives (now : Int) (ok : Bool) (cb : CircuitBreaker) (pc : Pc) (cb' : CircuitBreaker) (pc' : Pc) :
    Prop :=
  ∃ n, drive now ok n cb pc = some (cb', pc')

theorem Drives.trans (first : Drives now ok cb pc cb' pc')
    (second : Drives now ok cb' pc' cb'' pc'') : Drives now ok cb pc cb'' pc'' := by
  obtain ⟨n, first⟩ := first
  obtain ⟨m, second⟩ := second
  refine ⟨n + m, ?_⟩
  induction n generalizing cb pc with
  | zero =>
    cases first
    rw [Nat.zero_add]
    exact second
  | succ n ih =>
    obtain ⟨a, accessed, rest⟩ := Option.bind_eq_some_iff.mp first
    rw [Nat.add_right_comm, drive, accessed, Option.bind_some]
    exact ih rest

theorem drives_setState (different : cb.state ≠ newState) (after : After) :
    Drives now ok cb (.loadOld newState after) (cb.setState newState now)
      (leave cb [] after).pc := by
  refine ⟨3, ?_⟩
  cases after <;> simp [drive, access, leave, different]

theorem drives_closed_failure (closed : cb.state = .closed) :
    Drives now false cb .loadReady
      { cb with failedCalls := cb.failedCalls + 1, lastFailure := now } .addClosedFailure :=
  ⟨5, by simp [drive, access, closed]⟩

theorem drives_tolerated (below : ¬ cb.config.FailureThreshold ≤ cb.failures + 1) :
    Drives now ok cb .addClosedFailure { cb with failures := cb.failures + 1 } .done :=
  ⟨1, by simp only [drive, access, ge_iff_le, if_neg below, Option.bind_some]⟩

theorem drives_tripped (closed : cb.state = .closed)
    (reached : cb.config.FailureThreshold ≤ cb.failures + 1) :
    Drives now ok cb .addClosedFailure
      ({ cb with failures := cb.failures + 1 }.setState .opened now) .done := by
  refine .trans ⟨1, ?_⟩ (drives_setState (by simp [closed]) .finish)
  simp only [drive, access, ge_iff_le, if_pos reached, Option.bind_some]

theorem drives_entered (opened : cb.state = .opened) (expired : cb.expired now = true) :
    Drives now ok cb .loadReady (cb.setState .halfOpen now) .callFn :=
  .trans ⟨2, by simp [drive, access, opened, expired]⟩ (drives_setState (by simp [opened]) .run)

theorem drives_probed (opened : cb.state = .opened) (expired : cb.expired now = true) :
    Drives now ok cb .loadProbe (cb.setState .halfOpen now) .done :=
  .trans ⟨2, by simp [drive, access, opened, expired]⟩ (drives_setState (by simp [opened]) .finish)

theorem drives_admitted (inside : cb.state = .halfOpen)
    (room : ¬ cb.config.HalfOpenMaxCalls ≤ cb.total) : Drives now ok cb .loadReady cb .callFn :=
  ⟨2, by simp only [drive, access, inside, ge_iff_le, if_neg room, Option.bind_some]⟩

theorem drives_succeeded (inside : cb.state = .halfOpen)
    (below : ¬ cb.config.SuccessThreshold ≤ cb.successes + 1) :
    Drives now true cb .callFn
      { cb with successCalls := cb.successCalls + 1, successes := cb.successes + 1 } .done :=
  ⟨4, by simp [drive, access, inside, -UInt32.not_le, below]⟩

theorem drives_recovered (inside : cb.state = .halfOpen)
    (reached : cb.config.SuccessThreshold ≤ cb.successes + 1) :
    Drives now true cb .callFn ({ cb with
      successCalls := cb.successCalls + 1, successes := cb.successes + 1 }.reset now) .done :=
  ⟨6, by simp [drive, access, leave, inside, reached]⟩

def Leads (allowed : Action → Prop) (s s' : Run) : Prop :=
  ∃ actions, (∀ a ∈ actions, allowed a) ∧ runSchedule runStep s actions = some s'

variable {allowed : Action → Prop}

theorem Leads.refl (s : Run) : Leads allowed s s := ⟨[], by simp, rfl⟩

theorem Leads.trans (first : Leads allowed s s') (second : Leads allowed s' s'') :
    Leads allowed s s'' := by
  obtain ⟨actions, all, run⟩ := first
  obtain ⟨more, all', run'⟩ := second
  refine ⟨actions ++ more, fun a member => ?_, runSchedule_append run run'⟩
  rcases mem_append.mp member with early | late
  · exact all a early
  · exact all' a late

theorem Leads.single {a : Action} (permitted : allowed a) (next : runStep s a = some s') :
    Leads allowed s s' :=
  ⟨[a], by simpa using permitted, runSchedule_cons.mpr ⟨s', next, rfl⟩⟩

theorem Leads.mono (leads : Leads allowed s s') (weaker : ∀ a, allowed a → allowed' a) :
    Leads allowed' s s' := by
  obtain ⟨actions, all, run⟩ := leads
  exact ⟨actions, fun a member => weaker a (all a member), run⟩

variable (allowed) in
theorem drive_leads {i : Nat} {cb' : CircuitBreaker} {pc' : Pc}
    (permitted : allowed (.step i ok)) (here : s.goroutines[i]? = some pc)
    (drives : Drives s.now ok s.cb pc cb' pc') :
    ∃ s', Leads allowed s s' ∧ s'.cb = cb' ∧ s'.goroutines = s.goroutines.set i pc' := by
  obtain ⟨n, driven⟩ := drives
  induction n generalizing s pc with
  | zero =>
    cases driven
    refine ⟨s, .refl s, rfl, ?_⟩
    obtain ⟨bound, rfl⟩ := List.getElem?_eq_some_iff.mp here
    rw [set_getElem_self]
  | succ n ih =>
    obtain ⟨a, accessed, driven⟩ := Option.bind_eq_some_iff.mp driven
    have next := runStep_step here accessed
    obtain ⟨s', leads, cb, goroutines⟩ := ih (move_own here a) driven
    refine ⟨s', (Leads.single permitted next).trans leads, cb, ?_⟩
    rw [goroutines, Run.move, set_set]

def entered (cb : CircuitBreaker) : CircuitBreaker := { cb with totalCalls := cb.totalCalls + 1 }

variable (allowed) in
theorem call_leads {cb' : CircuitBreaker} {pc' : Pc} (permitted : allowed .call)
    (permitted' : ∀ i, allowed (.step i ok))
    (drives : Drives s.now ok (entered s.cb) .loadReady cb' pc') :
    ∃ s', Leads allowed s s' ∧ s'.cb = cb' ∧ s'.goroutines = s.goroutines ++ [pc'] := by
  have here : (s.goroutines ++ [Pc.loadReady])[s.goroutines.length]? = some .loadReady := by simp
  obtain ⟨s', leads, cb, goroutines⟩ := drive_leads allowed
    (s := { s with cb := entered s.cb, goroutines := s.goroutines ++ [.loadReady] })
    (permitted' s.goroutines.length) here drives
  refine ⟨s', (Leads.single permitted rfl).trans leads, cb, ?_⟩
  rw [goroutines]
  simp

/-! ## Runs to chosen counts -/

structure Parked (goroutines : List Pc) (parked : Nat) : Prop where
  count : goroutines.count .addClosedFailure = parked
  only : ∀ pc ∈ goroutines, pc = .done ∨ pc = .addClosedFailure
  probe : goroutines[0]? = some .done

theorem Parked.concat (parked : Parked goroutines k) (pc : Pc)
    (kind : pc = .done ∨ pc = .addClosedFailure) :
    Parked (goroutines ++ [pc]) (k + if pc = .addClosedFailure then 1 else 0) := by
  refine ⟨?_, ?_, ?_⟩
  · rw [count_append, parked.count, count_singleton]
    simp
  · intro pc' member
    rcases mem_append.mp member with old | new
    · exact parked.only pc' old
    · rw [mem_singleton.mp new]
      exact kind
  · rw [getElem?_append_left (List.getElem?_eq_some_iff.mp parked.probe).1]
    exact parked.probe

theorem Parked.release (parked : Parked goroutines (k + 1)) :
    ∃ i : Nat, goroutines[i]? = some .addClosedFailure ∧ Parked (goroutines.set i .done) k := by
  have member : Pc.addClosedFailure ∈ goroutines := by
    rw [← count_pos_iff, parked.count]
    exact Nat.succ_pos k
  obtain ⟨i, here⟩ := mem_iff_getElem?.mp member
  obtain ⟨bound, value⟩ := List.getElem?_eq_some_iff.mp here
  refine ⟨i, here, ?_, ?_, ?_⟩
  · rw [count_set bound, parked.count, value]
    rfl
  · intro pc set
    rcases mem_or_eq_of_mem_set set with old | rfl
    · exact parked.only pc old
    · exact .inl rfl
  · have other : i ≠ 0 := by
      rintro rfl
      rw [parked.probe] at here
      cases here
    rw [getElem?_set_ne other]
    exact parked.probe

structure Counts (cb : CircuitBreaker) (config : Config) (state : State)
    (failures successes : Nat) : Prop where
  settings : cb.config = config
  current : cb.state = state
  failed : cb.failures.toNat = failures
  succeeded : cb.successes.toNat = successes

structure Stands (s : Run) (config : Config) (state : State) (failures successes parked : Nat) :
    Prop extends Counts s.cb config state failures successes where
  waiting : Parked s.goroutines parked

def LeadsTo (allowed : Action → Prop) (s : Run) (config : Config) (state : State)
    (failures successes parked : Nat) : Prop :=
  ∃ s', Leads allowed s s' ∧ Stands s' config state failures successes parked

variable {config : Config} {state : State}

theorem LeadsTo.of_call (permitted : allowed .call) (permitted' : ∀ i, allowed (.step i ok))
    (waiting : Parked s.goroutines k) (drives : Drives s.now ok (entered s.cb) .loadReady cb' pc')
    (counts : Counts cb' config state f x) (kind : pc' = .done ∨ pc' = .addClosedFailure) :
    LeadsTo allowed s config state f x (k + if pc' = .addClosedFailure then 1 else 0) := by
  obtain ⟨s', leads, rfl, goroutines⟩ := call_leads allowed permitted permitted' drives
  exact ⟨s', leads, counts, goroutines ▸ waiting.concat pc' kind⟩

theorem LeadsTo.of_release (waiting : Parked s.goroutines (k + 1))
    (permitted : ∀ i, allowed (.step i ok))
    (drives : Drives s.now ok s.cb .addClosedFailure cb' .done)
    (counts : Counts cb' config state f x) : LeadsTo allowed s config state f x k := by
  obtain ⟨i, here, parked⟩ := waiting.release
  obtain ⟨s', leads, rfl, goroutines⟩ := drive_leads allowed (permitted i) here drives
  exact ⟨s', leads, counts, goroutines ▸ parked⟩

def Peaceful : Action → Prop
  | .advance _ | .call => True
  | .tick => False
  | .step _ ok => ok = true

def anything : Action → Prop := fun _ => True

theorem Stands.park (stands : Stands s config .closed f x k) :
    LeadsTo anything s config .closed f x (k + 1) := by
  have drives : Drives s.now false (entered s.cb) .loadReady _ .addClosedFailure :=
    drives_closed_failure stands.current
  exact .of_call trivial (fun _ => trivial) stands.waiting drives
    ⟨stands.settings, stands.current, stands.failed, stands.succeeded⟩ (.inr rfl)

theorem Counts.failures_succ (counts : Counts cb config state f x)
    (le : f + 1 ≤ config.FailureThreshold.toNat) : (cb.failures + 1).toNat = f + 1 := by
  rw [← counts.failed] at le ⊢
  exact toNat_succ_of_le _ le

theorem Counts.successes_succ (counts : Counts cb config state f x)
    (le : x + 1 ≤ config.SuccessThreshold.toNat) : (cb.successes + 1).toNat = x + 1 := by
  rw [← counts.succeeded] at le ⊢
  exact toNat_succ_of_le _ le

theorem Counts.toNat_total (counts : Counts cb config state f x) (small : f + x < 2 ^ 32) :
    cb.total.toNat = f + x := by
  rw [CircuitBreaker.total, UInt32.toNat_add, counts.failed, counts.succeeded,
    Nat.mod_eq_of_lt small]

theorem Stands.release (stands : Stands s config state f x (k + 1))
    (below : f + 1 < config.FailureThreshold.toNat) :
    LeadsTo anything s config state (f + 1) x k := by
  have counted := stands.failures_succ (Nat.le_of_lt below)
  have small : ¬ s.cb.config.FailureThreshold ≤ s.cb.failures + 1 := by
    rw [UInt32.le_iff_toNat_le, counted, stands.settings]
    exact not_le.mpr below
  have drives : Drives s.now true s.cb .addClosedFailure _ .done := drives_tolerated small
  exact .of_release stands.waiting (fun _ => trivial) drives
    ⟨stands.settings, stands.current, counted, stands.succeeded⟩

theorem Stands.trip (stands : Stands s config .closed f x (k + 1))
    (reached : f + 1 = config.FailureThreshold.toNat) :
    LeadsTo anything s config .opened 0 0 k := by
  have large : s.cb.config.FailureThreshold ≤ s.cb.failures + 1 := by
    rw [UInt32.le_iff_toNat_le, stands.failures_succ (Nat.le_of_eq reached), stands.settings,
      reached]
  have drives : Drives s.now true s.cb .addClosedFailure _ .done :=
    drives_tripped stands.current large
  exact .of_release stands.waiting (fun _ => trivial) drives ⟨stands.settings, rfl, rfl, rfl⟩

def Expires (config : Config) : Prop := 0 < config.Timeout ∧ config.Timeout < maxDuration

theorem Stands.wait (stands : Stands s config state f x k) (expires : Expires config) :
    ∃ s', Leads Peaceful s s' ∧ Stands s' config state f x k ∧ s'.cb.expired s'.now = true := by
  let d := (s.cb.lastStateChange + config.Timeout + 1 - s.now).toNat
  have advances : runStep s (.advance d) = some { s with now := s.now + d } := rfl
  have peaceful : Peaceful (.advance d) := trivial
  refine ⟨_, .single peaceful advances, ⟨stands.toCounts, stands.waiting⟩, ?_⟩
  obtain ⟨positive, finite⟩ := expires
  have passed : config.Timeout < s.now + d - s.cb.lastStateChange := by omega
  simp only [CircuitBreaker.expired, since, stands.settings, gt_iff_lt, lt_min_iff,
    decide_eq_true_eq]
  exact ⟨positive, passed, finite⟩

section
variable (stands : Stands s config .opened f x k) (expired : s.cb.expired s.now = true)
include stands expired

theorem Stands.probeByCall (several : 1 < config.SuccessThreshold.toNat) :
    LeadsTo Peaceful s config .halfOpen 0 1 k := by
  have early : ¬ s.cb.config.SuccessThreshold ≤ 0 + 1 := by
    rw [UInt32.le_iff_toNat_le, stands.settings]
    exact not_le.mpr several
  have enters : Drives s.now true (entered s.cb) .loadReady _ .callFn :=
    drives_entered stands.current expired
  exact .of_call trivial (fun _ => rfl) stands.waiting (enters.trans (drives_succeeded rfl early))
    ⟨stands.settings, rfl, rfl, rfl⟩ (.inl rfl)

theorem Stands.closeByCall (single : config.SuccessThreshold.toNat = 1) :
    LeadsTo Peaceful s config .closed 0 0 k := by
  have reached : s.cb.config.SuccessThreshold ≤ 0 + 1 := by
    rw [UInt32.le_iff_toNat_le, stands.settings, single]
    rfl
  have enters : Drives s.now true (entered s.cb) .loadReady _ .callFn :=
    drives_entered stands.current expired
  exact .of_call trivial (fun _ => rfl) stands.waiting (enters.trans (drives_recovered rfl reached))
    ⟨stands.settings, rfl, rfl, rfl⟩ (.inl rfl)

theorem Stands.probeByTick (ticking : 0 < config.HalfOpenProbeInterval) :
    LeadsTo anything s config .halfOpen 0 0 k := by
  obtain ⟨bound, value⟩ := List.getElem?_eq_some_iff.mp stands.waiting.probe
  have ticks : runStep s .tick = some { s with goroutines := s.goroutines.set 0 .loadProbe } := by
    simp only [runStep, stands.settings, gt_iff_lt, ticking, stands.waiting.probe, and_self,
      ↓reduceIte]
  have probes : Drives s.now true s.cb .loadProbe _ .done := drives_probed stands.current expired
  obtain ⟨s', leads, cb, goroutines⟩ := drive_leads anything
    (s := { s with goroutines := s.goroutines.set 0 .loadProbe }) (i := 0) trivial
    (getElem?_set_self bound) probes
  refine ⟨s', (Leads.single trivial ticks).trans leads, ?_, ?_⟩
  · rw [cb]
    exact ⟨stands.settings, rfl, rfl, rfl⟩
  · rw [goroutines, set_set, ← value, set_getElem_self]
    exact stands.waiting

end

section
variable (stands : Stands s config .halfOpen f x k) (room : f + x < config.HalfOpenMaxCalls.toNat)
include stands room

theorem Stands.admitted : Drives s.now true (entered s.cb) .loadReady (entered s.cb) .callFn := by
  have limit := config.HalfOpenMaxCalls.toNat_lt
  have free : ¬ s.cb.config.HalfOpenMaxCalls ≤ s.cb.total := by
    rw [UInt32.le_iff_toNat_le, stands.settings, stands.toNat_total (by omega)]
    exact not_le.mpr room
  exact drives_admitted stands.current free

theorem Stands.succeed (below : x + 1 < config.SuccessThreshold.toNat) :
    LeadsTo Peaceful s config .halfOpen f (x + 1) k := by
  have counted := stands.successes_succ (Nat.le_of_lt below)
  have early : ¬ s.cb.config.SuccessThreshold ≤ s.cb.successes + 1 := by
    rw [UInt32.le_iff_toNat_le, counted, stands.settings]
    exact not_le.mpr below
  exact .of_call trivial (fun _ => rfl) stands.waiting
    ((stands.admitted room).trans (drives_succeeded stands.current early))
    ⟨stands.settings, stands.current, stands.failed, counted⟩ (.inl rfl)

theorem Stands.recover (reached : x + 1 = config.SuccessThreshold.toNat) :
    LeadsTo Peaceful s config .closed 0 0 k := by
  have due : s.cb.config.SuccessThreshold ≤ s.cb.successes + 1 := by
    rw [UInt32.le_iff_toNat_le, stands.successes_succ (Nat.le_of_eq reached), stands.settings,
      reached]
  exact .of_call trivial (fun _ => rfl) stands.waiting
    ((stands.admitted room).trans (drives_recovered stands.current due))
    ⟨stands.settings, rfl, rfl, rfl⟩ (.inl rfl)

end

theorem LeadsTo.trans (first : LeadsTo allowed s config state f x k)
    (second : ∀ s', Stands s' config state f x k → LeadsTo allowed s' config state' f' x' k') :
    LeadsTo allowed s config state' f' x' k' := by
  obtain ⟨middle, leads, stands⟩ := first
  obtain ⟨last, leads', stands'⟩ := second middle stands
  exact ⟨last, leads.trans leads', stands'⟩

theorem LeadsTo.anything (leadsTo : LeadsTo allowed s config state f x k) :
    LeadsTo anything s config state f x k := by
  obtain ⟨s', leads, stands⟩ := leadsTo
  exact ⟨s', leads.mono fun _ _ => trivial, stands⟩

theorem Stands.parks (n : Nat) (stands : Stands s config .closed f x k) :
    LeadsTo Circuit.anything s config .closed f x (k + n) := by
  induction n with
  | zero => exact ⟨s, .refl s, stands⟩
  | succ n ih => exact ih.trans fun _ parked => parked.park

theorem Stands.releases (n : Nat) (stands : Stands s config state f x (k + n))
    (below : f + n < config.FailureThreshold.toNat) :
    LeadsTo Circuit.anything s config state (f + n) x k := by
  induction n generalizing k with
  | zero => exact ⟨s, .refl s, stands⟩
  | succ n ih =>
    have more : Stands s config state f x (k + 1 + n) := by
      rwa [Nat.add_right_comm]
    exact (ih more (by omega)).trans fun _ released => released.release (by omega)

theorem Stands.succeeds (n : Nat) (stands : Stands s config .halfOpen f x k)
    (room : f + x + n ≤ config.HalfOpenMaxCalls.toNat)
    (below : x + n < config.SuccessThreshold.toNat) :
    LeadsTo Peaceful s config .halfOpen f (x + n) k := by
  induction n with
  | zero => exact ⟨s, .refl s, stands⟩
  | succ n ih =>
    exact (ih (by omega) (by omega)).trans fun _ counted =>
      counted.succeed (by omega) (by omega)

theorem Stands.recovers (stands : Stands s config .halfOpen f x k)
    (room : f + config.SuccessThreshold.toNat ≤ config.HalfOpenMaxCalls.toNat)
    (below : x < config.SuccessThreshold.toNat) : LeadsTo Peaceful s config .closed 0 0 k := by
  have last := stands.succeeds (config.SuccessThreshold.toNat - 1 - x) (by omega) (by omega)
  exact last.trans fun _ counted => counted.recover (by omega) (by omega)

theorem Stands.opens (stands : Stands s config .closed 0 x 0) (k : Nat)
    (positive : 0 < config.FailureThreshold.toNat) :
    LeadsTo Circuit.anything s config .opened 0 0 k := by
  have parked := stands.parks (k + 1 + (config.FailureThreshold.toNat - 1))
  rw [Nat.zero_add] at parked
  have counted := parked.trans fun _ waiting =>
    waiting.releases (config.FailureThreshold.toNat - 1) (by omega)
  rw [Nat.zero_add] at counted
  exact counted.trans fun _ waiting => waiting.trip (by omega)

/-! ## Breakers that never admit a call again -/

/-- No continuation, whatever the outcomes of the calls and the time that passes, admits a call or
changes the state. -/
def Rejects (s : Run) : Prop :=
  s.cb.state ≠ .closed ∧ ∀ continuation s', runSchedule runStep s continuation = some s' →
    s'.cb.state = s.cb.state ∧ s'.trace = s.trace

structure Idles (idle : Pc → Bool) (s₀ s : Run) : Prop where
  settings : s.cb.config = s₀.cb.config
  state : s.cb.state = s₀.cb.state
  counters : s.cb.total = s₀.cb.total
  trace : s.trace = s₀.trace
  goroutines : ∀ (i : Nat) pc, s.goroutines[i]? = some pc → idle pc = true

def Silent (idle : Pc → Bool) (s₀ : Run) : Prop :=
  ∀ cb now pc a, cb.config = s₀.cb.config → cb.state = s₀.cb.state → cb.total = s₀.cb.total →
    idle pc = true → Takes cb now pc a →
      a.cb.state = cb.state ∧ a.cb.total = cb.total ∧ a.events = [] ∧ idle a.pc = true

theorem Idles.step (idles : Idles idle s₀ s)
    (fresh : idle .loadReady = true ∧ idle .loadProbe = true) (silent : Silent idle s₀)
    (moves : Moves s action s') : Idles idle s₀ s' := by
  have goroutines := moves.goroutines (fun _ pc => idle pc = true) idles.goroutines
    (fresh.imp_right fun probe _ => probe) (fun _ idle => idle) fun i pc access here takes _ =>
      (silent _ _ _ _ idles.settings idles.state idles.counters (idles.goroutines i pc here)
        takes).2.2.2
  cases moves with
  | step i ok here takes =>
    obtain ⟨state, total, events, _⟩ := silent _ _ _ _ idles.settings idles.state idles.counters
      (idles.goroutines i _ here) takes
    refine ⟨takes.config.trans idles.settings, state.trans idles.state,
      total.trans idles.counters, ?_, goroutines⟩
    rw [Run.move, events]
    exact idles.trace
  | _ => exact ⟨idles.settings, idles.state, idles.counters, idles.trace, goroutines⟩

theorem Quiescent.rejects (quiescent : Quiescent s) (idle : Pc → Bool) (state : s.cb.state ≠ .closed)
    (fresh : idle .loadReady = true ∧ idle .loadProbe = true ∧ idle .done = true)
    (silent : Silent idle s) : Rejects s := by
  refine ⟨state, fun continuation s' run => ?_⟩
  have idles : Idles idle s s' := by
    apply runSchedule_invariant (Idles idle s) ?_ run
    · refine ⟨rfl, rfl, rfl, rfl, fun i pc found => ?_⟩
      rw [quiescent pc (mem_of_getElem? found)]
      exact fresh.2.2
    · intro s a s' idles next
      exact idles.step ⟨fresh.1, fresh.2.1⟩ silent (runStep_moves next)
  exact ⟨idles.state, idles.trace⟩

theorem Quiescent.rejects_halfOpen (quiescent : Quiescent s) (inside : s.cb.state = .halfOpen)
    (full : s.cb.config.HalfOpenMaxCalls ≤ s.cb.total) : Rejects s := by
  refine quiescent.rejects fresh (by rw [inside]; simp) ⟨rfl, rfl, rfl⟩ ?_
  intro cb now pc a settings state total idle takes
  rw [inside] at state
  rcases takes.of_fresh idle state with ⟨idle', failures, successes, events⟩ | ⟨_, room, _⟩
  · refine ⟨?_, by rw [CircuitBreaker.total, failures, successes, CircuitBreaker.total], events,
      idle'⟩
    cases takes with
    | already | notify | store => cases idle
    | reset => cases idle
    | _ => rfl
  · rw [settings, total] at room
    exact absurd full (UInt32.not_le.mpr room)

def turnedAway : Pc → Bool
  | .done | .loadReady | .checkTimeout | .countRejected | .loadProbe | .checkProbe => true
  | _ => false

theorem not_expired (never : ¬ Expires cb.config) (now : Int) : cb.expired now = false := by
  rw [Bool.eq_false_iff]
  intro expired
  simp only [CircuitBreaker.expired, since, gt_iff_lt, lt_min_iff, decide_eq_true_eq] at expired
  exact never ⟨expired.1, expired.2.2⟩

theorem Quiescent.rejects_opened (quiescent : Quiescent s) (opened : s.cb.state = .opened)
    (never : ¬ Expires s.cb.config) : Rejects s := by
  refine quiescent.rejects turnedAway (by rw [opened]; simp) ⟨rfl, rfl, rfl⟩ ?_
  intro cb now pc a settings state total idle takes
  rw [opened] at state
  rw [← settings] at never
  have early := not_expired never now
  cases takes with
  | expire expired | probeExpired expired =>
    rw [early] at expired
    cases expired
  | admitClosed seen | readHalfOpen seen =>
    rw [state] at seen
    cases seen
  | readOpened | early | reject | probe | probeNothing | probeEarly => exact ⟨rfl, rfl, rfl, rfl⟩
  | _ => cases idle

/-! ## Recovery -/

def Recovers (s : Run) : Prop :=
  ∃ s', Leads Peaceful s s' ∧ Quiescent s' ∧ s'.cb.state = .closed

/-- Open ends, and in half-open there is room for the successes that close the breaker beside the
failures of calls that were admitted before it opened. -/
def Recoverable (config : Config) : Prop :=
  Expires config ∧
    (config.SuccessThreshold.toNat + config.FailureThreshold.toNat ≤
        config.HalfOpenMaxCalls.toNat + 1 ∨
      config.HalfOpenProbeInterval ≤ 0 ∧ config.SuccessThreshold = 1)

theorem Recovers.not_rejects (recovers : Recovers s) : ¬ Rejects s := by
  rintro ⟨state, stuck⟩
  obtain ⟨s', ⟨continuation, _, run⟩, _, closed⟩ := recovers
  exact state ((stuck continuation s' run).1.symm.trans closed)

theorem Parked.quiescent (parked : Parked s.goroutines 0) : Quiescent s := by
  intro pc member
  rcases parked.only pc member with ended | waits
  · exact ended
  · rw [waits, ← count_pos_iff, parked.count] at member
    exact absurd member (Nat.lt_irrefl 0)

theorem LeadsTo.recovers (leadsTo : LeadsTo Peaceful s config .closed f x 0) : Recovers s := by
  obtain ⟨s', leads, stands⟩ := leadsTo
  exact ⟨s', leads, stands.waiting.quiescent, stands.current⟩

theorem run_settings (run : runSchedule runStep (start config now) schedule = some s) :
    s.cb.config = config.withDefaults ∧ 0 < s.goroutines.length := by
  apply runSchedule_invariant
    (fun s => s.cb.config = config.withDefaults ∧ 0 < s.goroutines.length) ?_ run ⟨rfl, Nat.one_pos⟩
  rintro s a s' ⟨settings, nonempty⟩ next
  have moves := runStep_moves next
  refine ⟨moves.config.trans settings, ?_⟩
  cases moves with
  | advance d => exact nonempty
  | call => simp
  | tick ticking idle => simpa using nonempty
  | step i ok here takes => simpa [Run.move] using nonempty

theorem Quiescent.stands (quiescent : Quiescent s)
    (run : runSchedule runStep (start config now) schedule = some s) :
    Stands s config.withDefaults s.cb.state s.cb.failures.toNat s.cb.successes.toNat 0 := by
  obtain ⟨settings, nonempty⟩ := run_settings run
  refine ⟨⟨settings, rfl, rfl, rfl⟩, ?_, fun pc member => .inl (quiescent pc member), ?_⟩
  · rw [count_eq_zero]
    intro member
    cases quiescent _ member
  · rw [getElem?_eq_getElem nonempty, quiescent _ (getElem_mem nonempty)]

theorem start_stands (config : Config) (now : Int) :
    Stands (start config now) config.withDefaults .closed 0 0 0 :=
  ⟨⟨rfl, rfl, rfl, rfl⟩, rfl, by simp [start], rfl⟩

theorem recovers_of_recoverable (recoverable : Recoverable config.withDefaults)
    (run : runSchedule runStep (start config now) schedule = some s) (quiescent : Quiescent s) :
    Recovers s := by
  obtain ⟨expires, room⟩ := recoverable
  have stands := quiescent.stands run
  have failures := toNat_pos (withDefaults_ne_zero config).1
  have successes := toNat_pos (withDefaults_ne_zero config).2.1
  cases state : s.cb.state with
  | closed => exact ⟨s, .refl s, quiescent, state⟩
  | opened =>
    rw [state] at stands
    obtain ⟨s', leads, stands', expired⟩ := stands.wait expires
    have closes : LeadsTo Peaceful s' config.withDefaults .closed 0 0 0 := by
      by_cases single : config.withDefaults.SuccessThreshold.toNat = 1
      · exact stands'.closeByCall expired single
      · refine (stands'.probeByCall expired (by omega)).trans fun _ probing => ?_
        rcases room with enough | ⟨_, one⟩
        · exact probing.recovers (by omega) (by omega)
        · exact absurd (by rw [one]; rfl) single
    obtain ⟨s'', leads', closed⟩ := closes
    exact LeadsTo.recovers ⟨s'', leads.trans leads', closed⟩
  | halfOpen =>
    rw [state] at stands
    obtain ⟨failed, succeeded, probed⟩ := (run_attended run).quiescent quiescent state
    rw [stands.settings] at failed succeeded probed
    rw [UInt32.lt_iff_toNat_lt] at failed succeeded
    have enough := room.resolve_right probed
    exact (stands.recovers (by omega) succeeded).recovers

theorem Stands.probing (stands : Stands s config .opened f x k)
    (expired : s.cb.expired s.now = true) (positive : 0 < config.SuccessThreshold.toNat)
    (possible : ¬ (config.HalfOpenProbeInterval ≤ 0 ∧ config.SuccessThreshold = 1)) :
    ∃ x' ≤ 1, x' < config.SuccessThreshold.toNat ∧
      LeadsTo Circuit.anything s config .halfOpen 0 x' k := by
  by_cases single : config.SuccessThreshold.toNat = 1
  · have ticking : 0 < config.HalfOpenProbeInterval := by
      by_contra silent
      exact possible ⟨not_lt.mp silent, UInt32.toNat_inj.mp single⟩
    exact ⟨0, Nat.zero_le 1, positive, stands.probeByTick expired ticking⟩
  · exact ⟨1, Nat.le_refl 1, by omega, (stands.probeByCall expired (by omega)).anything⟩

theorem Stands.fills (stands : Stands s config .halfOpen f x k) (small : f + x < 2 ^ 32)
    (few : config.HalfOpenMaxCalls.toNat < f + config.SuccessThreshold.toNat) :
    ∃ x', LeadsTo Circuit.anything s config .halfOpen f x' k ∧
      config.HalfOpenMaxCalls.toNat ≤ f + x' ∧ f + x' < 2 ^ 32 := by
  have limit := config.HalfOpenMaxCalls.toNat_lt
  by_cases full : config.HalfOpenMaxCalls.toNat ≤ f + x
  · exact ⟨x, ⟨s, .refl s, stands⟩, full, small⟩
  · have leads := stands.succeeds (config.HalfOpenMaxCalls.toNat - (f + x)) (by omega) (by omega)
    exact ⟨_, leads.anything, by omega, by omega⟩

theorem Stands.rejects (stands : Stands s config .halfOpen f x 0)
    (full : config.HalfOpenMaxCalls.toNat ≤ f + x) (small : f + x < 2 ^ 32) : Rejects s := by
  apply stands.waiting.quiescent.rejects_halfOpen stands.current
  rw [stands.settings, UInt32.le_iff_toNat_le, stands.toNat_total small]
  exact full

theorem rejects_of_not_recoverable (config : Config) (now : Int)
    (broken : ¬ Recoverable config.withDefaults) :
    ∃ schedule s, runSchedule runStep (start config now) schedule = some s ∧ Quiescent s ∧
      Rejects s := by
  have failures := toNat_pos (withDefaults_ne_zero config).1
  have successes := toNat_pos (withDefaults_ne_zero config).2.1
  have opened (k : Nat) := (start_stands config now).opens k failures
  by_cases expires : Expires config.withDefaults
  · obtain ⟨few, possible⟩ : ¬ _ ∧ ¬ _ := not_or.mp fun room => broken ⟨expires, room⟩
    have limit := config.withDefaults.FailureThreshold.toNat_lt
    -- one failure less than the threshold is still to be counted when the breaker is half-open
    obtain ⟨s₁, leads₁, stands₁⟩ := opened (config.withDefaults.FailureThreshold.toNat - 1)
    obtain ⟨s₂, leads₂, stands₂, expired⟩ := stands₁.wait expires
    obtain ⟨x, small, below, s₃, leads₃, stands₃⟩ := stands₂.probing expired successes possible
    rw [← Nat.zero_add (config.withDefaults.FailureThreshold.toNat - 1)] at stands₃
    obtain ⟨s₄, leads₄, stands₄⟩ := stands₃.releases _ (by omega)
    obtain ⟨x', ⟨s₅, leads₅, stands₅⟩, full, fits⟩ := stands₄.fills (by omega) (by omega)
    obtain ⟨schedule, _, run⟩ :=
      (((leads₁.trans (leads₂.mono fun _ _ => trivial)).trans leads₃).trans leads₄).trans leads₅
    exact ⟨schedule, s₅, run, stands₅.waiting.quiescent, stands₅.rejects full fits⟩
  · obtain ⟨s, ⟨schedule, _, run⟩, stands⟩ := opened 0
    have quiescent := stands.waiting.quiescent
    exact ⟨schedule, s, run, quiescent,
      quiescent.rejects_opened stands.current (by rwa [stands.settings])⟩

/-! ## The probe loop -/

def NoCallInFlight (s : Run) : Prop :=
  ∀ (i : Nat) pc, i ≠ 0 → s.goroutines[i]? = some pc → pc = .done

theorem Quiescent.noCallInFlight (quiescent : Quiescent s) : NoCallInFlight s :=
  fun _ pc _ found => quiescent pc (mem_of_getElem? found)

def remaining : Pc → Nat
  | .done => 0
  | .notify _ _ .finish | .clearFailures | .countRejected => 1
  | .store _ _ .finish | .reset => 2
  | .loadOld _ .finish | .addSuccess => 3
  | .loadSuccess | .addHalfOpenFailure | .addClosedFailure | .checkProbe => 4
  | .countSuccess | .loadFailure | .loadProbe => 5
  | .stampFailure => 6
  | .countFailure => 7
  | .callFn => 8
  | .notify _ _ .run | .checkTotal => 9
  | .store _ _ .run => 10
  | .loadOld _ .run => 11
  | .checkTimeout => 12
  | .loadReady => 13

theorem Takes.remaining (takes : Takes cb now pc a) : remaining a.pc < remaining pc := by
  cases takes with
  | already after | loadOld newState after different | store old newState after
  | notify old newState after => cases after <;> simp [leave, Circuit.remaining]
  | _ => simp [Circuit.remaining]

theorem exists_access (cb : CircuitBreaker) (now : Int) (ok : Bool) (busy : pc ≠ .done) :
    ∃ a, access cb now ok pc = some a := by
  cases pc with
  | done => exact absurd rfl busy
  | _ => exact ⟨_, rfl⟩

theorem NoCallInFlight.leads (idle : NoCallInFlight s) :
    ∃ s', Leads Peaceful s s' ∧ Quiescent s' := by
  have progress (s : Run) (idle : NoCallInFlight s) (busy : ¬ Quiescent s) :
      ∃ a s', Peaceful a ∧ runStep s a = some s' ∧ NoCallInFlight s' ∧
        (s'.goroutines[0]?.map remaining).getD 0 < (s.goroutines[0]?.map remaining).getD 0 := by
    obtain ⟨pc, member, working⟩ := by
      simpa only [Quiescent, not_forall] using busy
    obtain ⟨i, here⟩ := mem_iff_getElem?.mp member
    obtain rfl : i = 0 := by
      by_contra other
      exact working (idle i pc other here)
    obtain ⟨a, accessed⟩ := exists_access s.cb s.now true working
    refine ⟨.step 0 true, s.move 0 a, rfl, runStep_step here accessed, ?_, ?_⟩
    · intro i pc' other found
      rw [move_other other] at found
      exact idle i pc' other found
    · rw [move_own here a, here]
      exact (access_takes accessed).remaining
  obtain ⟨actions, s', all, run, quiescent⟩ :=
    exists_run_to_goal Peaceful NoCallInFlight Quiescent _ progress idle
  exact ⟨s', ⟨actions, all, run⟩, quiescent⟩

theorem recovers_of_noCallInFlight (recoverable : Recoverable config.withDefaults)
    (run : runSchedule runStep (start config now) schedule = some s) (idle : NoCallInFlight s) :
    Recovers s := by
  obtain ⟨s₁, ⟨actions, all, run₁⟩, quiescent⟩ := idle.leads
  obtain ⟨s₂, leads, ended⟩ :=
    recovers_of_recoverable recoverable (runSchedule_append run run₁) quiescent
  exact ⟨s₂, Leads.trans ⟨actions, all, run₁⟩ leads, ended⟩

theorem recovers_iff (config : Config) (now : Int) :
    ((∀ schedule s, runSchedule runStep (start config now) schedule = some s → NoCallInFlight s →
        Recovers s) ↔ Recoverable config.withDefaults) ∧
      ((∀ schedule s, runSchedule runStep (start config now) schedule = some s →
        NoCallInFlight s → ¬ Rejects s) ↔ Recoverable config.withDefaults) := by
  have stuck (broken : ¬ Recoverable config.withDefaults) :
      ∃ schedule s, runSchedule runStep (start config now) schedule = some s ∧
        NoCallInFlight s ∧ Rejects s := by
    obtain ⟨schedule, s, run, quiescent, rejects⟩ := rejects_of_not_recoverable config now broken
    exact ⟨schedule, s, run, quiescent.noCallInFlight, rejects⟩
  constructor
  · constructor
    · intro recovers
      by_contra broken
      obtain ⟨schedule, s, run, idle, rejects⟩ := stuck broken
      exact (recovers schedule s run idle).not_rejects rejects
    · intro recoverable schedule s run idle
      exact recovers_of_noCallInFlight recoverable run idle
  · constructor
    · intro admits
      by_contra broken
      obtain ⟨schedule, s, run, idle, rejects⟩ := stuck broken
      exact admits schedule s run idle rejects
    · intro recoverable schedule s run idle
      exact (recovers_of_noCallInFlight recoverable run idle).not_rejects

theorem outage_rejects : ∃ s,
    runSchedule runStep (start newConfig 0) (outage ++ .call :: steps 6 9 true) = some s ∧
      NoCallInFlight s ∧ Rejects s ∧ ¬ Recovers s := by
  refine exists_reached (fun s => (∀ pc ∈ s.goroutines, pc = .done) ∧ s.cb.state = .halfOpen ∧
    s.cb.config.HalfOpenMaxCalls ≤ s.cb.total) (by decide +kernel) ?_
  rintro s - ⟨ended, inside, full⟩
  have quiescent : Quiescent s := ended
  have rejects := quiescent.rejects_halfOpen inside full
  exact ⟨quiescent.noCallInFlight, rejects, fun recovers => recovers.not_rejects rejects⟩

end NexusPipe.Proof.Circuit
