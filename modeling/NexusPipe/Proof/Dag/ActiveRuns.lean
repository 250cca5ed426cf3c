import NexusPipe.Dag.ActiveRuns
import NexusPipe.Proof.Dag.Scheduler

namespace NexusPipe.Proof.Dag
open Library NexusPipe.Dag RunSystem Option

variable {W V : Type}

def Uncancelled (run : ScheduleRun V) : Prop :=
  run.phase.isExecuting = true ∧ run.cancelled = false

def Covers (s : RunSystem W V) : Prop :=
  ∀ number run, s.runs[number]? = some run → Uncancelled run →
    s.scheduler.activeRuns.lookup run.scheduleID = some number

def Alone (s : RunSystem W V) (number : Nat) : Prop :=
  ∀ run ∈ s.runs[number]?, ∀ other ∈ s.runs, Uncancelled other →
    other.scheduleID ≠ run.scheduleID

/-- The condition on each step: a run enters or leaves `activeRuns` while no run of its schedule is
in `Execute`, and it starts `Execute` while `activeRuns` still holds it. -/
def Exclusive (s : RunSystem W V) : RunAction W V → Prop
  | .move number .register => Alone s number
  | .move number .leave => Alone s number
  | .move number (.begin _ _) => ∀ run ∈ s.runs[number]?, run.cancelled = false →
      s.scheduler.activeRuns.lookup run.scheduleID = some number
  | _ => True

instance (run : ScheduleRun V) : Decidable (Uncancelled run) := inferInstanceAs (Decidable (_ ∧ _))

instance (s : RunSystem W V) (number : Nat) : Decidable (Alone s number) := by
  unfold Alone
  infer_instance

instance (s : RunSystem W V) (a : RunAction W V) : Decidable (Exclusive s a) := by
  unfold Exclusive
  split <;> infer_instance

section
variable {s : RunSystem W V}

theorem enter_activeRuns (s : DAGScheduler W V) (entries : (c : Cron.Engine Nat) → Cron.Snapshot c)
    (pointer : Nat) : (s.enter entries pointer).2.activeRuns = s.activeRuns := by
  rw [DAGScheduler.enter]
  split
  · rfl
  · split_ifs
    · rfl
    · split <;> rfl

theorem record_activeRuns (s : DAGScheduler W V) (entries : (c : Cron.Engine Nat) → Cron.Snapshot c)
    (pointer : Nat) (run : DAGRun V) : (s.record entries pointer run).2.activeRuns = s.activeRuns := by
  rw [DAGScheduler.record]
  split
  · rfl
  · dsimp only
    split <;> rfl

theorem addSchedule_activeRuns (host : Host) (s : DAGScheduler W V) (order : ValidateOrder)
    (id : UUID) (name cronExpr : String) (graph : Graph) :
    (s.addSchedule host order id name cronExpr graph).2.activeRuns = s.activeRuns := by
  rcases addSchedule_cases host s order id name cronExpr graph with
    ⟨fault, failed⟩ | ⟨new, parsed, -, -, added⟩
  · rw [failed]
  · rw [added]

theorem modifySchedule_activeRuns (s : DAGScheduler W V) (id : UUID)
    (change : DAGSchedule W V → DAGSchedule W V) :
    (s.modifySchedule id change).2.activeRuns = s.activeRuns := by
  rw [DAGScheduler.modifySchedule]
  split <;> rfl

theorem call_activeRuns {s : DAGScheduler W V} (called : s.call host c = some s') :
    s'.activeRuns = s.activeRuns := by
  cases c with
  | add order id name cronExpr graph =>
    simp only [DAGScheduler.call] at called
    rw [← addSchedule_activeRuns host s order id name cronExpr graph]
    split at called
    · cases called
    · rename_i result
      cases called
      rw [result]
  | remove id =>
    cases called
    rw [DAGScheduler.removeSchedule]
    split <;> rfl
  | setCondition id | setTimeout id | enable id | disable id =>
    exact some.inj called ▸ modifySchedule_activeRuns s id _

def RunMove.isPlain : RunMove W V → Bool
  | .register | .begin _ _ | .leave => false
  | _ => true

theorem moveRun_plain (plain : RunMove.isPlain m = true)
    (moved : s.moveRun number run m = some (phase, s')) :
    phase.isExecuting = false ∧ s'.scheduler.activeRuns = s.scheduler.activeRuns := by
  unfold moveRun at moved
  split at moved
  · rename_i entries _
    have same := enter_activeRuns s.scheduler entries run.schedule
    split_ifs at moved
    split at moved
    all_goals
      rename_i entered
      rw [entered] at same
      cases moved
      exact ⟨rfl, same⟩
  · obtain ⟨schedule, -, result⟩ := bind_eq_some_iff.mp moved
    split at result
    · cases result
      exact ⟨rfl, rfl⟩
    · split_ifs at result
      cases result
      exact ⟨rfl, rfl⟩
  · cases plain
  · cases plain
  · split at moved <;> cases moved <;> exact ⟨rfl, rfl⟩
  · rename_i finished entries _
    have same := record_activeRuns s.scheduler entries run.schedule finished
    split_ifs at moved
    split at moved
    all_goals
      rename_i recorded
      rw [recorded] at same
      cases moved
      exact ⟨rfl, same⟩
  · cases plain
  · cases moved

theorem moveRun_register (moved : s.moveRun number run .register = some (phase, s')) :
    run.phase.isExecuting = false ∧ phase.isExecuting = false ∧
      s'.scheduler.activeRuns = s.scheduler.activeRuns.insert run.scheduleID number := by
  cases before : run.phase with
  | registering =>
    simp only [moveRun, before] at moved
    split_ifs at moved
    cases moved
    exact ⟨rfl, rfl, rfl⟩
  | _ => simp [moveRun, before] at moved

theorem moveRun_leave (moved : s.moveRun number run .leave = some (phase, s')) :
    run.phase.isExecuting = false ∧ phase.isExecuting = false ∧
      s'.scheduler.activeRuns = s.scheduler.activeRuns.erase run.scheduleID := by
  cases before : run.phase with
  | leaving finished =>
    simp only [moveRun, before] at moved
    split_ifs at moved
    cases moved
    exact ⟨rfl, rfl, rfl⟩
  | _ => simp [moveRun, before] at moved

theorem moveRun_begin {id : UUID} (moved : s.moveRun number run (.begin id now) = some (phase, s')) :
    phase.isExecuting = true ∧ s'.scheduler.activeRuns = s.scheduler.activeRuns := by
  cases before : run.phase with
  | starting =>
    simp only [moveRun, before] at moved
    split_ifs at moved
    obtain ⟨schedule, -, result⟩ := map_eq_some_iff.mp moved
    cases result
    exact ⟨rfl, rfl⟩
  | _ => simp [moveRun, before] at moved

end

section
variable {s s' : RunSystem W V} {number : Nat}

def CoversOthers (s : RunSystem W V) (number : Nat) (activeRuns : GoMap UUID Nat) : Prop :=
  ∀ k other, k ≠ number → s.runs[k]? = some other → Uncancelled other →
    activeRuns.lookup other.scheduleID = some k

theorem covers_set_iff (found : s.runs[number]? = some run)
    (set : s'.runs = s.runs.set number { run with phase }) :
    Covers s' ↔ CoversOthers s number s'.scheduler.activeRuns ∧
      (phase.isExecuting = true → run.cancelled = false →
        s'.scheduler.activeRuns.lookup run.scheduleID = some number) := by
  have own : s'.runs[number]? = some { run with phase } := by
    rw [set, getElem?_set_of_found found]
  have others (k : Nat) (differs : k ≠ number) : s'.runs[k]? = s.runs[k]? := by
    rw [set, List.getElem?_set_ne differs.symm]
  constructor
  · intro covers
    constructor
    · intro k other differs present
      exact covers k other ((others k differs).trans present)
    · exact fun executing live => covers number { run with phase } own ⟨executing, live⟩
  · rintro ⟨covered, held⟩ k other present uncancelled
    by_cases same : k = number
    · subst same
      obtain rfl := mem_unique own present
      exact held uncancelled.1 uncancelled.2
    · exact covered k other same ((others k same).symm.trans present) uncancelled

theorem Covers.others (covers : Covers s) (number : Nat) :
    CoversOthers s number s.scheduler.activeRuns :=
  fun k other _ => covers k other

theorem coversOthers_update_iff {activeRuns : GoMap UUID Nat} (covers : Covers s)
    (found : s.runs[number]? = some run) (idle : run.phase.isExecuting = false)
    (kept : ∀ id, id ≠ run.scheduleID → activeRuns.lookup id = s.scheduler.activeRuns.lookup id)
    (moved : ∀ k, k ≠ number → activeRuns.lookup run.scheduleID ≠ some k) :
    CoversOthers s number activeRuns ↔ Alone s number := by
  constructor
  · intro covered run' found' other member uncancelled same
    obtain rfl : run = run' := mem_unique found found'
    obtain ⟨k, present⟩ := List.mem_iff_getElem?.mp member
    -- the run itself is not in `Execute`, so the key now means another one or none
    have differs : k ≠ number := by
      rintro rfl
      obtain rfl : run = other := mem_unique found present
      simp [uncancelled.1] at idle
    exact moved k differs (same ▸ covered k other differs present uncancelled)
  · intro alone k other _ present uncancelled
    rw [kept _ (alone run found other (List.mem_of_getElem? present) uncancelled)]
    exact covers k other present uncancelled

theorem move_covers_iff (covers : Covers s) (found : s.runs[number]? = some run)
    (moved : s.moveRun number run m = some (phase, s')) :
    Covers { s' with runs := s.runs.set number { run with phase } } ↔
      Exclusive s (.move number m) := by
  rw [covers_set_iff found rfl]
  cases plain : RunMove.isPlain m with
  | true =>
    obtain ⟨idle, same⟩ := moveRun_plain plain moved
    have exclusive : Exclusive s (.move number m) := by cases m <;> trivial
    refine iff_of_true ⟨?_, fun executing => ?_⟩ exclusive
    · exact same ▸ covers.others number
    · simp [executing] at idle
  | false =>
    cases m with
    | register =>
      obtain ⟨before, after, inserted⟩ := moveRun_register moved
      rw [and_iff_left fun executing => by simp [executing] at after, inserted]
      refine coversOthers_update_iff covers found before (fun id other => ?_) fun k differs => ?_
      · rw [GoMap.lookup_insert_eq, if_neg other]
      · rw [GoMap.lookup_insert_eq, if_pos rfl]
        exact fun same => differs (some.inj same).symm
    | leave =>
      obtain ⟨before, after, erased⟩ := moveRun_leave moved
      rw [and_iff_left fun executing => by simp [executing] at after, erased]
      refine coversOthers_update_iff covers found before (fun id other => ?_) fun k _ => ?_
      · rw [GoMap.lookup_erase_eq, if_neg other]
      · rw [GoMap.lookup_erase_eq, if_pos rfl]
        exact some_ne_none k |>.symm
    | begin id now =>
      obtain ⟨executing, same⟩ := moveRun_begin moved
      rw [same, and_iff_right (covers.others number)]
      constructor
      · intro held run' found' live
        obtain rfl : run = run' := mem_unique found found'
        exact held executing live
      · exact fun exclusive _ live => exclusive run found live
    | _ => cases plain

theorem launch_covers (covers : Covers s) (launched : s.launch byCron pointer = some s') :
    Covers s' := by
  obtain ⟨schedule, -, rfl⟩ := map_eq_some_iff.mp launched
  intro number run present uncancelled
  rcases getElem?_concat_cases present with old | ⟨_, new⟩
  · exact covers number run old uncancelled
  · simp [new, Uncancelled, RunPhase.isExecuting] at uncancelled

theorem foldl_cancelRun (l : List ((_ : UUID) × Nat)) (s : RunSystem W V) (number : Nat) :
    (l.foldl (fun s x => s.cancelRun x.1 x.2) s).runs[number]? =
      s.runs[number]?.map fun run =>
        if number ∈ l.map Sigma.snd then { run with cancelled := true } else run := by
  induction l generalizing s with
  | nil => simp
  | cons x l ih =>
    rw [List.foldl_cons, ih, cancelRun, List.getElem?_modify, map_eq_map, map_map]
    refine congrArg (s.runs[number]?.map ·) (funext fun run => ?_)
    simp only [Function.comp_apply, List.map_cons, List.mem_cons]
    by_cases here : x.2 = number
    · simp only [here, true_or, if_true]
      split_ifs <;> rfl
    · simp only [if_neg here, Ne.symm here, false_or]

theorem cancelAll_cancels (covers : Covers s) (order : GoMap.RangeOrder UUID Nat) :
    ∀ run ∈ (s.cancelAll order).runs, ¬ Uncancelled run := by
  rintro run member ⟨executing, live⟩
  obtain ⟨number, present⟩ := List.mem_iff_getElem?.mp member
  rw [cancelAll, foldl_cancelRun] at present
  obtain ⟨before, found, rfl⟩ := map_eq_some_iff.mp present
  split_ifs at executing live with held
  · have stored := (order s.scheduler.activeRuns).mem_entries.mpr
      (covers number before found ⟨executing, live⟩)
    exact held (List.mem_map.mpr ⟨_, stored, rfl⟩)

theorem act_of_step (stepped : s.step host a = some s') : s.act host a = some s' := by
  rw [step] at stepped
  split_ifs at stepped
  exact stepped

theorem cancelAll_of_act (acted : s.act host (.cancelAll order) = some s') :
    s' = s.cancelAll order := by
  simp only [act] at acted
  split_ifs at acted
  exact (some.inj acted).symm

theorem act_covers_iff (covers : Covers s) (acted : s.act host a = some s') :
    Covers s' ↔ Exclusive s a := by
  cases a with
  | call c =>
    simp only [act] at acted
    split_ifs at acted
    obtain ⟨scheduler, called, rfl⟩ := map_eq_some_iff.mp acted
    refine iff_of_true ?_ trivial
    intro number run present uncancelled
    rw [call_activeRuns called]
    exact covers number run present uncancelled
  | start | stop =>
    cases acted
    exact iff_of_true covers trivial
  | cancelAll order =>
    obtain rfl := cancelAll_of_act acted
    refine iff_of_true (fun number run present uncancelled => ?_) trivial
    exact absurd uncancelled (cancelAll_cancels covers order run (List.mem_of_getElem? present))
  | fire entryID =>
    simp only [act] at acted
    split_ifs at acted
    obtain ⟨entry, -, launched⟩ := bind_eq_some_iff.mp acted
    exact iff_of_true (launch_covers covers launched) trivial
  | runNow id =>
    simp only [act] at acted
    split_ifs at acted
    split at acted
    · cases acted
      exact iff_of_true covers trivial
    · exact iff_of_true (launch_covers covers acted) trivial
  | move number m =>
    obtain ⟨run, found, result⟩ := bind_eq_some_iff.mp acted
    obtain ⟨⟨phase, s''⟩, moved, rfl⟩ := map_eq_some_iff.mp result
    exact move_covers_iff covers found moved

end

theorem activeRuns_cover_iff (host : Host) {actions : List (RunAction W V)} {s : RunSystem W V}
    (run : runSchedule (RunSystem.step host) (newRunSystem W V) actions = some s) :
    ((∀ before after middle, actions = before ++ after →
        runSchedule (RunSystem.step host) (newRunSystem W V) before = some middle → Covers middle) ↔
      Along (RunSystem.step host) Exclusive (newRunSystem W V) actions) ∧
    (Covers s → ∀ order s', s.step host (.cancelAll order) = some s' →
      ∀ run ∈ s'.runs, run.phase.isExecuting = true → run.cancelled = true) := by
  constructor
  · refine throughout_iff_along (fun _ => True) Covers (fun _ _ _ _ _ => trivial) ?_ run trivial ?_
    · exact fun _ _ _ _ covers stepped => act_covers_iff covers (act_of_step stepped)
    · exact fun number run present => by simp [newRunSystem] at present
  · intro covers order s' stepped run member executing
    obtain rfl := cancelAll_of_act (act_of_step stepped)
    have cancelled := cancelAll_cancels covers order run member
    simpa [Uncancelled, executing] using cancelled

def overlap : List (RunAction Unit Nat) :=
  [.call (addChain 7 "@daily"), .call (addChain 8 "0 */5 * * * *"), .runNow 7, .runNow 7]

def untilExecute (number : Nat) : List (RunAction Unit Nat) :=
  [.enter secondFirst, .condition () 9 0, .register, .begin 9 0].map (.move number)

def afterExecute (number : Nat) : List (RunAction Unit Nat) :=
  [.finish ⟨.ok ⟨"", ∅, true⟩, none, 1, 1⟩, .record secondFirst, .leave].map (.move number)

theorem activeRuns_cover_iff_sequential :
    ∃ s, runSchedule (RunSystem.step Proof.Scheduler.sampleHost) (newRunSystem Unit Nat)
        (overlap ++ untilExecute 0 ++ afterExecute 0 ++ untilExecute 1) = some s ∧
      s.runs.map (·.phase.isExecuting) = [false, true] ∧ Covers s := by
  refine exists_reached (fun s => s.runs.map (·.phase.isExecuting) = [false, true])
    (by decide +kernel) fun s run phases => ?_
  have always := (activeRuns_cover_iff Proof.Scheduler.sampleHost run).1.mpr (by decide +kernel)
  exact ⟨phases, always _ [] s (List.append_nil _).symm run⟩

theorem stop_misses_overlapped :
    (runSchedule (RunSystem.step Proof.Scheduler.sampleHost) (newRunSystem Unit Nat)
        (overlap ++ untilExecute 0 ++ untilExecute 1)).map
        (fun s => (s.runs.map (·.phase.isExecuting), s.scheduler.activeRuns.lookup 7)) =
      some ([true, true], some 1) ∧
    (runSchedule (RunSystem.step Proof.Scheduler.sampleHost) (newRunSystem Unit Nat)
        (overlap ++ untilExecute 0 ++ untilExecute 1 ++ [.stop, .cancelAll ascending])).map
        (·.runs.map fun run => (run.phase.isExecuting, run.cancelled)) =
      some [(true, false), (true, true)] := by
  decide +kernel

end NexusPipe.Proof.Dag
