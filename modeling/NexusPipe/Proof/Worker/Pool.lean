import Mathlib.Data.Finset.Card
import Mathlib.Data.Finset.Range
import NexusPipe.Worker.Pool

namespace NexusPipe.Proof.Worker
open Library NexusPipe.Worker List

/-! ## Goroutines and the list of workers -/

def Alive (w : PoolWorker) : Prop := w.phase ≠ .ended

instance : DecidablePred Alive := fun w => inferInstanceAs (Decidable (w.phase ≠ .ended))

def runningSet (wp : WorkerPool) : Finset Nat :=
  (Finset.range wp.pool.length).filter fun p => ∃ w ∈ wp.pool[p]?, Alive w

structure Exact (wp : WorkerPool) : Prop where
  listed : runningSet wp = wp.workers.toFinset
  atLeast : wp.minWorkers ≤ (runningSet wp).card
  atMost : (runningSet wp).card ≤ wp.maxWorkers

def HasEnvelope (wp : WorkerPool) (worker : Nat) : Prop :=
  ∀ w ∈ wp.pool[worker]?, w.phase ≠ .received ⟨none⟩

def Steady (wp : WorkerPool) : PoolAction → Prop
  | .begin worker => HasEnvelope wp worker
  | .deliver _ panics => panics = false
  | .scaleShrink => ∀ wp' ∈ wp.scaleShrink, wp'.workers = wp.workers
  | .stopClear => wp.workers = []
  | _ => True

instance (wp : WorkerPool) (a : PoolAction) : Decidable (Steady wp a) := by
  cases a <;> unfold Steady <;> first | infer_instance | exact inferInstanceAs (Decidable (∀ w ∈ _, _))

def pending (wp : WorkerPool) : Nat :=
  match wp.scaler with
  | .adding left => left
  | _ => 0

structure Valid (wp : WorkerPool) : Prop where
  listed : ∀ p ∈ wp.workers, p < wp.pool.length
  nodup : wp.workers.Nodup
  room : wp.workers.length + pending wp ≤ wp.maxWorkers

variable {w w' : PoolWorker}

section
variable {wp wp' : WorkerPool}

theorem mem_runningSet : p ∈ runningSet wp ↔ ∃ w, wp.pool[p]? = some w ∧ Alive w := by
  simp only [runningSet, Finset.mem_filter, Finset.mem_range, Option.mem_def, and_iff_right_iff_imp]
  rintro ⟨w, present, -⟩
  exact (List.getElem?_eq_some_iff.mp present).1

theorem runningSet_of_pool (same : wp'.pool = wp.pool) : runningSet wp' = runningSet wp := by
  unfold runningSet
  rw [same]

theorem runningSet_set_alive (present : wp.pool[p]? = some w) (pool : wp'.pool = wp.pool.set p w')
    (alive : Alive w) (alive' : Alive w') : runningSet wp' = runningSet wp := by
  ext q
  rw [mem_runningSet, mem_runningSet, pool]
  have inside := (List.getElem?_eq_some_iff.mp present).1
  by_cases same : p = q
  · subst same
    rw [getElem?_set_self inside, present]
    exact iff_of_true ⟨w', rfl, alive'⟩ ⟨w, rfl, alive⟩
  · rw [getElem?_set_ne same]

theorem runningSet_set_ended (inside : p < wp.pool.length) (pool : wp'.pool = wp.pool.set p w')
    (ended : ¬ Alive w') : runningSet wp' = (runningSet wp).erase p := by
  ext q
  rw [Finset.mem_erase, mem_runningSet, mem_runningSet, pool]
  by_cases same : p = q
  · subst same
    rw [getElem?_set_self inside]
    refine iff_of_false ?_ fun both => both.1 rfl
    rintro ⟨w, found, alive⟩
    exact ended (Option.some.inj found ▸ alive)
  · rw [getElem?_set_ne same]
    exact ⟨fun found => ⟨Ne.symm same, found⟩, And.right⟩

theorem runningSet_addWorker : runningSet wp.addWorker = insert wp.pool.length (runningSet wp) := by
  ext q
  rw [Finset.mem_insert, mem_runningSet, mem_runningSet]
  change (∃ w, (wp.pool ++ [_])[q]? = some w ∧ Alive w) ↔ _
  rcases Nat.lt_trichotomy q wp.pool.length with before | rfl | after
  · rw [getElem?_append_left before]
    exact ⟨.inr, fun either => either.resolve_left before.ne⟩
  · rw [getElem?_concat_length]
    exact iff_of_true ⟨_, rfl, by simp [Alive]⟩ (.inl rfl)
  · have beyond : (wp.pool ++ [({ index := wp.workers.length } : PoolWorker)]).length ≤ q := by
      simp only [length_append, length_singleton]
      omega
    rw [getElem?_eq_none beyond, getElem?_eq_none after.le]
    simp [after.ne']

end

/-! ## What a step does -/

def Completes (wp : WorkerPool) : PoolAction → Prop
  | .begin worker => HasEnvelope wp worker
  | .deliver _ panics => panics = false
  | _ => True

def Tallies (done : Nat) (w : PoolWorker) : Prop :=
  match w.phase with
  | .selecting | .received _ => w.tasks = done
  | .delivering _ => w.tasks = done + 1
  | .ended => True

inductive Effect (wp : WorkerPool) (a : PoolAction) (wp' : WorkerPool) : Prop
  | quiet (pool : wp'.pool = wp.pool) (workers : wp'.workers = wp.workers)
      (room : pending wp' ≤ pending wp ∨ wp.workers.length + pending wp' ≤ wp.maxWorkers)
      (steady : Steady wp a)
  | moved (p : Nat) (w w' : PoolWorker) (present : wp.pool[p]? = some w) (alive : Alive w)
      (alive' : Alive w') (panics : w'.panics = w.panics) (pool : wp'.pool = wp.pool.set p w')
      (workers : wp'.workers = wp.workers) (room : pending wp' = pending wp) (steady : Steady wp a)
      (tallies : (∀ panics, a ≠ .deliver p panics) → ∀ done, Tallies done w → Tallies done w')
  | added (pool : wp'.pool = wp.addWorker.pool) (workers : wp'.workers = wp.addWorker.workers)
      (room : pending wp = pending wp' + 1) (steady : Steady wp a)
  | panicked (p : Nat) (w w' : PoolWorker) (present : wp.pool[p]? = some w) (alive : Alive w)
      (ended : ¬ Alive w') (panics : w'.panics = w.panics + 1) (pool : wp'.pool = wp.pool.set p w')
      (workers : wp'.workers = wp.workers) (room : pending wp' = pending wp)
      (broken : ¬ Completes wp a ∧ ¬ Steady wp a)
  | dropped (pool : wp'.pool = wp.pool) (workers : wp'.workers <+: wp.workers)
      (room : pending wp' ≤ pending wp) (steady : Steady wp a ↔ wp'.workers = wp.workers)

inductive StopEffect (wp wp' : WorkerPool) : Prop
  | none (same : wp'.stopping = wp.stopping)
  | called (waiting : wp'.stopping = .waiting)
  | done (workersDone : wp.workersDone) (waited : wp'.stopping = .waited false)
  | timedOut (waited : wp'.stopping = .waited true)
  | returned (timedOut : Bool) (waited : wp.stopping = .waited timedOut)
      (returned : wp'.stopping = .returned timedOut)

structure StepSpec (wp : WorkerPool) (a : PoolAction) (wp' : WorkerPool) : Prop where
  cfg : wp'.cfg = wp.cfg
  effect : Effect wp a wp'
  stopping : StopEffect wp wp'
  metrics : (∀ worker panics, a ≠ .deliver worker panics) → wp'.metrics = wp.metrics

variable {a : PoolAction}

section
variable {wp wp' : WorkerPool}

theorem onWorker_eq_some {next : PoolWorker → Option PoolWorker} :
    wp.onWorker worker next = some wp' ↔ ∃ w w', wp.pool[worker]? = some w ∧ next w = some w' ∧
      { wp with pool := wp.pool.set worker w' } = wp' := by
  simp only [WorkerPool.onWorker, Option.map_eq_some_iff, Option.bind_eq_some_iff]
  constructor
  · rintro ⟨w', ⟨w, present, next'⟩, eq⟩
    exact ⟨w, w', present, next', eq⟩
  · rintro ⟨w, w', present, next', eq⟩
    exact ⟨w', ⟨w, present, next'⟩, eq⟩

theorem take_spec (taken : WorkerPool.take task w = some w') :
    Alive w ∧ Alive w' ∧ w'.panics = w.panics ∧ ∀ done, Tallies done w → Tallies done w' := by
  simp only [WorkerPool.take, Option.ite_none_right_eq_some, Option.some.injEq] at taken
  obtain ⟨selecting, rfl⟩ := taken
  simp [Alive, Tallies, selecting]

theorem submit_spec (task : WorkerTask) : StepSpec wp (.submit task) (wp.submit task) := by
  unfold WorkerPool.submit
  split_ifs <;> exact ⟨rfl, .quiet rfl rfl (.inl le_rfl) trivial, .none rfl, fun _ => rfl⟩

theorem enqueue_spec (stepped : wp.enqueue call receiver done = some wp') :
    StepSpec wp (.enqueue call receiver done) wp' := by
  unfold WorkerPool.enqueue at stepped
  split at stepped
  · cases stepped
  · rename_i task _
    cases done with
    | some err =>
      cases stepped
      exact ⟨rfl, .quiet rfl rfl (.inl le_rfl) trivial, .none rfl, fun _ => rfl⟩
    | none =>
      by_cases buffered : wp.taskCh.length < wp.capacity
      · simp only [buffered, if_true] at stepped
        cases stepped
        exact ⟨rfl, .quiet rfl rfl (.inl le_rfl) trivial, .none rfl, fun _ => rfl⟩
      · simp only [buffered, if_false] at stepped
        cases receiver with
        | none =>
          cases stepped
          exact ⟨rfl, .quiet rfl rfl (.inl le_rfl) trivial, .none rfl, fun _ => rfl⟩
        | some worker =>
          simp only [Option.ite_none_right_eq_some] at stepped
          obtain ⟨w, w', present, taken, rfl⟩ := onWorker_eq_some.mp stepped.2
          obtain ⟨alive, alive', panics, tallies⟩ := take_spec taken
          exact ⟨rfl, .moved worker w w' present alive alive' panics rfl rfl rfl trivial
            fun _ => tallies, .none rfl, fun _ => rfl⟩

theorem receive_spec (stepped : wp.receive worker = some wp') :
    StepSpec wp (.receive worker) wp' := by
  unfold WorkerPool.receive at stepped
  split at stepped
  · cases stepped
  · obtain ⟨w, w', present, taken, rfl⟩ := onWorker_eq_some.mp stepped
    obtain ⟨alive, alive', panics, tallies⟩ := take_spec taken
    exact ⟨rfl, .moved worker w w' present alive alive' panics rfl rfl rfl trivial fun _ => tallies,
      .none rfl, fun _ => rfl⟩

theorem beginTask_cases (begun : WorkerPool.beginTask w = some w') :
    (w.phase = .received ⟨none⟩ ∧ w'.phase = .ended ∧ w'.panics = w.panics + 1) ∨
      ∃ id, w.phase = .received ⟨some id⟩ ∧ w'.phase = .delivering ⟨some id⟩ ∧
        w'.panics = w.panics ∧ w'.tasks = w.tasks + 1 := by
  -- `processTask` either goes on to its `defer` or panics on a nil envelope
  unfold WorkerPool.beginTask at begun
  split at begun
  · rename_i task phase
    obtain ⟨env⟩ := task
    cases env with
    | none =>
      cases begun
      exact .inl ⟨phase, rfl, rfl⟩
    | some id =>
      cases begun
      exact .inr ⟨id, phase, rfl, rfl, rfl⟩
  · cases begun

theorem begin_spec (stepped : wp.onWorker worker WorkerPool.beginTask = some wp') :
    StepSpec wp (.begin worker) wp' := by
  obtain ⟨w, w', present, begun, rfl⟩ := onWorker_eq_some.mp stepped
  refine ⟨rfl, ?_, .none rfl, fun _ => rfl⟩
  rcases beginTask_cases begun with ⟨phase, ended, panics⟩ | ⟨id, phase, phase', panics, tasks⟩
  · have broken : ¬ HasEnvelope wp worker := fun envelope => envelope w present phase
    exact .panicked worker w w' present (by simp [Alive, phase]) (by simp [Alive, ended]) panics
      rfl rfl rfl ⟨broken, broken⟩
  · have envelope : HasEnvelope wp worker := by
      intro w₁ found
      rw [Option.mem_def, present, Option.some.injEq] at found
      simp [← found, phase]
    exact .moved worker w w' present (by simp [Alive, phase]) (by simp [Alive, phase']) panics
      rfl rfl rfl envelope fun _ => by simp [Tallies, phase, phase', tasks]

theorem deliver_cases (stepped : wp.deliver worker panics = some wp') :
    ∃ w w' task, wp.pool[worker]? = some w ∧ w.phase = .delivering task ∧ w'.tasks = w.tasks ∧
      (if panics then w'.phase = .ended ∧ w'.panics = w.panics + 1
        else w'.phase = .selecting ∧ w'.panics = w.panics) ∧
      { wp.updateMetrics worker w with pool := wp.pool.set worker w' } = wp' := by
  unfold WorkerPool.deliver at stepped
  split at stepped
  · cases stepped
  · rename_i w present
    split at stepped
    · rename_i task phase
      cases stepped
      refine ⟨w, _, task, present, phase, ?_, ?_, rfl⟩
      all_goals cases panics <;> simp [WorkerPool.panicked]
    · cases stepped

theorem deliver_spec (stepped : wp.deliver worker panics = some wp') :
    StepSpec wp (.deliver worker panics) wp' := by
  obtain ⟨w, w', task, present, phase, -, after, rfl⟩ := deliver_cases stepped
  have alive : Alive w := by simp [Alive, phase]
  refine ⟨rfl, ?_, .none rfl, fun other => absurd rfl (other worker panics)⟩
  cases panics with
  | true =>
    exact .panicked worker w w' present alive (by simp [Alive, after.1]) after.2 rfl rfl rfl
      ⟨by simp [Completes], by simp [Steady]⟩
  | false =>
    exact .moved worker w w' present alive (by simp [Alive, after.1]) after.2 rfl rfl rfl rfl
      fun other => absurd rfl (other false)

theorem truncate_sub (removeFrom least : Nat) (i : Nat) (workers : List Nat) :
    WorkerPool.truncate removeFrom least i workers <+: workers := by
  induction i generalizing workers with
  | zero => exact prefix_rfl
  | succ i ih =>
    unfold WorkerPool.truncate
    split_ifs
    · exact (ih _).trans ( take_prefix i workers)
    · exact prefix_rfl

theorem scale_room (adding : wp.scale = .adding left) :
    wp.workers.length + left ≤ wp.maxWorkers := by
  unfold WorkerPool.scale at adding
  dsimp only at adding
  split_ifs at adding with empty up cut
  · cases adding
    omega
  · cases adding
    omega

theorem scaleTick_spec (stepped : wp.scaleTick = some wp') : StepSpec wp .scaleTick wp' := by
  unfold WorkerPool.scaleTick at stepped
  split_ifs at stepped
  cases stepped
  refine ⟨rfl, .quiet rfl rfl ?_ trivial, .none rfl, fun _ => rfl⟩
  cases phase : wp.scale with
  | adding left => exact .inr (scale_room phase)
  | _ => exact .inl (Nat.zero_le _)

theorem scaleAdd_spec (stepped : wp.scaleAdd = some wp') : StepSpec wp .scaleAdd wp' := by
  unfold WorkerPool.scaleAdd at stepped
  split at stepped
  · rename_i left phase
    split_ifs at stepped with free last
    all_goals
      cases stepped
      refine ⟨rfl, .added rfl rfl ?_ trivial, .none rfl, fun _ => rfl⟩
    · simp only [pending, phase, last]
    · simp only [pending, phase]
  · cases stepped

theorem scaleCount_spec (stepped : wp.scaleCount = some wp') : StepSpec wp .scaleCount wp' := by
  unfold WorkerPool.scaleCount at stepped
  split at stepped
  · split at stepped
    · cases stepped
      exact ⟨rfl, .quiet rfl rfl (.inl (Nat.zero_le _)) trivial, .none rfl, fun _ => rfl⟩
    · rename_i queueLen i busyCount _ _ _
      cases stepped
      refine ⟨rfl, .quiet rfl rfl (.inl ?_) trivial, .none rfl, fun _ => rfl⟩
      unfold WorkerPool.scaleDown
      dsimp only
      split_ifs <;> exact Nat.zero_le _
  · cases stepped

theorem scaleShrink_spec (stepped : wp.scaleShrink = some wp') : StepSpec wp .scaleShrink wp' := by
  have steady : Steady wp .scaleShrink ↔ wp'.workers = wp.workers := by
    simp only [Steady, stepped, Option.mem_def, Option.some.injEq, forall_eq']
  unfold WorkerPool.scaleShrink at stepped
  split at stepped
  · split_ifs at stepped
    cases stepped
    exact ⟨rfl, .dropped rfl (truncate_sub _ _ _ _) (Nat.zero_le _) steady, .none rfl, fun _ => rfl⟩
  · cases stepped

theorem healthTick_spec (stepped : wp.healthTick = some wp') : StepSpec wp .healthTick wp' := by
  unfold WorkerPool.healthTick at stepped
  split_ifs at stepped <;> cases stepped <;>
    exact ⟨rfl, .quiet rfl rfl (.inl le_rfl) trivial, .none rfl, fun _ => rfl⟩

theorem stop_spec : StepSpec wp .stop wp.stop := by
  unfold WorkerPool.stop
  split_ifs
  · exact ⟨rfl, .quiet rfl rfl (.inl le_rfl) trivial, .called rfl, fun _ => rfl⟩
  · exact ⟨rfl, .quiet rfl rfl (.inl le_rfl) trivial, .none rfl, fun _ => rfl⟩

theorem stopClear_spec (stepped : wp.stopClear = some wp') : StepSpec wp .stopClear wp' := by
  unfold WorkerPool.stopClear at stepped
  split at stepped
  · rename_i timedOut waited
    split_ifs at stepped
    cases stepped
    exact ⟨rfl, .dropped rfl nil_prefix le_rfl eq_comm, .returned timedOut waited rfl,
      fun _ => rfl⟩
  · cases stepped

theorem step_spec (stepped : wp.step a = some wp') : StepSpec wp a wp' := by
  cases a with
  | submit task => exact Option.some.inj stepped ▸ submit_spec task
  | enqueue => exact enqueue_spec stepped
  | receive => exact receive_spec stepped
  | begin => exact begin_spec stepped
  | deliver => exact deliver_spec stepped
  | scaleTick => exact scaleTick_spec stepped
  | scaleAdd => exact scaleAdd_spec stepped
  | scaleCount => exact scaleCount_spec stepped
  | scaleShrink => exact scaleShrink_spec stepped
  | healthTick => exact healthTick_spec stepped
  | stop => exact Option.some.inj stepped ▸ stop_spec
  | stopClear => exact stopClear_spec stepped
  | scaleReturn =>
    obtain ⟨-, ⟨⟩⟩ := Option.ite_none_right_eq_some.mp stepped
    exact ⟨rfl, .quiet rfl rfl (.inl (Nat.zero_le _)) trivial, .none rfl, fun _ => rfl⟩
  | monitorReturn =>
    obtain ⟨-, ⟨⟩⟩ := Option.ite_none_right_eq_some.mp stepped
    exact ⟨rfl, .quiet rfl rfl (.inl le_rfl) trivial, .none rfl, fun _ => rfl⟩
  | stopDone =>
    obtain ⟨⟨-, workersDone⟩, ⟨⟩⟩ := Option.ite_none_right_eq_some.mp stepped
    exact ⟨rfl, .quiet rfl rfl (.inl le_rfl) trivial, .done workersDone rfl, fun _ => rfl⟩
  | stopTimeout =>
    obtain ⟨-, ⟨⟩⟩ := Option.ite_none_right_eq_some.mp stepped
    exact ⟨rfl, .quiet rfl rfl (.inl le_rfl) trivial, .timedOut rfl, fun _ => rfl⟩

theorem valid_addWorker (valid : Valid wp) :
    (∀ p ∈ wp.addWorker.workers, p < wp.addWorker.pool.length) ∧ wp.addWorker.workers.Nodup := by
  simp only [WorkerPool.addWorker, mem_append, mem_singleton, length_append,
    length_singleton, nodup_append]
  refine ⟨?_, valid.nodup, nodup_singleton _, ?_⟩
  · rintro p (old | rfl)
    · exact Nat.lt_succ_of_lt (valid.listed p old)
    · exact Nat.lt_succ_self _
  · rintro p old q rfl
    exact (valid.listed p old).ne

theorem bounds_of_cfg (cfg : wp'.cfg = wp.cfg) :
    wp'.minWorkers = wp.minWorkers ∧ wp'.maxWorkers = wp.maxWorkers := by
  simp only [WorkerPool.minWorkers, WorkerPool.maxWorkers, cfg, and_self]

theorem valid_of_pool (valid : Valid wp) (cfg : wp'.cfg = wp.cfg)
    (length : wp'.pool.length = wp.pool.length) (workers : wp'.workers = wp.workers)
    (room : wp.workers.length + pending wp' ≤ wp.maxWorkers) : Valid wp' := by
  refine ⟨?_, ?_, ?_⟩
  · rw [workers, length]
    exact valid.listed
  · rw [workers]
    exact valid.nodup
  · rw [workers, (bounds_of_cfg cfg).2]
    exact room

theorem valid_step (valid : Valid wp) (stepped : wp.step a = some wp') : Valid wp' := by
  obtain ⟨cfg, effect, -⟩ := step_spec stepped
  have before := valid.room
  cases effect with
  | quiet pool workers room =>
    exact valid_of_pool valid cfg (congrArg _ pool) workers (by omega)
  | moved p w w' _ _ _ _ pool workers room | panicked p w w' _ _ _ _ pool workers room =>
    exact valid_of_pool valid cfg (by rw [pool, length_set]) workers (room ▸ before)
  | added pool workers room =>
    obtain ⟨listed, nodup⟩ := valid_addWorker valid
    refine ⟨?_, ?_, ?_⟩
    · rw [workers, pool]
      exact listed
    · rw [workers]
      exact nodup
    · rw [workers, (bounds_of_cfg cfg).2]
      simp only [WorkerPool.addWorker, length_append, length_singleton]
      omega
  | dropped pool workers room =>
    refine ⟨?_, ?_, ?_⟩
    · rw [pool]
      exact fun p member => valid.listed p (workers.subset member)
    · exact valid.nodup.sublist workers.sublist
    · rw [(bounds_of_cfg cfg).2]
      exact Nat.le_trans (Nat.add_le_add workers.length_le room) before

theorem exact_of_running (exactly : Exact wp) (cfg : wp'.cfg = wp.cfg)
    (running : runningSet wp' = runningSet wp) (workers : wp'.workers = wp.workers) : Exact wp' := by
  obtain ⟨least, most⟩ := bounds_of_cfg cfg
  refine ⟨?_, ?_, ?_⟩
  · rw [running, workers]
    exact exactly.listed
  · rw [running, least]
    exact exactly.atLeast
  · rw [running, most]
    exact exactly.atMost

theorem eq_of_prefix_of_toFinset {long : List Nat} (within : short <+: long) (nodup : long.Nodup)
    (same : long.toFinset = short.toFinset) : short = long := by
  refine within.eq_of_length ?_
  have shorter := nodup.sublist within.sublist
  rw [← toFinset_card_of_nodup nodup, ← toFinset_card_of_nodup shorter, same]

theorem exact_step_iff (valid : Valid wp) (exactly : Exact wp) (stepped : wp.step a = some wp') :
    Exact wp' ↔ Steady wp a := by
  obtain ⟨cfg, effect, -⟩ := step_spec stepped
  obtain ⟨least, most⟩ := bounds_of_cfg cfg
  cases effect with
  | quiet pool workers _ steady =>
    exact iff_of_true (exact_of_running exactly cfg (runningSet_of_pool pool) workers) steady
  | moved p w w' present alive alive' _ pool workers _ steady =>
    exact iff_of_true (exact_of_running exactly cfg
      (runningSet_set_alive present pool alive alive') workers) steady
  | added pool workers room steady =>
    have running : runningSet wp' = insert wp.pool.length (runningSet wp) :=
      (runningSet_of_pool pool).trans runningSet_addWorker
    have fresh : wp.pool.length ∉ runningSet wp := by
      rw [exactly.listed, mem_toFinset]
      exact fun old => Nat.lt_irrefl _ (valid.listed _ old)
    have count : (runningSet wp).card = wp.workers.length := by
      rw [exactly.listed, toFinset_card_of_nodup valid.nodup]
    have before := valid.room
    refine iff_of_true ⟨?_, ?_, ?_⟩ steady
    · rw [running, workers, exactly.listed]
      ext q
      simp [WorkerPool.addWorker]
    · rw [running, Finset.card_insert_of_notMem fresh, least]
      exact Nat.le_succ_of_le exactly.atLeast
    · rw [running, Finset.card_insert_of_notMem fresh, most, count]
      omega
  | panicked p w w' present alive ended _ pool workers _ broken =>
    have running := runningSet_set_ended (List.getElem?_eq_some_iff.mp present).1 pool ended
    refine iff_of_false ?_ broken.2
    rintro ⟨listed, -, -⟩
    rw [running, workers, ← exactly.listed] at listed
    exact Finset.notMem_erase p _ (listed ▸ mem_runningSet.mpr ⟨w, present, alive⟩)
  | dropped pool workers _ steady =>
    have running := runningSet_of_pool pool
    rw [steady]
    constructor
    · intro exactly'
      refine eq_of_prefix_of_toFinset workers valid.nodup ?_
      rw [← exactly.listed, ← running, exactly'.listed]
    · exact exact_of_running exactly cfg running

end

/-! ## Runs of a started pool -/

section
variable {wp : WorkerPool}

theorem addWorkers_spec (n : Nat) (wp : WorkerPool) :
    ∃ fresh : List PoolWorker, fresh.length = n ∧
      (∀ w ∈ fresh, w.phase = .selecting ∧ w.panics = 0) ∧
      WorkerPool.addWorkers n wp =
        { wp with
          pool := wp.pool ++ fresh
          workers := wp.workers ++ range' wp.pool.length n } := by
  induction n generalizing wp with
  | zero => exact ⟨[], rfl, by simp, by simp [WorkerPool.addWorkers]⟩
  | succ n ih =>
    obtain ⟨fresh, length, idle, eq⟩ := ih wp.addWorker
    refine ⟨{ index := wp.workers.length } :: fresh, by rw [length_cons, length], ?_, ?_⟩
    · rintro w (_ | ⟨_, later⟩)
      · exact ⟨rfl, rfl⟩
      · exact idle w later
    · rw [WorkerPool.addWorkers, eq]
      simp [WorkerPool.addWorker, range'_succ]

section
variable (created : newWorkerPool cfg = .ok wp)
include created

theorem newWorkerPool_spec :
    wp = { cfg := wp.cfg } ∧ 0 < wp.minWorkers ∧ wp.minWorkers ≤ wp.maxWorkers := by
  unfold newWorkerPool at created
  dsimp only at created
  split_ifs at created
  all_goals
    cases created
    refine ⟨rfl, ?_⟩
    simp only [WorkerPool.minWorkers, WorkerPool.maxWorkers] at *
    omega

theorem start_spec :
    ∃ fresh : List PoolWorker, fresh.length = wp.minWorkers ∧
      (∀ w ∈ fresh, w.phase = .selecting ∧ w.panics = 0) ∧
      wp.start =
      { cfg := wp.cfg, pool := fresh, workers := range wp.minWorkers, running := true } := by
  obtain ⟨eq, -, -⟩ := newWorkerPool_spec created
  obtain ⟨fresh, length, idle, started⟩ := addWorkers_spec wp.minWorkers { wp with running := true }
  refine ⟨fresh, length, idle, ?_⟩
  rw [WorkerPool.start, started, eq]
  simp [range_eq_range', WorkerPool.minWorkers]

theorem start_valid : Valid wp.start := by
  obtain ⟨-, -, ordered⟩ := newWorkerPool_spec created
  obtain ⟨fresh, length, idle, started⟩ := start_spec created
  rw [started]
  refine ⟨?_, nodup_range, ?_⟩
  · intro p member
    have below : p < wp.minWorkers := mem_range.mp member
    exact below.trans_eq length.symm
  · rw [length_range]
    exact ordered

theorem start_exact : Exact wp.start := by
  obtain ⟨-, -, ordered⟩ := newWorkerPool_spec created
  obtain ⟨fresh, length, idle, started⟩ := start_spec created
  have running : runningSet wp.start = Finset.range wp.minWorkers := by
    ext p
    rw [mem_runningSet, Finset.mem_range, started]
    constructor
    · rintro ⟨w, present, -⟩
      exact length ▸ (List.getElem?_eq_some_iff.mp present).1
    · intro below
      have inside : p < fresh.length := length.symm ▸ below
      refine ⟨fresh[p], getElem?_eq_getElem inside, ?_⟩
      simp [Alive, (idle _ (getElem_mem inside)).1]
  have least : wp.start.minWorkers = wp.minWorkers := by rw [started]; rfl
  have most : wp.start.maxWorkers = wp.maxWorkers := by rw [started]; rfl
  refine ⟨?_, ?_, ?_⟩
  · rw [running, started]
    ext p
    simp
  · rw [running, least, Finset.card_range]
  · rw [running, most, Finset.card_range]
    exact ordered

end

theorem workers_exact_iff_steady (created : newWorkerPool cfg = .ok wp)
    (run : runSchedule WorkerPool.step wp.start actions = some wp') :
    (∀ before after middle, actions = before ++ after →
        runSchedule WorkerPool.step wp.start before = some middle → Exact middle) ↔
      Along WorkerPool.step Steady wp.start actions :=
  throughout_iff_along Valid Exact (fun _ _ _ valid stepped => valid_step valid stepped)
    (fun _ _ _ valid exactly stepped => exact_step_iff valid exactly stepped) run
    (start_valid created) (start_exact created)

/-! ## Stopping -/

def EndsByPanic (wp : WorkerPool) : Prop := ∀ w ∈ wp.pool, w.phase = .ended ↔ w.panics ≠ 0

theorem endsByPanic_step (before : EndsByPanic wp) (stepped : wp.step a = some wp') :
    EndsByPanic wp' := by
  intro v member
  cases (step_spec stepped).effect with
  | quiet pool | dropped pool => exact before v (pool ▸ member)
  | added pool =>
    rw [pool] at member
    rcases mem_append.mp member with old | fresh
    · exact before v old
    · simp [mem_singleton.mp fresh]
  | moved p w w' present alive alive' panics pool =>
    rw [pool] at member
    rcases mem_or_eq_of_mem_set member with old | rfl
    · exact before v old
    · have known := before w (mem_of_getElem? present)
      rw [panics]
      exact iff_of_false alive' (known.not.mp alive)
  | panicked p w w' present alive ended panics pool =>
    rw [pool] at member
    rcases mem_or_eq_of_mem_set member with old | rfl
    · exact before v old
    · exact iff_of_true (not_not.mp ended) (by omega)

structure Undisturbed (wp : WorkerPool) : Prop where
  nonempty : wp.pool ≠ []
  alive : ∀ w ∈ wp.pool, Alive w
  waited : wp.stopping ≠ .waited false
  returned : wp.stopping ≠ .returned false

theorem not_workersDone (undisturbed : Undisturbed wp) : ¬ wp.workersDone := by
  intro done
  obtain ⟨w, member⟩ := exists_mem_of_ne_nil _ undisturbed.nonempty
  have ended := all_eq_true.mp done w member
  exact undisturbed.alive w member (of_decide_eq_true ended)

theorem alive_step (undisturbed : Undisturbed wp) (completes : Completes wp a)
    (stepped : wp.step a = some wp') : wp'.pool ≠ [] ∧ ∀ w ∈ wp'.pool, Alive w := by
  have nonempty := undisturbed.nonempty
  cases (step_spec stepped).effect with
  | quiet pool | dropped pool =>
    rw [pool]
    exact ⟨nonempty, undisturbed.alive⟩
  | added pool =>
    rw [pool]
    refine ⟨by simp [WorkerPool.addWorker], ?_⟩
    intro v member
    rcases mem_append.mp member with old | fresh
    · exact undisturbed.alive v old
    · simp [Alive, mem_singleton.mp fresh]
  | moved p w w' present alive alive' panics pool =>
    rw [pool]
    refine ⟨by simpa using nonempty, ?_⟩
    intro v member
    rcases mem_or_eq_of_mem_set member with old | rfl
    · exact undisturbed.alive v old
    · exact alive'
  | panicked p w w' _ _ _ _ _ _ _ broken => exact absurd completes broken.1

theorem undisturbed_step (undisturbed : Undisturbed wp) (completes : Completes wp a)
    (stepped : wp.step a = some wp') : Undisturbed wp' := by
  obtain ⟨nonempty, alive⟩ := alive_step undisturbed completes stepped
  cases (step_spec stepped).stopping with
  | none same =>
    exact ⟨nonempty, alive, same ▸ undisturbed.waited, same ▸ undisturbed.returned⟩
  | called waiting => exact ⟨nonempty, alive, by simp [waiting], by simp [waiting]⟩
  | done workersDone => exact absurd workersDone (not_workersDone undisturbed)
  | timedOut waited => exact ⟨nonempty, alive, by simp [waited], by simp [waited]⟩
  | returned timedOut waited returned =>
    refine ⟨nonempty, alive, by simp [returned], ?_⟩
    rw [returned]
    rintro same
    cases same
    exact undisturbed.waited waited

theorem start_undisturbed (created : newWorkerPool cfg = .ok wp) :
    Undisturbed wp.start ∧ EndsByPanic wp.start := by
  obtain ⟨-, positive, -⟩ := newWorkerPool_spec created
  obtain ⟨fresh, length, idle, started⟩ := start_spec created
  rw [started]
  refine ⟨⟨?_, ?_, by simp, by simp⟩, ?_⟩
  · rintro rfl
    exact positive.ne length
  · intro w member
    simp [Alive, (idle w member).1]
  · intro w member
    simp [(idle w member).1, (idle w member).2]

theorem stop_done_iff_all_panicked (created : newWorkerPool cfg = .ok wp)
    (run : runSchedule WorkerPool.step wp.start actions = some wp') :
    (wp'.workersDone ↔ ∀ w ∈ wp'.pool, w.panics ≠ 0) ∧
      (Along WorkerPool.step Completes wp.start actions → Undisturbed wp') := by
  obtain ⟨undisturbed, ends⟩ := start_undisturbed created
  constructor
  · have ends' := runSchedule_invariant EndsByPanic
      (fun _ _ _ before stepped => endsByPanic_step before stepped) run ends
    simp only [WorkerPool.workersDone, all_eq_true, decide_eq_true_eq]
    exact forall₂_congr ends'
  · intro along
    exact runSchedule_invariant_along Completes Undisturbed
      (fun _ _ _ before completes stepped => undisturbed_step before completes stepped) run along
      undisturbed

end

def shortQueue : PoolConfig := { defaultPoolConfig with QueueLength := 1 }

def scaleUpSteps : List PoolAction :=
  [.submit ⟨some "reindex"⟩, .enqueue 0 none none, .scaleTick, .scaleAdd]

def workOffSteps : List PoolAction := [.receive 1, .begin 1, .deliver 1 false]

def scaleDownSteps : List PoolAction :=
  [.scaleTick, .scaleCount, .scaleCount, .scaleCount, .scaleShrink]

theorem workers_exact_scaled_up : ∃ wp wp', newWorkerPool shortQueue = .ok wp ∧
      runSchedule WorkerPool.step wp.start (scaleUpSteps ++ workOffSteps) = some wp' ∧
      ∀ before after middle, scaleUpSteps ++ workOffSteps = before ++ after →
        runSchedule WorkerPool.step wp.start before = some middle → Exact middle := by
  have created : newWorkerPool shortQueue = .ok { cfg := shortQueue } := rfl
  exact ⟨_, exists_and_left.mpr ⟨created, exists_reached (fun _ => True) (by decide +kernel)
    fun wp run _ => (workers_exact_iff_steady created run).mpr (by decide +kernel)⟩⟩

theorem workers_and_goroutines_differ : (∃ wp wp', newWorkerPool shortQueue = .ok wp ∧
      runSchedule WorkerPool.step wp.start (scaleUpSteps ++ workOffSteps ++ scaleDownSteps) =
        some wp' ∧ runningSet wp' = {0, 1} ∧ wp'.workers = [0]) ∧
    ∃ wp wp', newWorkerPool shortQueue = .ok wp ∧ runSchedule WorkerPool.step wp.start
        [.submit ⟨none⟩, .enqueue 0 none none, .receive 0, .begin 0] = some wp' ∧
      runningSet wp' = ∅ ∧ wp'.workers = [0] := by
  have created : newWorkerPool shortQueue = .ok { cfg := shortQueue } := rfl
  exact ⟨⟨_, exists_and_left.mpr ⟨created, exists_reached _ (by decide +kernel) fun _ _ seen => seen⟩⟩,
    _, exists_and_left.mpr ⟨created, exists_reached _ (by decide +kernel) fun _ _ seen => seen⟩⟩

theorem stop_done_after_panic : ∃ wp wp', newWorkerPool defaultPoolConfig = .ok wp ∧
      runSchedule WorkerPool.step wp.start
        [.submit ⟨none⟩, .enqueue 0 none none, .receive 0, .begin 0, .stop] = some wp' ∧
      wp'.workersDone := by
  have created : newWorkerPool defaultPoolConfig = .ok { cfg := defaultPoolConfig } := rfl
  exact ⟨_, exists_and_left.mpr ⟨created, exists_reached (fun wp => ∀ w ∈ wp.pool, w.panics ≠ 0)
    (by decide +kernel) fun wp run all => (stop_done_iff_all_panicked created run).1.mpr all⟩⟩

theorem idle_pool_never_stops : ∃ wp wp', newWorkerPool defaultPoolConfig = .ok wp ∧
      runSchedule WorkerPool.step wp.start [.stop, .stopTimeout, .stopClear] = some wp' ∧
      wp'.stopping = .returned true ∧ ∀ more wp'', Along WorkerPool.step Completes wp' more →
        runSchedule WorkerPool.step wp' more = some wp'' → ∃ w ∈ wp''.pool, w.phase ≠ .ended := by
  have created : newWorkerPool defaultPoolConfig = .ok { cfg := defaultPoolConfig } := rfl
  refine ⟨_, _, created, rfl, rfl, fun more wp'' along run => ?_⟩
  have undisturbed : Undisturbed wp'' := runSchedule_invariant_along Completes Undisturbed
    (fun _ _ _ before completes stepped => undisturbed_step before completes stepped) run along
    ⟨by decide, by decide, by decide, by decide⟩
  obtain ⟨w, member⟩ := exists_mem_of_ne_nil _ undisturbed.nonempty
  exact ⟨w, member, undisturbed.alive w member⟩

end NexusPipe.Proof.Worker
