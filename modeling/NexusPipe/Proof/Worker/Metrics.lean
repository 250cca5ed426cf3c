import NexusPipe.Proof.Worker.Pool
import NexusPipe.Worker.Health

namespace NexusPipe.Proof.Worker.Metrics
open Library NexusPipe.Worker List

variable {wp wp' : WorkerPool} {a : PoolAction} {actions : List PoolAction} {k : Nat}
  {done : Nat → Nat} {w : PoolWorker}

def isDelivery (k : Nat) : PoolAction → Bool
  | .deliver worker _ => worker = k
  | _ => false

def completed (k : Nat) (actions : List PoolAction) : Nat := actions.countP (isDelivery k)

def Stored (done : Nat) : Option WorkerMetrics → Prop
  | none => done = 0
  | some m => done ≠ 0 ∧ m.TasksProcessed = done ∧ m.TasksSucceeded = 1 ∧ m.TasksFailed = 0

structure Counted (done : Nat → Nat) (wp : WorkerPool) : Prop where
  tallies : ∀ k w, wp.pool[k]? = some w → Tallies (done k) w
  unborn : ∀ k, wp.pool.length ≤ k → done k = 0
  stored : ∀ k, Stored (done k) (wp.metrics.lookup (workerID k))
  keys : ∀ key m, wp.metrics.lookup key = some m → ∃ k, key = workerID k

theorem workerID_injective : Function.Injective workerID := by
  intro j k same
  simp only [workerID, sprintf, foldl_cons, foldl_nil, Text.format.injEq, Text.int.injEq] at same
  omega

theorem Counted.kept (counted : Counted done wp) (metrics : wp'.metrics = wp.metrics)
    (tallies : ∀ k w, wp'.pool[k]? = some w → Tallies (done k) w)
    (grown : wp.pool.length ≤ wp'.pool.length) : Counted done wp' where
  tallies := tallies
  unborn k beyond := counted.unborn k (grown.trans beyond)
  stored := metrics ▸ counted.stored
  keys := metrics ▸ counted.keys

theorem Counted.added (counted : Counted done wp) (pool : wp'.pool = wp.addWorker.pool)
    (metrics : wp'.metrics = wp.metrics) : Counted done wp' := by
  refine counted.kept metrics ?_ (by simp [pool, WorkerPool.addWorker])
  intro k w found
  rw [pool, WorkerPool.addWorker] at found
  rcases Nat.lt_trichotomy k wp.pool.length with before | rfl | beyond
  · rw [getElem?_append_left before] at found
    exact counted.tallies k w found
  · rw [getElem?_concat_length] at found
    obtain rfl := Option.some.inj found
    exact (counted.unborn _ le_rfl).symm
  · rw [getElem?_eq_none (by simpa [Nat.succ_le_iff] using beyond)] at found
    cases found

theorem Counted.set (counted : Counted done wp) (pool : wp'.pool = wp.pool.set k w')
    (metrics : wp'.metrics = wp.metrics) (tallies : Tallies (done k) w') : Counted done wp' := by
  refine counted.kept metrics ?_ (by rw [pool, length_set])
  intro j v found
  rw [pool, getElem?_set] at found
  split_ifs at found with same inside
  · cases found
    exact same ▸ tallies
  · exact counted.tallies j v found

theorem tallies_of_ended (ended : ¬ Alive w) (n : Nat) : Tallies n w := by
  simp [Tallies, not_not.mp ended]

theorem counted_deliver (counted : Counted done wp) (stepped : wp.deliver k panics = some wp') :
    Counted (fun j => done j + completed j [.deliver k panics]) wp' := by
  obtain ⟨w, w', task, present, phase, tasks, after, rfl⟩ := deliver_cases stepped
  have mine : w.tasks = done k + 1 := by
    have before := counted.tallies k w present
    simpa only [Tallies, phase] using before
  have count (j : Nat) : done j + completed j [.deliver k panics] =
      if j = k then done k + 1 else done j := by
    by_cases same : j = k
    · simp [completed, isDelivery, same]
    · simp [completed, isDelivery, same, Ne.symm same]
  have inside := (List.getElem?_eq_some_iff.mp present).1
  simp only [count]
  refine ⟨?_, ?_, ?_, ?_⟩
  · intro j v found
    rw [getElem?_set] at found
    split_ifs at found with same
    · cases found
      rw [if_pos same.symm]
      cases panics with
      | true => exact tallies_of_ended (by simp [Alive, after.1]) _
      | false => simp only [Tallies, after.1, tasks, mine]
    · rw [if_neg (Ne.symm same)]
      exact counted.tallies j v found
  · intro j beyond
    rw [length_set] at beyond
    rw [if_neg (by omega)]
    exact counted.unborn j beyond
  · intro j
    rw [WorkerPool.updateMetrics, GoMap.lookup_insert_eq]
    by_cases same : j = k
    · rw [if_pos (congrArg workerID same), if_pos same]
      exact ⟨Nat.succ_ne_zero _, mine, rfl, rfl⟩
    · rw [if_neg (workerID_injective.ne same), if_neg same]
      exact counted.stored j
  · intro key m found
    rw [WorkerPool.updateMetrics, GoMap.lookup_insert_eq] at found
    split_ifs at found with same
    · exact ⟨k, same⟩
    · exact counted.keys key m found

theorem counted_step (counted : Counted done wp) (stepped : wp.step a = some wp') :
    Counted (fun k => done k + completed k [a]) wp' := by
  by_cases delivery : ∃ worker panics, a = .deliver worker panics
  · obtain ⟨worker, panics, rfl⟩ := delivery
    exact counted_deliver counted stepped
  · have other (worker : Nat) (panics : Bool) : a ≠ .deliver worker panics :=
      fun same => delivery ⟨worker, panics, same⟩
    have quiet : (fun k => done k + completed k [a]) = done := by
      funext k
      cases a with
      | deliver worker panics => exact absurd rfl (other worker panics)
      | _ => rfl
    rw [quiet]
    obtain ⟨-, effect, -, metrics⟩ := step_spec stepped
    cases effect with
    | quiet pool | dropped pool =>
      exact counted.kept (metrics other) (pool ▸ counted.tallies) (by rw [pool])
    | added pool => exact counted.added pool (metrics other)
    | moved p w w' present _ _ _ pool _ _ _ tallies =>
      exact counted.set pool (metrics other) (tallies (other p) _ (counted.tallies p w present))
    | panicked p w w' present _ ended _ pool =>
      exact counted.set pool (metrics other) (tallies_of_ended ended _)

theorem counted_run (counted : Counted done wp)
    (run : runSchedule WorkerPool.step wp actions = some wp') :
    Counted (fun k => done k + completed k actions) wp' := by
  induction actions generalizing done wp with
  | nil =>
    obtain rfl := Option.some.inj run
    exact counted
  | cons a actions ih =>
    obtain ⟨middle, first, rest⟩ := runSchedule_cons.mp run
    have later := ih (counted_step counted first) rest
    have total : (fun k => done k + completed k [a] + completed k actions) =
        fun k => done k + completed k (a :: actions) := by
      funext k
      simp only [completed, countP_cons, countP_nil]
      omega
    exact total ▸ later

theorem counted_addWorkers (n : Nat) (counted : Counted done wp) :
    Counted done (WorkerPool.addWorkers n wp) := by
  induction n generalizing wp with
  | zero => exact counted
  | succ n ih => exact ih (counted.added rfl rfl)

theorem counted_start (created : newWorkerPool cfg = .ok wp) : Counted (fun _ => 0) wp.start := by
  obtain ⟨eq, -, -⟩ := newWorkerPool_spec created
  refine counted_addWorkers wp.minWorkers ?_
  rw [eq]
  exact ⟨by simp, fun _ _ => rfl, fun _ => rfl, by simp⟩

def Balanced (m : WorkerMetrics) : Prop := m.TasksProcessed = m.TasksSucceeded + m.TasksFailed

theorem totals_balanced_iff {ms : List WorkerMetrics} (total : MetricsTotals)
    (enough : ∀ m ∈ ms, m.TasksSucceeded + m.TasksFailed ≤ m.TasksProcessed)
    (start : total.succeeded + total.failed ≤ total.processed) :
    (ms.foldl MetricsTotals.add total).processed =
        (ms.foldl MetricsTotals.add total).succeeded + (ms.foldl MetricsTotals.add total).failed ↔
      total.processed = total.succeeded + total.failed ∧ ∀ m ∈ ms, Balanced m := by
  induction ms generalizing total with
  | nil => simp
  | cons m ms ih =>
    rw [forall_mem_cons] at enough ⊢
    have here := enough.1
    have next : (total.add m).succeeded + (total.add m).failed ≤ (total.add m).processed := by
      simp only [MetricsTotals.add]
      omega
    rw [foldl_cons, ih _ enough.2 next, ← and_assoc]
    refine and_congr_left' ?_
    simp only [MetricsTotals.add, Balanced]
    omega

theorem Counted.listed_iff (counted : Counted done wp) (order : GoMap.RangeOrder Text WorkerMetrics)
    {property : WorkerMetrics → Prop} : (∀ m ∈ wp.listMetrics order, property m) ↔
      ∀ k m, wp.metrics.lookup (workerID k) = some m → property m := by
  simp only [WorkerPool.listMetrics, forall_mem_map]
  constructor
  · intro all k m found
    exact all ⟨workerID k, m⟩ ((order wp.metrics).mem_entries.mpr found)
  · rintro all ⟨key, m⟩ member
    have found := (order wp.metrics).mem_entries.mp member
    obtain ⟨k, rfl⟩ := counted.keys key m found
    exact all k m found

theorem Counted.balanced_iff (counted : Counted done wp) (k : Nat) :
    (∀ m, wp.metrics.lookup (workerID k) = some m → Balanced m) ↔ done k ≤ 1 := by
  have stored := counted.stored k
  cases found : wp.metrics.lookup (workerID k) with
  | none =>
    rw [found, Stored] at stored
    simp [stored]
  | some m =>
    rw [found] at stored
    obtain ⟨positive, processed, succeeded, failed⟩ := stored
    simp only [Option.some.injEq, forall_eq', Balanced]
    omega

theorem Counted.collectMetrics_iff (counted : Counted done wp)
    (order : GoMap.RangeOrder Text WorkerMetrics) : (collectMetrics order wp).TasksProcessed =
        (collectMetrics order wp).TasksSucceeded + (collectMetrics order wp).TasksFailed ↔
      ∀ k, done k ≤ 1 := by
  have enough : ∀ m ∈ wp.listMetrics order,
      m.TasksSucceeded + m.TasksFailed ≤ m.TasksProcessed := by
    rw [counted.listed_iff]
    intro k m found
    have stored := counted.stored k
    rw [found] at stored
    obtain ⟨positive, processed, succeeded, failed⟩ := stored
    omega
  refine (totals_balanced_iff {} enough le_rfl).trans ((and_iff_right rfl).trans ?_)
  rw [counted.listed_iff]
  exact forall_congr' counted.balanced_iff

theorem counted_of_run (created : newWorkerPool cfg = .ok wp)
    (run : runSchedule WorkerPool.step wp.start actions = some wp') :
    Counted (fun k => completed k actions) wp' := by
  simpa only [Nat.zero_add] using counted_run (counted_start created) run

theorem metrics_balanced_iff {cfg : PoolConfig} (created : newWorkerPool cfg = .ok wp)
    (run : runSchedule WorkerPool.step wp.start actions = some wp')
    (order : GoMap.RangeOrder Text WorkerMetrics) :
    (∀ k, (∀ m, wp'.metrics.lookup (workerID k) = some m →
        m.TasksProcessed = m.TasksSucceeded + m.TasksFailed) ↔ completed k actions ≤ 1) ∧
      ((collectMetrics order wp').TasksProcessed =
        (collectMetrics order wp').TasksSucceeded + (collectMetrics order wp').TasksFailed ↔
        ∀ k, completed k actions ≤ 1) :=
  have counted := counted_of_run created run
  ⟨counted.balanced_iff, counted.collectMetrics_iff order⟩

def oneTask : List PoolAction :=
  [.submit ⟨some "t"⟩, .enqueue 0 none none, .receive 0, .begin 0, .deliver 0 false]

def startedPool : WorkerPool := WorkerPool.start { cfg := defaultPoolConfig }

theorem one_task_balanced : ∃ wp, runSchedule WorkerPool.step startedPool oneTask = some wp ∧
    ∀ order, (collectMetrics order wp).TasksProcessed =
      (collectMetrics order wp).TasksSucceeded + (collectMetrics order wp).TasksFailed := by
  refine exists_reached (fun _ => True) (by decide +kernel) fun wp run _ order => ?_
  have created : newWorkerPool defaultPoolConfig = .ok { cfg := defaultPoolConfig } := rfl
  have few (k : Nat) : completed k oneTask ≤ 1 := by
    by_cases first : 0 = k <;> simp [completed, oneTask, isDelivery, first]
  exact (metrics_balanced_iff created run order).2.mpr few

theorem two_tasks_unbalanced :
    ∃ wp, runSchedule WorkerPool.step startedPool (oneTask ++ oneTask) = some wp ∧
      wp.metrics.lookup (workerID 0) = some { WorkerID := workerID 0, TasksProcessed := 2
                                              TasksSucceeded := 1, TasksFailed := 0, Panics := 0 } ∧
      ∀ order, (collectMetrics order wp).TasksProcessed ≠
        (collectMetrics order wp).TasksSucceeded + (collectMetrics order wp).TasksFailed := by
  refine exists_reached (fun wp => wp.metrics.lookup (workerID 0) = some ⟨_, 2, 1, 0, 0, 0, 0⟩)
    (by decide +kernel) fun wp run snapshot => ⟨snapshot, fun order => ?_⟩
  have created : newWorkerPool defaultPoolConfig = .ok { cfg := defaultPoolConfig } := rfl
  rw [Ne, (counted_of_run created run).collectMetrics_iff order, not_forall]
  exact ⟨0, by decide⟩

end NexusPipe.Proof.Worker.Metrics
