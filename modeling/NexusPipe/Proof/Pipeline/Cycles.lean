import NexusPipe.Library.Except
import NexusPipe.Library.Walks
import NexusPipe.Pipeline.Validator

namespace NexusPipe.Proof.Pipeline
open NexusPipe.Pipeline Models Library Relation List

section
variable {n : Nat} (graph : Fin n → List (Fin n))

def PointsTo (u v : Fin n) : Prop := v ∈ graph u

inductive Stepped (s : Search n) : Search n → Prop
  | leave (top : s.calls = ⟨u, []⟩ :: calls) :
      Stepped s { s with color := Function.update s.color u .black, calls := calls }
  | found (top : s.calls = ⟨u, v :: rest⟩ :: calls) (seen : s.color v = .grey) :
      Stepped s { s with hasCycle := true, calls := calls }
  | enter {u v : Fin n} {rest : List (Fin n)} {calls : List (DfsCall n)}
      (top : s.calls = ⟨u, v :: rest⟩ :: calls) (seen : s.color v = .white) :
      Stepped s (Search.enter graph { s with calls := ⟨u, rest⟩ :: calls } v)
  | skip {u v : Fin n} {rest : List (Fin n)} {calls : List (DfsCall n)}
      (top : s.calls = ⟨u, v :: rest⟩ :: calls) (seen : s.color v = .black) :
      Stepped s { s with calls := ⟨u, rest⟩ :: calls }

variable {graph} {s : Search n}

theorem step_cases (next : s.step graph = some s') : Stepped graph s s' := by
  unfold Search.step at next
  split at next
  · cases next
  · next top =>
      obtain rfl := Option.some.inj next
      exact .leave top
  · next u v rest calls top =>
      cases seen : s.color v with
      | grey =>
        simp only [seen, Option.some.injEq] at next
        exact next ▸ .found top seen
      | white =>
        simp only [seen, Option.some.injEq] at next
        exact next ▸ .enter top seen
      | black =>
        simp only [seen, Option.some.injEq] at next
        exact next ▸ .skip top seen

def Pending (graph : Fin n → List (Fin n)) (color : Fin n → Color) :
    Option (Fin n) → List (DfsCall n) → Prop
  | _, [] => True
  | above, call :: calls =>
    (∀ v ∈ graph call.stage, v ∈ call.rest ∨ color v = .black ∨ above = some v) ∧
    (∀ v ∈ call.rest, PointsTo graph call.stage v) ∧
    (∀ v, above = some v → PointsTo graph call.stage v) ∧
    Pending graph color (some call.stage) calls

structure Explored (graph : Fin n → List (Fin n)) (above : Option (Fin n)) (s : Search n) : Prop where
  grey : ∀ u, s.color u = .grey ↔ u ∈ s.calls.map DfsCall.stage
  nodup : (s.calls.map DfsCall.stage).Nodup
  pending : Pending graph s.color above s.calls
  closed : ∀ u, s.color u = .black → ∀ v, PointsTo graph u v → s.color v = .black
  acyclic : ∀ u, s.color u = .black → ¬ TransGen (PointsTo graph) u u

theorem Pending.mono (pending : Pending graph color above calls)
    (kept : ∀ v, color v = .black → color' v = .black) : Pending graph color' above calls := by
  induction calls generalizing above with
  | nil => trivial
  | cons call calls ih =>
    obtain ⟨met, rest, waits, later⟩ := pending
    refine ⟨fun v edge => ?_, rest, waits, ih later⟩
    exact (met v edge).imp_right (Or.imp_left (kept v))

variable {u : Fin n}

theorem Pending.returned (pending : Pending graph color (some u) calls) (done : color u = .black) :
    Pending graph color none calls := by
  cases calls with
  | nil => trivial
  | cons call calls =>
    obtain ⟨met, rest, -, later⟩ := pending
    refine ⟨fun v edge => ?_, rest, by simp, later⟩
    rcases met v edge with waiting | black | same
    · exact .inl waiting
    · exact .inr (.inl black)
    · exact .inr (.inl (Option.some.inj same ▸ done))

theorem Pending.reaches (pending : Pending graph color above (call :: calls)) :
    ∀ v ∈ (call :: calls).map DfsCall.stage, ReflTransGen (PointsTo graph) v call.stage := by
  induction calls generalizing above call with
  | nil =>
    intro v member
    obtain rfl : v = call.stage := by simpa using member
    exact .refl
  | cons below calls ih =>
    obtain ⟨-, -, -, later⟩ := pending
    intro v member
    rw [map_cons, mem_cons] at member
    rcases member with rfl | member
    · exact .refl
    · exact (ih later v member).tail (later.2.2.1 call.stage rfl)

theorem Explored.enter (explored : Explored graph (some v) s) (fresh : s.color v = .white) :
    Explored graph none (s.enter graph v) := by
  have other {w : Fin n} (black : s.color w = .black) : w ≠ v := by
    rintro rfl
    rw [fresh] at black
    cases black
  have kept (w : Fin n) (black : s.color w = .black) :
      Function.update s.color v .grey w = .black := by
    rw [Function.update_of_ne (other black), black]
  have old {w : Fin n} (black : Function.update s.color v .grey w = .black) :
      s.color w = .black := by
    by_cases same : w = v
    · subst same
      simp at black
    · rwa [Function.update_of_ne same] at black
  refine ⟨fun w => ?_, ?_, ⟨fun w edge => .inl edge, fun w edge => edge, by simp, ?_⟩, ?_, ?_⟩
  · by_cases same : w = v
    · subst same
      simp [Search.enter]
    · simp [Search.enter, same, explored.grey]
  · refine nodup_cons.mpr ⟨fun again => ?_, explored.nodup⟩
    have grey := (explored.grey v).mpr again
    rw [fresh] at grey
    cases grey
  · exact explored.pending.mono kept
  · intro w black x edge
    exact kept x (explored.closed w (old black) x edge)
  · intro w black
    exact explored.acyclic w (old black)

theorem black_of_path
    (closed : ∀ u, s.color u = .black → ∀ v, PointsTo graph u v → s.color v = .black)
    (black : s.color u = .black) (path : ReflTransGen (PointsTo graph) u v) :
    s.color v = .black := by
  induction path with
  | refl => exact black
  | tail _ edge ih => exact closed _ ih _ edge

theorem Explored.leave (explored : Explored graph none s) (top : s.calls = ⟨u, []⟩ :: calls) :
    Explored graph none { s with color := Function.update s.color u .black, calls := calls } := by
  obtain ⟨grey, nodup, pending, closed, acyclic⟩ := explored
  rw [top] at pending
  rw [top, map_cons, nodup_cons] at nodup
  obtain ⟨met, -, -, later⟩ := pending
  have isGrey : s.color u = .grey := (grey u).mpr (by simp [top])
  have neighbours (v : Fin n) (edge : PointsTo graph u v) : s.color v = .black := by
    rcases met v edge with waiting | black | same
    · cases waiting
    · exact black
    · cases same
  have kept (v : Fin n) (black : s.color v = .black) :
      Function.update s.color u .black v = .black := by
    by_cases same : v = u
    · rw [same, Function.update_self]
    · rwa [Function.update_of_ne same]
  have old (w : Fin n) (black : Function.update s.color u .black w = .black) :
      w = u ∨ s.color w = .black := by
    by_cases same : w = u
    · exact .inl same
    · rw [Function.update_of_ne same] at black
      exact .inr black
  refine ⟨fun w => ?_, nodup.2, ?_, fun w black v edge => ?_, fun w black => ?_⟩
  · by_cases same : w = u
    · subst same
      simpa using nodup.1
    · simp [same, grey, top]
  · exact (later.mono kept).returned (Function.update_self ..)
  · rcases old w black with rfl | black
    · exact kept v (neighbours v edge)
    · exact kept v (closed w black v edge)
  · rcases old w black with rfl | black
    · -- a path back to `w` would stay among black stages, and `w` was grey
      intro cycle
      obtain ⟨v, edge, path⟩ := TransGen.head'_iff.mp cycle
      have black := black_of_path closed (neighbours v edge) path
      rw [isGrey] at black
      cases black
    · exact acyclic w black

theorem Explored.cycle (explored : Explored graph none s) (top : s.calls = ⟨u, v :: rest⟩ :: calls)
    (seen : s.color v = .grey) : TransGen (PointsTo graph) v v := by
  have pending := explored.pending
  have onStack := (explored.grey v).mp seen
  rw [top] at pending onStack
  exact .tail' (pending.reaches v onStack) (pending.2.1 v mem_cons_self)

theorem Explored.advance (explored : Explored graph none s)
    (top : s.calls = ⟨u, v :: rest⟩ :: calls) (met : s.color v = .black ∨ above = some v)
    (waits : ∀ w, above = some w → w = v) :
    Explored graph above { s with calls := ⟨u, rest⟩ :: calls } := by
  obtain ⟨grey, nodup, pending, closed, acyclic⟩ := explored
  rw [top] at pending
  obtain ⟨metBefore, points, -, later⟩ := pending
  refine ⟨fun w => by simpa [top] using grey w, by simpa [top] using nodup,
    ⟨fun w edge => ?_, fun w member => points w (mem_cons_of_mem v member), ?_, later⟩,
    closed, acyclic⟩
  · rcases metBefore w edge with waiting | black | same
    · rcases mem_cons.mp waiting with rfl | waiting
      · exact .inr met
      · exact .inl waiting
    · exact .inr (.inl black)
    · cases same
  · intro w same
    exact waits w same ▸ points v mem_cons_self

structure SearchInvariant (graph : Fin n → List (Fin n)) (visited : Fin n → Prop) (s : Search n) :
    Prop where
  found : s.hasCycle = true → ∃ u, TransGen (PointsTo graph) u u
  explored : s.hasCycle = false → Explored graph none s
  visited : ∀ u, visited u → s.color u ≠ .white

variable {visited : Fin n → Prop}

theorem SearchInvariant.step (invariant : SearchInvariant graph visited s)
    (next : s.step graph = some s') : SearchInvariant graph visited s' := by
  obtain ⟨found, explored, visited⟩ := invariant
  have recolored {u : Fin n} {c : Color} (colored : c ≠ .white) (w : Fin n)
      (isVisited : s.color w ≠ .white) : Function.update s.color u c w ≠ .white := by
    by_cases same : w = u
    · rwa [same, Function.update_self]
    · rwa [Function.update_of_ne same]
  cases step_cases next with
  | leave top =>
    exact ⟨found, fun none => (explored none).leave top,
      fun u isVisited => recolored (by decide) u (visited u isVisited)⟩
  | found top seen =>
    refine ⟨fun _ => ?_, fun none => Bool.noConfusion none, visited⟩
    cases before : s.hasCycle with
    | true => exact found before
    | false => exact ⟨_, (explored before).cycle top seen⟩
  | @enter u v rest calls top seen =>
    refine ⟨found, fun none => ?_, fun u isVisited => recolored (by decide) u (visited u isVisited)⟩
    exact ((explored none).advance top (.inr rfl) fun w same => (Option.some.inj same).symm).enter seen
  | skip top seen =>
    exact ⟨found, fun none => (explored none).advance top (.inl seen) (by simp), visited⟩

theorem dfs_spec (invariant : SearchInvariant graph visited s) (none : s.hasCycle = false)
    (idle : s.calls = []) (fresh : s.color u = .white) :
    SearchInvariant graph (fun v => visited v ∨ v = u) (s.dfs graph u) ∧
      (s.dfs graph u).calls = [] := by
  have entered : SearchInvariant graph (fun v => visited v ∨ v = u) (s.enter graph u) := by
    obtain ⟨grey, nodup, -, closed, acyclic⟩ := invariant.explored none
    have waiting : Explored graph (some u) s :=
      ⟨grey, nodup, by rw [idle]; trivial, closed, acyclic⟩
    refine ⟨invariant.found, fun _ => waiting.enter fresh, ?_⟩
    rintro v (isVisited | rfl)
    · by_cases same : v = u
      · simp [Search.enter, same]
      · simpa [Search.enter, same] using invariant.visited v isVisited
    · simp [Search.enter]
  obtain ⟨kept, stopped⟩ := whileDo_invariant (Search.step_decreases graph)
    (SearchInvariant graph fun v => visited v ∨ v = u)
    (fun s s' invariant next => invariant.step next) _ entered
  refine ⟨kept, ?_⟩
  have empty (s : Search n) (stopped : s.step graph = Option.none) : s.calls = [] := by
    unfold Search.step at stopped
    split at stopped
    · assumption
    · cases stopped
    · split at stopped <;> cases stopped
  exact empty _ stopped

end

def DependsOnLast (stages : List Stage) (i j : Fin stages.length) : Prop :=
  ∃ dep ∈ (stages.get i).DependsOn, (stages.get j).Name = dep ∧
    ∀ k, j < k → (stages.get k).Name ≠ dep

theorem lookup_foldl_index {name : Fin n → String} {l : List (Fin n)} (sorted : l.Pairwise (· < ·))
    (dep : String) (j : Fin n) :
    (l.foldl (fun index i => index.insert (name i) i) (∅ : GoMap String (Fin n))).lookup dep = some j ↔
      j ∈ l ∧ name j = dep ∧ ∀ k ∈ l, j < k → name k ≠ dep := by
  induction l using reverseRecOn with
  | nil => simp
  | append_singleton l i ih =>
    obtain ⟨sorted, -, last⟩ := pairwise_append.mp sorted
    rw [foldl_concat, GoMap.lookup_insert_eq]
    simp only [mem_append, mem_singleton]
    split_ifs with same
    · subst same
      constructor
      · rintro ⟨⟩
        refine ⟨.inr rfl, rfl, ?_⟩
        rintro k (earlier | rfl) less
        · exact absurd (last k earlier j mem_cons_self) (lt_asymm less)
        · exact absurd less (lt_irrefl k)
      · rintro ⟨earlier | rfl, -, latest⟩
        · exact absurd rfl (latest i (.inr rfl) (last j earlier i mem_cons_self))
        · rfl
    · rw [ih sorted]
      constructor
      · rintro ⟨member, named, latest⟩
        refine ⟨.inl member, named, ?_⟩
        rintro k (earlier | rfl) less
        · exact latest k earlier less
        · exact Ne.symm same
      · rintro ⟨member | rfl, named, latest⟩
        · exact ⟨member, named, fun k earlier => latest k (.inl earlier)⟩
        · exact absurd named.symm same

theorem pointsTo_stageGraph (stages : List Stage) :
    PointsTo (stageGraph stages) = DependsOnLast stages := by
  funext i j
  simp only [PointsTo, stageGraph, mem_filterMap, DependsOnLast, eq_iff_iff, stageIndex]
  refine exists_congr fun dep => and_congr_right fun _ => ?_
  rw [lookup_foldl_index (pairwise_lt_finRange _)]
  simp

variable {n : Nat}

def circularDependency : ValidationError :=
  ⟨.str "stages", .str "circular dependency detected in stage graph"⟩

structure Swept (graph : Fin n → List (Fin n)) (seen : List (Fin n)) (s : Search n) : Prop where
  none : s.hasCycle = false
  idle : s.calls = []
  invariant : SearchInvariant graph (· ∈ seen) s

theorem swept_start (graph : Fin n → List (Fin n)) : Swept graph [] ⟨fun _ => .white, false, []⟩ := by
  refine ⟨rfl, rfl, by simp, fun _ => ?_, by simp⟩
  exact ⟨by simp, nodup_nil, trivial, by simp, by simp⟩

theorem Swept.acyclic (swept : Swept graph (finRange n) s) (u : Fin n) :
    ¬ TransGen (PointsTo graph) u u := by
  have explored := swept.invariant.explored swept.none
  refine explored.acyclic u ?_
  cases color : s.color u with
  | white => exact absurd color (swept.invariant.visited u (mem_finRange u))
  | grey =>
    have onStack := (explored.grey u).mp color
    rw [swept.idle] at onStack
    cases onStack
  | black => rfl

theorem detectCycles_cases (stages : List Stage) :
    PipelineValidator.detectCycles stages = [circularDependency] ∧
        (∃ i, TransGen (DependsOnLast stages) i i) ∨
      PipelineValidator.detectCycles stages = [] ∧ ¬ ∃ i, TransGen (DependsOnLast stages) i i := by
  simp only [← pointsTo_stageGraph, PipelineValidator.detectCycles]
  generalize ended : foldlM (m := Except (List ValidationError)) _ _ _ = result
  have either := foldlM_cases ended (Swept (stageGraph stages))
    fun errs => errs = [circularDependency] ∧ ∃ i, TransGen (PointsTo (stageGraph stages)) i i
  refine (either ?_ (swept_start _)).imp ?_ ?_
  · rintro before i after s - ⟨none, idle, invariant⟩
    by_cases fresh : s.color i = .white
    · obtain ⟨kept, idle'⟩ := dfs_spec invariant none idle fresh
      have visited (v : Fin stages.length) : (v ∈ before ∨ v = i) ↔ v ∈ before ++ [i] := by simp
      simp only [visited] at kept
      rw [if_pos fresh]
      cases found : (s.dfs (stageGraph stages) i).hasCycle with
      | true => exact .inl ⟨_, rfl, rfl, kept.found found⟩
      | false => exact .inr ⟨_, rfl, found, idle', kept⟩
    · refine .inr ⟨s, if_neg fresh, none, idle, invariant.found, invariant.explored, ?_⟩
      intro u member
      rcases mem_append.mp member with earlier | here
      · exact invariant.visited u earlier
      · exact mem_singleton.mp here ▸ fresh
  · rintro ⟨errs, rfl, rfl, cycle⟩
    exact ⟨rfl, cycle⟩
  · rintro ⟨s, rfl, swept⟩
    refine ⟨rfl, ?_⟩
    rintro ⟨i, cycle⟩
    exact swept.acyclic i cycle

theorem detectCycles_iff (stages : List Stage) :
    (PipelineValidator.detectCycles stages = [circularDependency] ↔
      ∃ i, TransGen (DependsOnLast stages) i i) ∧
    (PipelineValidator.detectCycles stages = [] ↔ ¬ ∃ i, TransGen (DependsOnLast stages) i i) := by
  rcases detectCycles_cases stages with ⟨reported, cycle⟩ | ⟨quiet, acyclic⟩
  · exact ⟨iff_of_true reported cycle, iff_of_false (by rw [reported]; simp) (not_not.mpr cycle)⟩
  · exact ⟨iff_of_false (by rw [quiet]; simp) acyclic, iff_of_true quiet acyclic⟩

end NexusPipe.Proof.Pipeline
