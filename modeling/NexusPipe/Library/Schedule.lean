import Mathlib.Data.List.Induction

namespace NexusPipe.Library

variable {σ α : Type*}

/-- Take the actions of a schedule in turn; `none` when one of them is not enabled. -/
def runSchedule (step : σ → α → Option σ) : σ → List α → Option σ
  | s, [] => some s
  | s, a :: actions => (step s a).bind fun s' => runSchedule step s' actions

/-- Every step of the schedule is taken from a state that meets the condition. -/
def Along (step : σ → α → Option σ) (condition : σ → α → Prop) : σ → List α → Prop
  | _, [] => True
  | s, a :: actions => condition s a ∧ ∀ s', step s a = some s' → Along step condition s' actions

variable {step : σ → α → Option σ}

instance decidableAlong {condition : σ → α → Prop} [∀ s a, Decidable (condition s a)] :
    ∀ s actions, Decidable (Along step condition s actions)
  | _, [] => .isTrue trivial
  | s, a :: actions =>
    have : DecidablePred fun s' => Along step condition s' actions :=
      fun s' => decidableAlong s' actions
    inferInstanceAs (Decidable (condition s a ∧ ∀ s' ∈ step s a, Along step condition s' actions))

variable {actions : List α} {s s' : σ}

theorem runSchedule_cons : runSchedule step s (a :: actions) = some s' ↔
      ∃ middle, step s a = some middle ∧ runSchedule step middle actions = some s' := by
  simp [runSchedule, Option.bind_eq_some_iff]

theorem runSchedule_concat (run : runSchedule step s (actions ++ [a]) = some s') :
    ∃ middle, runSchedule step s actions = some middle ∧ step middle a = some s' := by
  induction actions generalizing s with
  | nil =>
    obtain ⟨middle, first, rest⟩ := runSchedule_cons.mp run
    exact ⟨s, rfl, by rw [first, ← rest]; rfl⟩
  | cons b actions ih =>
    obtain ⟨middle, first, rest⟩ := runSchedule_cons.mp run
    obtain ⟨last, reached, final⟩ := ih rest
    exact ⟨last, runSchedule_cons.mpr ⟨middle, first, reached⟩, final⟩

theorem runSchedule_invariant_along (condition : σ → α → Prop) (invariant : σ → Prop)
    (preserved : ∀ s a s', invariant s → condition s a → step s a = some s' → invariant s')
    (run : runSchedule step s actions = some s') (along : Along step condition s actions)
    (initial : invariant s) : invariant s' := by
  induction actions generalizing s with
  | nil => exact Option.some.inj run ▸ initial
  | cons a actions ih =>
    obtain ⟨middle, first, rest⟩ := runSchedule_cons.mp run
    exact ih rest (along.2 middle first) (preserved s a middle initial along.1 first)

variable {condition : σ → α → Prop}

theorem along_of_forall (always : ∀ a ∈ actions, ∀ s, condition s a) (s : σ) :
    Along step condition s actions := by
  induction actions generalizing s with
  | nil => trivial
  | cons a actions ih =>
    exact ⟨always a List.mem_cons_self s,
      fun s' _ => ih (fun b member => always b (List.mem_cons_of_mem a member)) s'⟩

theorem along_of_append (along : Along step condition s (actions ++ more)) :
    Along step condition s actions := by
  induction actions generalizing s with
  | nil => trivial
  | cons a actions ih => exact ⟨along.1, fun s' next => ih (along.2 s' next)⟩

theorem along_rest (along : Along step condition s (actions ++ more))
    (run : runSchedule step s actions = some middle) : Along step condition middle more := by
  induction actions generalizing s with
  | nil => exact Option.some.inj run ▸ along
  | cons a actions ih =>
    obtain ⟨next, first, rest⟩ := runSchedule_cons.mp run
    exact ih (along.2 next first) rest

theorem runSchedule_invariant (invariant : σ → Prop)
    (preserved : ∀ s a s', invariant s → step s a = some s' → invariant s')
    (run : runSchedule step s actions = some s') (initial : invariant s) : invariant s' :=
  runSchedule_invariant_along (fun _ _ => True) invariant
    (fun s a s' holds _ => preserved s a s' holds) run (along_of_forall (fun _ _ _ => trivial) s)
    initial

theorem runSchedule_append (run : runSchedule step s actions = some middle)
    (rest : runSchedule step middle more = some s') :
    runSchedule step s (actions ++ more) = some s' := by
  induction actions generalizing s with
  | nil => exact Option.some.inj run ▸ rest
  | cons a actions ih =>
    obtain ⟨next, first, later⟩ := runSchedule_cons.mp run
    exact runSchedule_cons.mpr ⟨next, first, ih later⟩

theorem runSchedule_rest (whole : runSchedule step s (actions ++ more) = some s')
    (run : runSchedule step s actions = some middle) : runSchedule step middle more = some s' := by
  induction actions generalizing s with
  | nil => exact Option.some.inj run ▸ whole
  | cons a actions ih =>
    obtain ⟨next, first, rest⟩ := runSchedule_cons.mp run
    obtain ⟨next', first', rest'⟩ := runSchedule_cons.mp whole
    obtain rfl := Option.mem_unique first first'
    exact ih rest' rest

/-- Of a run that can be computed, by evaluation. -/
theorem exists_reached {o : Option σ} {goal : σ → Prop} (seen : σ → Prop) [DecidablePred seen]
    (reached : o.any seen = true) (holds : ∀ s, o = some s → seen s → goal s) :
    ∃ s, o = some s ∧ goal s := by
  cases o with
  | none => cases reached
  | some s => exact ⟨s, rfl, holds s rfl (of_decide_eq_true reached)⟩

/-- Progress: if every state short of the goal has an allowed step that lowers the rank, allowed
steps reach the goal. -/
theorem exists_run_to_goal (allowed : α → Prop) (invariant goal : σ → Prop) (rank : σ → Nat)
    (progress : ∀ s, invariant s → ¬ goal s →
      ∃ a s', allowed a ∧ step s a = some s' ∧ invariant s' ∧ rank s' < rank s)
    (initial : invariant s) :
    ∃ actions s', (∀ a ∈ actions, allowed a) ∧ runSchedule step s actions = some s' ∧ goal s' := by
  induction measured : rank s using Nat.strongRecOn generalizing s with
  | _ k ih =>
    by_cases reached : goal s
    · exact ⟨[], s, by simp, rfl, reached⟩
    · obtain ⟨a, next, permitted, first, holds, less⟩ := progress s initial reached
      obtain ⟨actions, s', all, rest, reached⟩ := ih (rank next) (measured ▸ less) holds rfl
      refine ⟨a :: actions, s', ?_, runSchedule_cons.mpr ⟨next, first, rest⟩, reached⟩
      intro b member
      rcases List.mem_cons.mp member with rfl | later
      · exact permitted
      · exact all b later

theorem along_congr {guard : σ → α → Prop} (invariant : σ → Prop)
    (preserved : ∀ s a s', invariant s → guard s a → step s a = some s' → invariant s')
    (agree : ∀ s a, invariant s → guard s a → (condition s a ↔ condition' s a))
    (initial : invariant s) (along : Along step guard s actions) :
    Along step condition s actions ↔ Along step condition' s actions := by
  induction actions generalizing s with
  | nil => rfl
  | cons a actions ih =>
    refine and_congr (agree s a initial along.1) (forall_congr' fun s' => ?_)
    exact forall_congr' fun next => ih (preserved s a s' initial along.1 next) (along.2 s' next)

theorem along_congr_of_invariant (invariant : σ → Prop)
    (preserved : ∀ s a s', invariant s → step s a = some s' → invariant s')
    (agree : ∀ s a, invariant s → (condition s a ↔ condition' s a)) (initial : invariant s) :
    Along step condition s actions ↔ Along step condition' s actions :=
  along_congr invariant (fun s a s' holds (_ : True) next => preserved s a s' holds next)
    (fun s a holds _ => agree s a holds) initial (along_of_forall (fun _ _ _ => trivial) s)

theorem exists_step_of_not_along (run : runSchedule step s actions = some s')
    (broken : ¬ Along step condition s actions) :
    ∃ before a after middle next, actions = before ++ a :: after ∧
      runSchedule step s before = some middle ∧ ¬ condition middle a ∧
      step middle a = some next ∧ runSchedule step next after = some s' := by
  induction actions generalizing s with
  | nil => exact absurd trivial broken
  | cons a actions ih =>
    obtain ⟨middle, first, rest⟩ := runSchedule_cons.mp run
    by_cases here : condition s a
    · have later : ¬ Along step condition middle actions := fun along =>
        broken ⟨here, fun s' next => by
          rw [first, Option.some.injEq] at next
          exact next ▸ along⟩
      obtain ⟨before, b, after, s₁, s₂, rfl, run₁, fails, next, run₂⟩ := ih rest later
      exact ⟨a :: before, b, after, s₁, s₂, rfl,
        runSchedule_cons.mpr ⟨middle, first, run₁⟩, fails, next, run₂⟩
    · exact ⟨[], a, actions, s, middle, rfl, rfl, here, first, rest⟩

/-- If a step keeps the property exactly under the condition, then the property holds throughout
exactly when the condition is met along the schedule. -/
theorem throughout_iff_along (invariant property : σ → Prop)
    (preserved : ∀ s a s', invariant s → step s a = some s' → invariant s')
    (kept_iff : ∀ s a s', invariant s → property s → step s a = some s' →
      (property s' ↔ condition s a)) (run : runSchedule step s actions = some s')
    (initial : invariant s) (start : property s) :
    (∀ before after middle, actions = before ++ after →
        runSchedule step s before = some middle → property middle) ↔
      Along step condition s actions := by
  constructor
  · intro always
    by_contra broken
    obtain ⟨before, a, after, middle, next, rfl, reached, fails, stepped, -⟩ :=
      exists_step_of_not_along run broken
    have holds := always before (a :: after) middle rfl reached
    have further : runSchedule step s (before ++ [a]) = some next :=
      runSchedule_append reached (runSchedule_cons.mpr ⟨next, stepped, rfl⟩)
    have holds' := always (before ++ [a]) after next (by simp) further
    have known := runSchedule_invariant invariant preserved reached initial
    exact fails ((kept_iff middle a next known holds stepped).mp holds')
  · rintro along before after middle rfl reached
    have both := runSchedule_invariant_along condition (fun s => invariant s ∧ property s)
      (fun s a s' holds meets stepped => ⟨preserved s a s' holds.1 stepped,
        (kept_iff s a s' holds.1 holds.2 stepped).mpr meets⟩)
      reached (along_of_append along) ⟨initial, start⟩
    exact both.2

/-- A preorder relates every state of a run to all later ones exactly when each step does. -/
theorem ordered_iff_along {r : σ → σ → Prop} (refl : ∀ s, r s s)
    (trans : ∀ s₁ s₂ s₃, r s₁ s₂ → r s₂ s₃ → r s₁ s₃) :
    (∀ before between after s₁ s₂, actions = before ++ (between ++ after) →
        runSchedule step s before = some s₁ → runSchedule step s₁ between = some s₂ → r s₁ s₂) ↔
      Along step (fun s a => ∀ s', step s a = some s' → r s s') s actions := by
  constructor
  · intro ordered
    induction actions generalizing s with
    | nil => trivial
    | cons a actions ih =>
      refine ⟨fun s' next => ?_, fun s' next => ih ?_⟩
      · exact ordered [] [a] actions s s' rfl rfl (runSchedule_cons.mpr ⟨s', next, rfl⟩)
      · rintro before between after s₁ s₂ rfl first second
        exact ordered (a :: before) between after s₁ s₂ rfl
          (runSchedule_cons.mpr ⟨s', next, first⟩) second
  · rintro along before between after s₁ s₂ rfl first second
    exact runSchedule_invariant_along _ (r s₁)
      (fun s a s' holds kept next => trans s₁ s s' holds (kept s' next)) second
      (along_of_append (along_rest along first)) (refl s₁)

/-- `throughout_iff_along` over the prefixes of calls that always return. -/
theorem forall_prefix_iff {property : List α → Prop} {condition : List α → α → Prop}
    (kept_iff : ∀ before a, property before → (property (before ++ [a]) ↔ condition before a))
    (start : property []) (actions : List α) : (∀ before, before <+: actions → property before) ↔
      ∀ before a, before ++ [a] <+: actions → condition before a := by
  constructor
  · intro always before a within
    have holds := always before ((List.prefix_append before [a]).trans within)
    exact (kept_iff before a holds).mp (always (before ++ [a]) within)
  · intro meets before within
    induction before using List.reverseRecOn with
    | nil => exact start
    | append_singleton before a ih =>
      have holds := ih ((List.prefix_append before [a]).trans within)
      exact (kept_iff before a holds).mpr (meets before a within)

section
variable {ε : Type*}

/-- If steps append at most one event, an event was appended by a step whose source state carried
exactly the events before it. -/
theorem exists_step_of_event (history : σ → List ε) (grows : ∀ s a s', step s a = some s' →
      history s' = history s ∨ ∃ e, history s' = history s ++ [e])
    (run : runSchedule step s actions = some s') (split : history s' = before ++ e :: after)
    (short : (history s).length ≤ before.length) :
    ∃ taken a middle next, runSchedule step s taken = some middle ∧ step middle a = some next ∧
      history middle = before ∧ history next = before ++ [e] := by
  induction actions using List.reverseRecOn generalizing s' after with
  | nil =>
    obtain rfl := Option.some.inj run
    have := congrArg List.length split
    simp only [List.length_append, List.length_cons] at this
    omega
  | append_singleton actions a ih =>
    obtain ⟨middle, reached, final⟩ := runSchedule_concat run
    rcases grows middle a s' final with same | ⟨last, appended⟩
    · exact ih reached (same ▸ split)
    · rcases List.eq_nil_or_concat after with rfl | ⟨rest, final', rfl⟩
      · obtain ⟨initial, single⟩ := List.append_inj' (appended.symm.trans split) rfl
        rw [List.singleton_inj] at single
        exact ⟨actions, a, middle, s', reached, final, initial,
          by rw [appended, initial, single]⟩
      · have shorter : history middle = before ++ e :: rest := by
          rw [split, List.concat_eq_append, ← List.cons_append, ← List.append_assoc] at appended
          exact (List.append_inj' appended rfl).1.symm
        exact ih reached shorter

end
end NexusPipe.Library
