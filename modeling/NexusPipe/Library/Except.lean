import Mathlib.Init

namespace NexusPipe.Library

variable {ε ε' V V' : Type*} {e : Except ε V}

theorem isOk_iff : e.isOk = true ↔ ∃ v, e = .ok v := by
  cases e with
  | error | ok => simp [Except.isOk, Except.toBool]

variable {v v' : V}

theorem ok_unique (first : e = .ok v) (second : e = .ok v') : v = v' :=
  Except.ok.inj (first.symm.trans second)

theorem mapError_eq_ok : e.mapError f = .ok v ↔ e = .ok v := by
  cases e with
  | error _ => exact ⟨nofun, nofun⟩
  | ok _ =>
    constructor
    · rintro ⟨⟩
      rfl
    · rintro ⟨⟩
      rfl

theorem map_eq_ok {v : V'} : e.map f = .ok v ↔ ∃ u, e = .ok u ∧ f u = v := by
  cases e <;> simp [Except.map]

variable {f : V → Except ε V'}

theorem bind_eq_ok {v : V'} : e.bind f = .ok v ↔ ∃ u, e = .ok u ∧ f u = .ok v := by
  cases e <;> simp [Except.bind]

theorem exists_bind_eq_ok {p : V → Prop} {q : V' → Prop} (first : ∃ v, e = .ok v ∧ p v)
    (rest : ∀ v, p v → ∃ v', f v = .ok v' ∧ q v') : ∃ v', e.bind f = .ok v' ∧ q v' := by
  obtain ⟨v, returned, holds⟩ := first
  obtain ⟨v', returned', holds'⟩ := rest v holds
  exact ⟨v', bind_eq_ok.mpr ⟨v, returned, returned'⟩, holds'⟩

variable {α : Type*}

theorem foldl_of_foldlM_eq_ok {step : V → α → Except ε V} {next : V → α → V}
    (steps : ∀ v a v', step v a = .ok v' → v' = next v a) {l : List α}
    (ended : l.foldlM step v = .ok v') : v' = l.foldl next v := by
  induction l generalizing v with
  | nil => exact (Except.ok.inj ended).symm
  | cons a l ih =>
    rw [List.foldlM_cons] at ended
    obtain ⟨middle, first, rest⟩ := bind_eq_ok.mp ended
    rw [List.foldl_cons, ← steps v a middle first]
    exact ih rest

theorem foldlM_invariant {step : V → α → Except ε V} (invariant : V → Prop)
    (preserved : ∀ v a v', invariant v → step v a = .ok v' → invariant v') {l : List α}
    (ended : l.foldlM step v = .ok v') (initial : invariant v) : invariant v' := by
  induction l generalizing v with
  | nil => exact Except.ok.inj ended ▸ initial
  | cons a l ih =>
    rw [List.foldlM_cons] at ended
    obtain ⟨middle, first, rest⟩ := bind_eq_ok.mp ended
    exact ih rest (preserved v a middle initial first)

theorem foldlM_cases {step : V → α → Except ε V} {l : List α} {result : Except ε V}
    (ended : l.foldlM step v = result) (invariant : List α → V → Prop) (failure : ε → Prop)
    (steps : ∀ before a after v, l = before ++ a :: after → invariant before v →
      (∃ err, step v a = .error err ∧ failure err) ∨
        ∃ v', step v a = .ok v' ∧ invariant (before ++ [a]) v') (start : invariant [] v) :
    (∃ err, result = .error err ∧ failure err) ∨ ∃ v', result = .ok v' ∧ invariant l v' := by
  have rest (after : List α) : ∀ before v, l = before ++ after → invariant before v →
      (∃ err, after.foldlM step v = .error err ∧ failure err) ∨
        ∃ v', after.foldlM step v = .ok v' ∧ invariant l v' := by
    induction after with
    | nil =>
      rintro before v rfl holds
      exact .inr ⟨v, rfl, by rwa [List.append_nil]⟩
    | cons a after ih =>
      intro before v split holds
      rw [List.foldlM_cons]
      rcases steps before a after v split holds with ⟨err, stopped, fails⟩ | ⟨middle, first, kept⟩
      · exact .inl ⟨err, by rw [stopped]; rfl, fails⟩
      · rw [first]
        exact ih (before ++ [a]) middle (by rw [split]; simp) kept
  exact ended ▸ rest l [] v rfl start

theorem exists_foldlM_eq_ok {step : V → α → Except ε V} {l : List α} (invariant : List α → V → Prop)
    (steps : ∀ before a after v, l = before ++ a :: after → invariant before v →
      ∃ v', step v a = .ok v' ∧ invariant (before ++ [a]) v') (start : invariant [] v) :
    ∃ v', l.foldlM step v = .ok v' ∧ invariant l v' := by
  rcases foldlM_cases rfl invariant (fun _ => False)
    (fun before a after v split holds => .inr (steps before a after v split holds)) start with
    ⟨_, -, fails⟩ | returned
  · exact fails.elim
  · exact returned

end NexusPipe.Library
