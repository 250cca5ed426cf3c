import Mathlib.Order.Basic

namespace NexusPipe.Library

/-- Repeat `body` until it answers `none`. The variant makes the loop a total function. -/
def whileDo {σ : Type*} (body : σ → Option σ) (variant : σ → Nat)
    (decreases : ∀ s s', body s = some s' → variant s' < variant s) (s : σ) : σ :=
  match _h : body s with
  | none => s
  | some s' => whileDo body variant decreases s'
termination_by variant s
decreasing_by exact decreases s s' _h

variable {σ : Type*} {body : σ → Option σ} {variant : σ → Nat}
  {decreases : ∀ s s', body s = some s' → variant s' < variant s}

theorem whileDo_none (done : body s = none) : whileDo body variant decreases s = s := by
  rw [whileDo]
  split
  · rfl
  · rename_i s' next
    simp [done] at next

theorem whileDo_some (next : body s = some s') :
    whileDo body variant decreases s = whileDo body variant decreases s' := by
  rw [whileDo]
  split
  · rename_i done
    simp [done] at next
  · rename_i s'' next'
    rw [next, Option.some.injEq] at next'
    rw [next']

variable (decreases) in
/-- The loop rule: what the body preserves holds at the exit, where the guard fails. -/
theorem whileDo_invariant (invariant : σ → Prop)
    (preserved : ∀ s s', invariant s → body s = some s' → invariant s')
    (s : σ) (initial : invariant s) : invariant (whileDo body variant decreases s) ∧
      body (whileDo body variant decreases s) = none := by
  induction h : variant s using Nat.strongRecOn generalizing s with
  | _ n ih =>
    cases next : body s with
    | none =>
      rw [whileDo_none next]
      exact ⟨initial, next⟩
    | some s' =>
      rw [whileDo_some next]
      exact ih (variant s') (h ▸ decreases s s' next) s' (preserved s s' initial next) rfl

/-- Repeat `body` until it answers with a result; `none` when the fuel does not last that long. -/
def loopFor {ρ : Type*} (body : σ → σ ⊕ ρ) : Nat → σ → Option ρ
  | 0, _ => none
  | fuel + 1, s =>
    match body s with
    | .inl s' => loopFor body fuel s'
    | .inr result => some result

section
variable {ρ : Type*} {body : σ → σ ⊕ ρ} {s s' s'' : σ} {result result' : ρ}

def Returns (body : σ → σ ⊕ ρ) (s : σ) (result : ρ) : Prop :=
  ∃ fuel, loopFor body fuel s = some result

inductive Rounds (body : σ → σ ⊕ ρ) : Nat → σ → σ → Prop
  | refl (s : σ) : Rounds body 0 s s
  | head {rounds : Nat} {s s' s'' : σ} (first : body s = .inl s') (rest : Rounds body rounds s' s'') :
      Rounds body (rounds + 1) s s''

theorem loopFor_inl (next : body s = .inl s') (fuel : Nat) :
    loopFor body (fuel + 1) s = loopFor body fuel s' := by
  simp only [loopFor, next]

theorem loopFor_inr (ends : body s = .inr result) (fuel : Nat) :
    loopFor body (fuel + 1) s = some result := by
  simp only [loopFor, ends]

theorem loopFor_mono (returned : loopFor body fuel s = some result) (more : fuel ≤ fuel') :
    loopFor body fuel' s = some result := by
  induction fuel generalizing s fuel' with
  | zero => cases returned
  | succ fuel ih =>
    obtain ⟨extra, rfl⟩ := Nat.exists_eq_succ_of_ne_zero (Nat.ne_zero_of_lt more)
    cases next : body s with
    | inl s' =>
      rw [loopFor_inl next] at returned ⊢
      exact ih returned (Nat.le_of_succ_le_succ more)
    | inr ended =>
      rw [loopFor_inr next] at returned ⊢
      exact returned

theorem loopFor_exit (invariant : σ → Prop)
    (preserved : ∀ s s', invariant s → body s = .inl s' → invariant s') (initial : invariant s)
    (returned : loopFor body fuel s = some result) :
    ∃ s', invariant s' ∧ body s' = .inr result := by
  induction fuel generalizing s with
  | zero => cases returned
  | succ fuel ih =>
    cases next : body s with
    | inl s' =>
      rw [loopFor_inl next] at returned
      exact ih (preserved s s' initial next) returned
    | inr ended =>
      rw [loopFor_inr next, Option.some.injEq] at returned
      exact ⟨s, initial, returned ▸ next⟩

theorem Rounds.loopFor_add (path : Rounds body rounds s s') (fuel : Nat) :
    loopFor body (rounds + fuel) s = loopFor body fuel s' := by
  induction path with
  | refl s => rw [Nat.zero_add]
  | head first rest ih => rw [Nat.add_right_comm, loopFor_inl first, ih]

theorem Rounds.loopFor_eq_none (path : Rounds body rounds s s') (short : fuel ≤ rounds) :
    loopFor body fuel s = none := by
  induction path generalizing fuel with
  | refl s =>
    obtain rfl := Nat.le_zero.mp short
    rfl
  | head first rest ih =>
    cases fuel with
    | zero => rfl
    | succ fuel => rw [loopFor_inl first, ih (Nat.le_of_succ_le_succ short)]

theorem Rounds.trans (path : Rounds body m s s') (path' : Rounds body n s' s'') :
    Rounds body (m + n) s s'' := by
  induction path with
  | refl s =>
    rw [Nat.zero_add]
    exact path'
  | head first rest ih =>
    rw [Nat.add_right_comm]
    exact .head first (ih path')

theorem Rounds.returns_iff (path : Rounds body rounds s s') :
    Returns body s result ↔ Returns body s' result := by
  constructor
  · rintro ⟨fuel, returned⟩
    by_cases short : fuel ≤ rounds
    · rw [path.loopFor_eq_none short] at returned
      exact absurd returned (by simp)
    · refine ⟨fuel - rounds, ?_⟩
      rw [← path.loopFor_add, Nat.add_sub_cancel' (Nat.le_of_not_le short), returned]
  · rintro ⟨fuel, returned⟩
    exact ⟨rounds + fuel, by rw [path.loopFor_add, returned]⟩

theorem returns_of_inr (ends : body s = .inr result) :
    Returns body s result' ↔ result' = result := by
  constructor
  · rintro ⟨fuel, returned⟩
    cases fuel with
    | zero => exact absurd returned (by simp [loopFor])
    | succ fuel =>
      rw [loopFor_inr ends, Option.some.injEq] at returned
      exact returned.symm
  · rintro rfl
    exact ⟨1, loopFor_inr ends 0⟩

/-- A loop that always comes back to the invariant after some rounds outlasts any fuel. -/
theorem loopFor_eq_none_of_progress (invariant : σ → Prop)
    (progress : ∀ s, invariant s → ∃ rounds s', 0 < rounds ∧ Rounds body rounds s s' ∧ invariant s')
    (initial : invariant s) (fuel : Nat) : loopFor body fuel s = none := by
  induction fuel using Nat.strongRecOn generalizing s with
  | _ fuel ih =>
    obtain ⟨rounds, s', positive, path, holds⟩ := progress s initial
    by_cases short : fuel ≤ rounds
    · exact path.loopFor_eq_none short
    · rw [← Nat.add_sub_cancel' (Nat.le_of_not_le short), path.loopFor_add]
      exact ih (fuel - rounds) (by omega) holds

theorem eq_of_mono {call : Nat → Option ρ} {fuel fuel' : Nat}
    (mono : ∀ n m r, n ≤ m → call n = some r → call m = some r)
    (first : call fuel = some result) (second : call fuel' = some result') : result = result' := by
  rcases Nat.le_total fuel fuel' with less | less
  · exact Option.some.inj ((mono _ _ _ less first).symm.trans second)
  · exact Option.mem_unique first (mono _ _ _ less second)

end

theorem findSome?_range_iff {f : Nat → Option β} :
    (List.range n).findSome? f = some b ↔ ∃ k < n, (∀ j < k, f j = none) ∧ f k = some b := by
  induction n with
  | zero => simp
  | succ n ih =>
    rw [List.range_succ, List.findSome?_append, Option.or_eq_some_iff, ih]
    constructor
    · rintro (⟨k, less, earlier, here⟩ | ⟨absent, last⟩)
      · exact ⟨k, Nat.lt_succ_of_lt less, earlier, here⟩
      · refine ⟨n, Nat.lt_succ_self n, fun j less => ?_, by simpa using last⟩
        exact List.findSome?_eq_none_iff.mp absent j (List.mem_range.mpr less)
    · rintro ⟨k, less, earlier, here⟩
      rcases Nat.lt_succ_iff_lt_or_eq.mp less with smaller | rfl
      · exact .inl ⟨k, smaller, earlier, here⟩
      · refine .inr ⟨?_, by simpa using here⟩
        rw [List.findSome?_eq_none_iff]
        exact fun j member => earlier j (List.mem_range.mp member)

end NexusPipe.Library
