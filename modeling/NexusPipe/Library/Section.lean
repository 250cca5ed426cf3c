import Mathlib.Data.List.Basic
import Mathlib.Logic.Function.Basic

/-! # Sections on a shared cell

A section is a program of atomic reads and writes of one cell that ends with an answer. -/

namespace NexusPipe.Library

structure Section (P C I A : Type*) where
  begins : P → Prop
  step : I → P → C → (P ⊕ A) × C

structure Shared (C A : Type*) where
  initial : C
  current : C
  answers : List A := []
  deriving DecidableEq

namespace Section
variable {P C I A : Type*} (program : Section P C I A)

inductive Alone (c : C) : P → C → Prop
  | begins {p : P} (begins : program.begins p) : Alone c p c
  | step {p p' : P} {c₁ c₂ : C} (i : I) (before : Alone c p c₁)
      (next : program.step i p c₁ = (.inl p', c₂)) : Alone c p' c₂

inductive Whole (c : C) (a : A) (c' : C) : Prop
  | intro {p : P} {c₁ : C} (i : I) (before : program.Alone c p c₁)
      (last : program.step i p c₁ = (.inr a, c')) : Whole c a c'

inductive Serial (c : C) : List A → C → Prop
  | nil : Serial c [] c
  | snoc {answers : List A} {a : A} {c₁ c₂ : C} (before : Serial c answers c₁)
      (last : program.Whole c₁ a c₂) : Serial c (answers ++ [a]) c₂

/-- The cell holds what whole sections and the one that is under way have left there. -/
def Orderly (cell : Shared C A) : Option P → Prop
  | none => program.Serial cell.initial cell.answers cell.current
  | some p => ∃ c, program.Serial cell.initial cell.answers c ∧ program.Alone c p cell.current

variable {program} {cell : Shared C A} {p : P} {a : A}

theorem Orderly.enter (orderly : program.Orderly cell none) (begins : program.begins p) :
    program.Orderly cell (some p) :=
  ⟨cell.current, orderly, .begins begins⟩

theorem Orderly.advance (orderly : program.Orderly cell (some p))
    (next : program.step i p cell.current = (.inl p', c)) :
    program.Orderly { cell with current := c } (some p') := by
  obtain ⟨base, serial, alone⟩ := orderly
  exact ⟨base, serial, alone.step i next⟩

theorem Orderly.finish (orderly : program.Orderly cell (some p))
    (last : program.step i p cell.current = (.inr a, c)) :
    program.Orderly { cell with current := c, answers := cell.answers ++ [a] } none := by
  obtain ⟨base, serial, alone⟩ := orderly
  exact .snoc serial ⟨i, alone, last⟩

variable {R : Type*} {inside : R → Option P} {r : R}

/-- At most one process is inside a section on the cell, and the others have left it in order. -/
def Guarded (program : Section P C I A) (cell : Shared C A) (inside : R → Option P) : Prop :=
  (∀ r, inside r = none) ∧ program.Orderly cell none ∨
    ∃ r p, inside r = some p ∧ program.Orderly cell (some p) ∧ ∀ r', r' ≠ r → inside r' = none

theorem Guarded.serial (guarded : program.Guarded cell inside) :
    ∃ c, program.Serial cell.initial cell.answers c := by
  rcases guarded with ⟨-, orderly⟩ | ⟨-, -, -, ⟨c, serial, -⟩, -⟩
  · exact ⟨cell.current, orderly⟩
  · exact ⟨c, serial⟩

theorem Guarded.orderly_none (guarded : program.Guarded cell inside)
    (empty : ∀ r, inside r = none) : program.Orderly cell none := by
  rcases guarded with ⟨-, orderly⟩ | ⟨r, p, here, -⟩
  · exact orderly
  · rw [empty r] at here
    cases here

theorem Guarded.orderly (guarded : program.Guarded cell inside) (here : inside r = some p) :
    program.Orderly cell (some p) ∧ ∀ r', r' ≠ r → inside r' = none := by
  rcases guarded with ⟨empty, -⟩ | ⟨r₁, p₁, here₁, orderly, alone⟩
  · rw [empty r] at here
    cases here
  · by_cases same : r = r₁
    · subst same
      obtain rfl := Option.mem_unique here₁ here
      exact ⟨orderly, alone⟩
    · rw [alone r same] at here
      cases here

variable [DecidableEq R]

theorem guarded_update (orderly : program.Orderly cell o) (alone : ∀ r', r' ≠ r → inside r' = none) :
    program.Guarded cell (Function.update inside r o) := by
  have others (r' : R) (other : r' ≠ r) : Function.update inside r o r' = none := by
    rw [Function.update_of_ne other, alone r' other]
  cases o with
  | none =>
    refine .inl ⟨fun r' => ?_, orderly⟩
    by_cases same : r' = r
    · rw [same, Function.update_self]
    · exact others r' same
  | some p => exact .inr ⟨r, p, Function.update_self .., orderly, others⟩

theorem Guarded.enter (guarded : program.Guarded cell inside) (empty : ∀ r, inside r = none)
    (begins : program.begins p) (next : program.step i p cell.current = (.inl p', c)) :
    program.Guarded { cell with current := c } (Function.update inside r (some p')) := by
  have orderly := (guarded.orderly_none empty).enter begins
  exact guarded_update (orderly.advance next) fun r' _ => empty r'

theorem Guarded.advance (guarded : program.Guarded cell inside) (here : inside r = some p)
    (next : program.step i p cell.current = (.inl p', c)) :
    program.Guarded { cell with current := c } (Function.update inside r (some p')) := by
  obtain ⟨orderly, alone⟩ := guarded.orderly here
  exact guarded_update (orderly.advance next) alone

theorem Guarded.finish (guarded : program.Guarded cell inside) (here : inside r = some p)
    (last : program.step i p cell.current = (.inr a, c)) :
    program.Guarded { cell with current := c, answers := cell.answers ++ [a] }
      (Function.update inside r none) := by
  obtain ⟨orderly, alone⟩ := guarded.orderly here
  exact guarded_update (orderly.finish last) alone

end Section
end NexusPipe.Library
