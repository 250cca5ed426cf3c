import Mathlib.Data.Fintype.Card
import Mathlib.Data.List.Chain
import Mathlib.Data.List.Induction
import Mathlib.Data.Set.Finite.Basic
import Mathlib.Logic.Relation
import Mathlib.Order.WellFounded

namespace NexusPipe.Library
open Relation List

variable {α : Type*}

inductive Walk (r : α → α → Prop) : Nat → α → α → Prop
  | refl (a : α) : Walk r 0 a a
  | tail {n : Nat} {a b c : α} : Walk r n a b → r b c → Walk r (n + 1) a c

def Acyclic (r : α → α → Prop) : Prop := ∀ a, ¬ TransGen r a a

theorem not_acyclic_iff : ¬ Acyclic r ↔ ∃ a, TransGen r a a := by
  simp [Acyclic]

def FedByCycle (r : α → α → Prop) (b : α) : Prop := ∃ a, TransGen r a a ∧ ReflTransGen r a b

def LongestInto (r : α → α → Prop) (b : α) (n : Nat) : Prop :=
  (∃ a, Walk r n a b) ∧ ∀ m a, Walk r m a b → m ≤ n

variable {r : α → α → Prop} {b : α}

theorem LongestInto.unique (first : LongestInto r b n) (second : LongestInto r b m) : n = m := by
  obtain ⟨a, walk⟩ := first.1
  obtain ⟨a', walk'⟩ := second.1
  exact le_antisymm (second.2 n a walk) (first.2 m a' walk')

variable {a : α}

theorem LongestInto.lt_of_transGen (first : LongestInto r a n) (second : LongestInto r b m)
    (path : TransGen r a b) : n < m := by
  have longer : ∃ k > n, ∃ start, Walk r k start b := by
    obtain ⟨start, walk⟩ := first.1
    clear second
    induction path with
    | single edge => exact ⟨n + 1, Nat.lt_succ_self n, start, .tail walk edge⟩
    | tail _ edge ih =>
      obtain ⟨k, larger, start, walk⟩ := ih
      exact ⟨k + 1, Nat.lt_succ_of_lt larger, start, .tail walk edge⟩
  obtain ⟨k, larger, start, walk⟩ := longer
  exact Nat.lt_of_lt_of_le larger (second.2 k start walk)

theorem longestInto_of_increasing (label : α → Nat)
    (increasing : ∀ a b, r a b → label a < label b) (attained : ∃ a, Walk r (label b) a b) :
    LongestInto r b (label b) := by
  refine ⟨attained, ?_⟩
  intro m a walk
  clear attained
  induction walk with
  | refl => exact Nat.zero_le _
  | tail _ edge ih => exact ih.trans_lt (increasing _ _ edge)

theorem LongestInto.exists_below (longest : LongestInto r b n) :
    ∀ i ≤ n, ∃ a, LongestInto r a i ∧ ReflTransGen r a b := by
  obtain ⟨⟨start, walk⟩, bound⟩ := longest
  induction walk with
  | refl b =>
    intro i small
    obtain rfl : i = 0 := Nat.le_zero.mp small
    exact ⟨b, ⟨⟨b, .refl b⟩, bound⟩, .refl⟩
  | @tail n start b c walk edge ih =>
    intro i small
    rcases Nat.lt_or_eq_of_le small with less | rfl
    · obtain ⟨a, longest, path⟩ := ih
        (fun m a shorter => Nat.le_of_succ_le_succ (bound (m + 1) a (.tail shorter edge)))
        i (Nat.lt_succ_iff.mp less)
      exact ⟨a, longest, path.tail edge⟩
    · exact ⟨c, ⟨⟨start, .tail walk edge⟩, bound⟩, .refl⟩

theorem Walk.exists_chain (walk : Walk r n a b) :
    ∃ before : List α, before.length = n ∧ (before ++ [b]).IsChain r := by
  induction walk with
  | refl a => exact ⟨[], rfl, isChain_singleton a⟩
  | @tail n a b c _ edge ih =>
    obtain ⟨before, length, chain⟩ := ih
    refine ⟨before ++ [b], by simp [length], isChain_append.mpr ⟨chain, ?_, ?_⟩⟩
    · exact isChain_singleton c
    · simpa using edge

theorem exists_walk_of_chain (chain : (before ++ [b]).IsChain r) :
    ∃ a, Walk r before.length a b := by
  induction before using reverseRecOn generalizing b with
  | nil => exact ⟨b, .refl b⟩
  | append_singleton before x ih =>
    obtain ⟨shorter, -, last⟩ := isChain_append.mp chain
    obtain ⟨a, walk⟩ := ih shorter
    refine ⟨a, ?_⟩
    rw [length_append, length_singleton]
    exact .tail walk (last x (by simp) b rfl)

theorem Acyclic.nodup_of_chain (acyclic : Acyclic r) {l : List α}
    (chain : l.IsChain r) : l.Nodup := by
  have paths : l.IsChain (TransGen r) := chain.imp fun _ _ => TransGen.single
  refine paths.pairwise.imp ?_
  rintro a _ path rfl
  exact acyclic a path

theorem Acyclic.not_fedByCycle (acyclic : Acyclic r) (b : α) : ¬ FedByCycle r b :=
  fun ⟨a, cycle, _⟩ => acyclic a cycle

theorem FedByCycle.step (fed : FedByCycle r a) (edge : r a b) : FedByCycle r b := by
  obtain ⟨c, cycle, path⟩ := fed
  exact ⟨c, cycle, path.tail edge⟩

theorem fedByCycle_of_predecessors (r : α → α → Prop) (s : Set α) (finite : s.Finite)
    (predecessor : ∀ b ∈ s, ∃ a ∈ s, r a b) : ∀ b ∈ s, FedByCycle r b := by
  by_contra counter
  push Not at counter
  obtain ⟨b, member, notFed⟩ := counter
  let t : Set α := {x | x ∈ s ∧ ¬ FedByCycle r x}
  have : Finite t := (finite.subset fun x hx => hx.1).to_subtype
  -- Off the cycles, being an ancestor is a strict order, so `t` has a minimal element.
  let ancestor : t → t → Prop := fun x y => TransGen r x.1 y.1
  have : IsTrans t ancestor := ⟨fun _ _ _ => TransGen.trans⟩
  have : Std.Irrefl ancestor := ⟨fun x cycle => x.2.2 ⟨x.1, cycle, .refl⟩⟩
  obtain ⟨x, _, minimal⟩ := (Finite.wellFounded_of_trans_of_irrefl ancestor).has_min
    Set.univ ⟨⟨b, member, notFed⟩, trivial⟩
  obtain ⟨a, inside, edge⟩ := predecessor x.1 x.2.1
  exact minimal ⟨a, inside, fun fed => x.2.2 (fed.step edge)⟩ trivial (.single edge)

def Ordered (r : α → α → Prop) (l : List α) : Prop :=
  ∀ before b after, l = before ++ b :: after → ∀ a, r a b → a ∈ before

theorem ordered_nil (r : α → α → Prop) : Ordered r [] := by
  intro before b after split
  simp at split

theorem Ordered.concat (ordered : Ordered r l) (ready : ∀ a, r a b → a ∈ l) :
    Ordered r (l ++ [b]) := by
  intro before c after split a edge
  rcases eq_nil_or_concat after with rfl | ⟨rest, last, rfl⟩
  · obtain ⟨rfl, same⟩ := append_inj' split rfl
    rw [singleton_inj] at same
    exact ready a (same ▸ edge)
  · rw [concat_eq_append, ← cons_append, ← append_assoc] at split
    obtain ⟨initial, _⟩ := append_inj' split rfl
    exact ordered before c rest initial a edge

section
variable [DecidableEq α]

theorem Ordered.idxOf_lt (ordered : Ordered r l) (edge : r a b) (member : b ∈ l) :
    a ∈ l ∧ l.idxOf a < l.idxOf b := by
  obtain ⟨before, after, rfl, fresh⟩ := eq_append_cons_of_mem member
  have earlier := ordered before b after rfl a edge
  refine ⟨mem_append_left _ earlier, ?_⟩
  rw [idxOf_append_of_mem earlier, idxOf_append_of_notMem fresh]
  exact (idxOf_lt_length_iff.mpr earlier).trans_le (Nat.le_add_right _ _)

theorem Ordered.idxOf_lt_of_transGen (ordered : Ordered r l) (path : TransGen r a b)
    (member : b ∈ l) : a ∈ l ∧ l.idxOf a < l.idxOf b := by
  induction path with
  | single edge => exact ordered.idxOf_lt edge member
  | tail _ edge ih =>
    obtain ⟨inside, last⟩ := ordered.idxOf_lt edge member
    obtain ⟨start, first⟩ := ih inside
    exact ⟨start, first.trans last⟩

theorem Ordered.not_fedByCycle (ordered : Ordered r l) (member : b ∈ l) : ¬ FedByCycle r b := by
  rintro ⟨a, cycle, path⟩
  have inside : a ∈ l := by
    rcases reflTransGen_iff_eq_or_transGen.mp path with rfl | path
    · exact member
    · exact (ordered.idxOf_lt_of_transGen path member).1
  exact lt_irrefl _ (ordered.idxOf_lt_of_transGen cycle inside).2

end
end NexusPipe.Library
