import Mathlib.Algebra.BigOperators.Group.List.Basic
import Mathlib.Algebra.GroupWithZero.Nat
import Mathlib.Algebra.Order.BigOperators.Group.List
import Mathlib.Data.List.Perm.Basic

namespace NexusPipe.Library
open List

variable {α : Type*}

theorem mem_set_or_eq {l : List α} {i : Nat} {x y : α} (found : l[i]? = some x) (member : y ∈ l)
    (z : α) : y ∈ l.set i z ∨ y = x := by
  obtain ⟨j, here⟩ := mem_iff_getElem?.mp member
  by_cases same : i = j
  · exact .inr (Option.some.inj ((same ▸ here).symm.trans found))
  · refine .inl (mem_iff_getElem?.mpr ⟨j, ?_⟩)
    rw [getElem?_set_ne same, here]

theorem forall_mem_set_iff {l : List α} {i : Nat} {x y : α} (found : l[i]? = some x) {p : α → Prop}
    (same : p y ↔ p x) : (∀ z ∈ l.set i y, p z) ↔ ∀ z ∈ l, p z := by
  constructor
  · intro all z member
    rcases mem_set_or_eq found member y with kept | rfl
    · exact all z kept
    · exact same.mp (all y (mem_set (List.getElem?_eq_some_iff.mp found).1 y))
  · intro all z member
    rcases mem_or_eq_of_mem_set member with old | rfl
    · exact all z old
    · exact same.mpr (all x (mem_of_getElem? found))

theorem getElem?_set_of_found {l : List α} {i : Nat} {x : α} (found : l[i]? = some x) (y : α) :
    (l.set i y)[i]? = some y :=
  getElem?_set_self (List.getElem?_eq_some_iff.mp found).1

theorem getElem?_set_cases {l : List α} (found : (l.set i y)[j]? = some x) :
    j = i ∧ x = y ∨ j ≠ i ∧ l[j]? = some x := by
  rw [getElem?_set] at found
  split_ifs at found with same
  · exact .inl ⟨same.symm, (Option.some.inj found).symm⟩
  · exact .inr ⟨Ne.symm same, found⟩

theorem getElem?_concat_of_found {l : List α} {i : Nat} {x : α} (found : l[i]? = some x) (y : α) :
    (l ++ [y])[i]? = some x := by
  rw [getElem?_append_left (List.getElem?_eq_some_iff.mp found).1, found]

theorem getElem?_concat_cases (found : (l ++ [y])[i]? = some x) :
    l[i]? = some x ∨ i = l.length ∧ x = y := by
  rcases Nat.lt_trichotomy i l.length with before | rfl | beyond
  · exact .inl (by rwa [getElem?_append_left before] at found)
  · rw [getElem?_concat_length] at found
    exact .inr ⟨rfl, (Option.some.inj found).symm⟩
  · rw [getElem?_eq_none (by rw [length_append]; exact beyond)] at found
    cases found

section
theorem append_cons_inj (fresh₁ : c ∉ l₁) (fresh₂ : c ∉ l₂) :
    l₁ ++ c :: r₁ = l₂ ++ c :: r₂ ↔ l₁ = l₂ ∧ r₁ = r₂ := by
  induction l₁ generalizing l₂ with
  | nil =>
    cases l₂ with
    | nil => simp
    | cons y l₂ =>
      have differs : c ≠ y := fun same => fresh₂ (same ▸ mem_cons_self)
      simp [differs]
  | cons x l₁ ih =>
    cases l₂ with
    | nil =>
      have differs : x ≠ c := fun same => fresh₁ (same ▸ mem_cons_self)
      simp [differs]
    | cons y l₂ =>
      have rest := ih (fun member => fresh₁ (mem_cons_of_mem x member))
        (fun member => fresh₂ (mem_cons_of_mem y member))
      rw [cons_append, cons_append, cons.injEq, rest, cons.injEq, and_assoc]

theorem append_cons_inj_right (fresh₁ : c ∉ r₁) (fresh₂ : c ∉ r₂) :
    l₁ ++ c :: r₁ = l₂ ++ c :: r₂ ↔ l₁ = l₂ ∧ r₁ = r₂ := by
  have mirrored : r₁.reverse ++ c :: l₁.reverse = r₂.reverse ++ c :: l₂.reverse ↔
      r₁.reverse = r₂.reverse ∧ l₁.reverse = l₂.reverse :=
    append_cons_inj (mt mem_reverse.mp fresh₁) (mt mem_reverse.mp fresh₂)
  rw [reverse_inj, reverse_inj, and_comm] at mirrored
  rw [← mirrored, ← reverse_inj]
  simp

theorem intercalate_inj (fresh₁ : ∀ l ∈ ls₁, c ∉ l) (fresh₂ : ∀ l ∈ ls₂, c ∉ l)
    (nonempty₁ : ls₁ ≠ []) (nonempty₂ : ls₂ ≠ [])
    (same : (c :: sep).intercalate ls₁ = (c :: sep).intercalate ls₂) : ls₁ = ls₂ := by
  induction ls₁ generalizing ls₂ with
  | nil => exact absurd rfl nonempty₁
  | cons l₁ rest₁ ih =>
    obtain ⟨l₂, rest₂, rfl⟩ := exists_cons_of_ne_nil nonempty₂
    rw [forall_mem_cons] at fresh₁ fresh₂
    cases rest₁ with
    | nil =>
      cases rest₂ with
      | nil => simpa using same
      | cons m₂ rest₂ =>
        rw [intercalate_singleton, intercalate_cons_cons] at same
        exact absurd (by simp [same]) fresh₁.1
    | cons m₁ rest₁ =>
      cases rest₂ with
      | nil =>
        rw [intercalate_singleton, intercalate_cons_cons] at same
        exact absurd (by simp [← same]) fresh₂.1
      | cons m₂ rest₂ =>
        rw [intercalate_cons_cons, intercalate_cons_cons, append_assoc,
          append_assoc, cons_append, cons_append,
          append_cons_inj fresh₁.1 fresh₂.1] at same
        obtain ⟨rfl, tail⟩ := same
        have rest := ih fresh₁.2 fresh₂.2 (cons_ne_nil _ _) (cons_ne_nil _ _)
          (append_cancel_left tail)
        rw [rest]

theorem append_cons_prefix_iff (fresh₁ : c ∉ l₁) (fresh₂ : c ∉ l₂) :
    l₁ ++ c :: r₁ <+: l₂ ++ c :: r₂ ↔ l₁ = l₂ ∧ r₁ <+: r₂ := by
  constructor
  · rintro ⟨more, same⟩
    rw [append_assoc, cons_append, append_cons_inj fresh₁ fresh₂] at same
    exact ⟨same.1, more, same.2⟩
  · rintro ⟨rfl, more, rfl⟩
    exact ⟨more, by simp⟩

theorem suffix_append_cons_iff (fresh : c ∉ l₁) : l₁ <:+ l₂ ++ c :: r₂ ↔ l₁ <:+ r₂ := by
  have tail : c :: r₂ <:+ l₂ ++ c :: r₂ := suffix_append l₂ _
  constructor
  · intro ends
    by_cases short : l₁.length ≤ r₂.length
    · exact suffix_of_suffix_length_le ends ((suffix_cons c r₂).trans tail) short
    · have covers := suffix_of_suffix_length_le tail ends (by rw [length_cons]; omega)
      exact absurd (covers.subset mem_cons_self) fresh
  · intro ends
    exact ends.trans ((suffix_cons c r₂).trans tail)

theorem prefix_append_cons_iff (fresh : c ∉ l₁) : l₁ <+: l₂ ++ c :: r₂ ↔ l₁ <+: l₂ := by
  have mirrored : l₁.reverse <:+ r₂.reverse ++ c :: l₂.reverse ↔ l₁.reverse <:+ l₂.reverse :=
    suffix_append_cons_iff (mt mem_reverse.mp fresh)
  have turned : l₁.reverse <:+ l₂.reverse ↔ l₁ <+: l₂ := reverse_suffix
  rw [← turned, ← mirrored, ← reverse_suffix]
  simp

end

section
variable {M : Type*} [AddCommMonoid M] (f : α → M) {l : List α}

theorem sum_map_set_eraseIdx (bound : i < l.length) (y : α) :
    ((l.set i y).map f).sum = f y + ((l.eraseIdx i).map f).sum := by
  rw [((set_perm_cons_eraseIdx bound y).map f).sum_eq, map_cons, sum_cons]

theorem sum_map_eraseIdx (found : l[i]? = some x) :
    (l.map f).sum = f x + ((l.eraseIdx i).map f).sum := by
  obtain ⟨bound, rfl⟩ := List.getElem?_eq_some_iff.mp found
  rw [← sum_map_set_eraseIdx f bound, set_getElem_self]

theorem sum_map_set (found : l[i]? = some x) (y : α) :
    ((l.set i y).map f).sum + f x = (l.map f).sum + f y := by
  rw [sum_map_set_eraseIdx f (List.getElem?_eq_some_iff.mp found).1, sum_map_eraseIdx f found,
    add_right_comm, add_comm (f y), add_right_comm]

end

theorem sum_map_filter (p : α → Bool) (f : α → Nat) (l : List α) :
    ((l.filter p).map f).sum = (l.map fun x => if p x then f x else 0).sum := by
  induction l with
  | nil => rfl
  | cons head tail ih =>
    rw [filter_cons, map_cons, sum_cons, ← ih]
    split_ifs
    · rw [map_cons, sum_cons]
    · rw [Nat.zero_add]

theorem sum_map_single_le {β : Type*} [DecidableEq β] {key : α → β} {l : List α}
    (nodup : (l.map key).Nodup) (k : β) :
    (l.map fun x => if key x = k then 1 else 0).sum ≤ 1 := by
  induction l with
  | nil => exact Nat.zero_le 1
  | cons head tail ih =>
    rw [map_cons, nodup_cons] at nodup
    rw [map_cons, sum_cons]
    split_ifs with same
    · have none : (tail.map fun x => if key x = k then 1 else 0).sum = 0 := by
        refine sum_eq_zero fun n member => ?_
        obtain ⟨x, found, rfl⟩ := mem_map.mp member
        refine if_neg fun again => nodup.1 ?_
        exact mem_map.mpr ⟨x, found, again.trans same.symm⟩
      rw [none]
    · rw [Nat.zero_add]
      exact ih nodup.2

section
variable {β κ : Type*}

theorem exists_anyM_eq_some {f : α → Option Bool} {p : α → Prop} {l : List α}
    (steps : ∀ x ∈ l, ∃ b, f x = some b ∧ (b = true ↔ p x)) :
    ∃ b, l.anyM f = some b ∧ (b = true ↔ ∃ x ∈ l, p x) := by
  induction l with
  | nil => exact ⟨false, rfl, by simp⟩
  | cons x l ih =>
    obtain ⟨first, returned, meaning⟩ := steps x mem_cons_self
    cases first with
    | true => exact ⟨true, by simp [anyM, returned], by simp [meaning.mp rfl]⟩
    | false =>
      obtain ⟨b, rest, meaning'⟩ := ih fun y member => steps y (mem_cons_of_mem x member)
      have fails : ¬ p x := fun holds => Bool.noConfusion (meaning.mpr holds)
      exact ⟨b, by simp [anyM, returned, rest], by simp [meaning', fails]⟩

theorem foldl_collects (holds : β → κ → Prop) (adds : α → κ → Prop)
    (turns : ∀ v x k, holds (f v x) k ↔ holds v k ∨ adds x k) (l : List α) (v : β) (k : κ) :
    holds (l.foldl f v) k ↔ holds v k ∨ ∃ x ∈ l, adds x k := by
  induction l generalizing v with
  | nil => simp
  | cons x l ih => rw [foldl_cons, ih, turns, or_assoc, exists_mem_cons_iff]

theorem exists_foldlM_collects (holds : β → κ → Prop) (adds : α → κ → Prop) {f : β → α → Option β}
    {l : List α}
    (turns : ∀ x ∈ l, ∀ v, ∃ v', f v x = some v' ∧ ∀ k, holds v' k ↔ holds v k ∨ adds x k) (v : β) :
    ∃ v', l.foldlM f v = some v' ∧ ∀ k, holds v' k ↔ holds v k ∨ ∃ x ∈ l, adds x k := by
  induction l generalizing v with
  | nil => exact ⟨v, rfl, by simp⟩
  | cons x l ih =>
    obtain ⟨middle, first, held⟩ := turns x mem_cons_self v
    obtain ⟨v', rest, held'⟩ := ih (fun y member => turns y (mem_cons_of_mem x member)) middle
    refine ⟨v', by rw [foldlM_cons, first]; exact rest, fun k => ?_⟩
    rw [held', held, or_assoc, exists_mem_cons_iff]

end

structure StrictTotal {κ : Type*} (less : κ → κ → Bool) : Prop where
  irrefl : ∀ a, less a a = false
  trans : ∀ a b c, less a b = true → less b c = true → less a c = true
  total : ∀ a b, less a b = false → less b a = false → a = b

section
variable {κ : Type*} {l : List α}

theorem StrictTotal.asymm (order : StrictTotal less) (before : less a b = true) :
    less b a = false := by
  rw [← Bool.not_eq_true]
  intro after
  have := order.trans a b a before after
  rw [order.irrefl] at this
  cases this

theorem StrictTotal.trans_not (order : StrictTotal less) (before : less a b = true)
    (upTo : less c b = false) : less a c = true := by
  cases after : less b c with
  | true => exact order.trans a b c before after
  | false => exact order.total b c after upTo ▸ before

/-- An index of a sorted list holds a key exactly when it lies between the number of smaller keys
and the number of keys that are not larger. -/
theorem map_getElem?_eq_some_iff (order : StrictTotal less)
    (sorted : l.Pairwise fun a b => less (key b) (key a) = false) (i : Nat) (k : κ) :
    l[i]?.map key = some k ↔
      l.countP (fun x => less (key x) k) ≤ i ∧ i < l.countP (fun x => !less k (key x)) := by
  induction l generalizing i with
  | nil => simp
  | cons head tail ih =>
    rw [pairwise_cons] at sorted
    obtain ⟨least, sorted⟩ := sorted
    have rest := ih sorted
    rw [countP_cons, countP_cons]
    have uncounted (p : α → Bool) (rejects : ∀ x, less (key x) (key head) = false → p x = false) :
        tail.countP p = 0 :=
      countP_eq_zero.mpr fun x member => by simp [rejects x (least x member)]
    cases before : less (key head) k with
    | true =>
      have differs : key head ≠ k := fun same => by simp [same, order.irrefl] at before
      cases i with
      | zero => simp [differs]
      | succ i => simpa [order.asymm before] using rest i
    | false =>
      cases after : less k (key head) with
      | false =>
        have same := order.total (key head) k before after
        have none : tail.countP (fun x => less (key x) k) = 0 :=
          uncounted _ fun x upTo => same ▸ upTo
        cases i with
        | zero => simp [same, none]
        | succ i => simpa [none] using rest i
      | true =>
        have differs : key head ≠ k := fun same => by simp [same, order.irrefl] at after
        have none : tail.countP (fun x => less (key x) k) = 0 :=
          uncounted _ fun x upTo => order.asymm (order.trans_not after upTo)
        have none' : tail.countP (fun x => !less k (key x)) = 0 :=
          uncounted _ fun x upTo => by simp [order.trans_not after upTo]
        cases i with
        | zero => simp [none', differs]
        | succ i => simpa [none, none'] using rest i

end
end NexusPipe.Library
