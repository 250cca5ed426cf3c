import Mathlib.Data.List.Sort
import Mathlib.Order.Basic

namespace NexusPipe.Library

variable {α β : Type*}

/-- A comparator under which elements are ordered up to ties. -/
structure StrictWeak (less : α → α → Bool) : Prop where
  asymm : ∀ a b, less a b = true → less b a = false
  negTrans : ∀ a b c, less b a = false → less c b = false → less c a = false

theorem strictWeak_of_lt [LinearOrder β] (key : α → β)
    (compares : ∀ a b, less a b = true ↔ key a < key b) : StrictWeak less where
  asymm a b before := by
    rw [← Bool.not_eq_true, compares, not_lt]
    exact ((compares a b).mp before).le
  negTrans a b c first second := by
    rw [← Bool.not_eq_true, compares, not_lt] at first second ⊢
    exact first.trans second

theorem StrictWeak.flip (weak : StrictWeak less) :
    StrictWeak fun a b => less b a where
  asymm a b before := weak.asymm b a before
  negTrans a b c first second := weak.negTrans c b a second first

theorem StrictWeak.comap (weak : StrictWeak less) (f : β → α) :
    StrictWeak fun a b => less (f a) (f b) where
  asymm a b before := weak.asymm (f a) (f b) before
  negTrans a b c first second := weak.negTrans (f a) (f b) (f c) first second

def tied (less : α → α → Bool) (a b : α) : Bool := !less a b && !less b a

/-- Ascending, and among tied elements in the order they had. -/
structure StablySorted (less : α → α → Bool) (before after : List α) : Prop where
  perm : after.Perm before
  sorted : after.Pairwise fun a b => less b a = false
  stable : ∀ a, after.filter (tied less a) = before.filter (tied less a)

def stableSort (less : α → α → Bool) (l : List α) : List α := l.mergeSort fun a b => !less b a

theorem stablySorted_stableSort (weak : StrictWeak less) (l : List α) :
    StablySorted less l (stableSort less l) := by
  have trans (a b c : α) (first : (!less b a) = true) (second : (!less c b) = true) :
      (!less c a) = true := by
    rw [Bool.not_eq_true'] at first second ⊢
    exact weak.negTrans a b c first second
  have total (a b : α) : (!less b a || !less a b) = true := by
    cases before : less a b with
    | false => simp
    | true => simp [weak.asymm a b before]
  have perm : (stableSort less l).Perm l := List.mergeSort_perm l _
  refine ⟨perm, ?_, fun a => ?_⟩
  · refine (List.pairwise_mergeSort trans total l).imp fun ordered => ?_
    simpa using ordered
  · -- the tied elements are a sorted sublist, which a stable sort keeps
    have ties (b : α) : tied less a b = true ↔ less a b = false ∧ less b a = false := by simp [tied]
    have sorted : (l.filter (tied less a)).Pairwise fun b c => (!less c b) = true := by
      refine List.pairwise_of_forall_mem_list fun b first c second => ?_
      rw [List.mem_filter, ties] at first second
      rw [Bool.not_eq_true']
      exact weak.negTrans b a c first.2.1 second.2.2
    have kept := (List.sublist_mergeSort trans total sorted List.filter_sublist).filter (tied less a)
    simp only [List.filter_filter, Bool.and_self] at kept
    exact (kept.eq_of_length (perm.filter _).length_eq.symm).symm

end NexusPipe.Library
