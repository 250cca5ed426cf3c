import Mathlib.Data.Set.Card
import Mathlib.Data.Set.Finite.Lemmas
import Mathlib.Order.Interval.Set.Disjoint
import Mathlib.Order.Interval.Finset.Basic

/-! Visiting the elements of a set in turn with a search that looks only so far ahead. -/

namespace NexusPipe.Library

variable {α : Type*} [LinearOrder α]

def trail (A : Set α) (origin : α) : Set α := insert origin (A ∩ Set.Ioi origin)

def Finds (limit : α → α) (A : Set α) (t : α) : Prop := ∃ n ∈ A, t < n ∧ n ≤ limit t

def Covered (limit : α → α) (A : Set α) (origin stop : α) : Prop :=
  ∀ t ∈ trail A origin, t ≤ stop → Finds limit A t

/-- The first place of the trail from which the set does not go on within the limit. -/
structure Stuck (limit : α → α) (A : Set α) (origin stop t : α) : Prop where
  visited : t ∈ trail A origin
  within : t ≤ stop
  gap : ¬ Finds limit A t
  first : ∀ u ∈ trail A origin, u < t → Finds limit A u

/-- From the places of the trail, `after` finds the next element of the set unless it lies beyond
the limit. -/
def Searches (after : α → Option α) (limit : α → α) (A : Set α) (origin : α) : Prop :=
  ∀ t ∈ trail A origin, ∀ n, after t = some n ↔ IsLeast (A ∩ Set.Ioi t) n ∧ n ≤ limit t

inductive Hops (after : α → Option α) (stop : α) : Nat → α → α → Prop
  | refl (t : α) : Hops after stop 0 t t
  | head {k : Nat} {t n u : α} (found : after t = some n) (within : n ≤ stop)
      (rest : Hops after stop k n u) : Hops after stop (k + 1) t u

variable {A : Set α} {after : α → Option α} {limit : α → α} {origin t u n stop : α}

theorem origin_mem_trail : origin ∈ trail A origin := Set.mem_insert origin _

theorem trail_subset (least : IsLeast (A ∩ Set.Ioi t) n) : trail A n ⊆ trail A t := by
  rintro u (rfl | ⟨member, later⟩)
  · exact .inr least.1
  · exact .inr ⟨member, lt_trans least.1.2 later⟩

theorem forall_mem_trail {P : α → Prop} (least : IsLeast (A ∩ Set.Ioi t) n) (here : P t)
    (later : ∀ u ∈ trail A n, P u) : ∀ u ∈ trail A t, P u := by
  rintro u (rfl | inside)
  · exact here
  · rcases (least.2 inside).eq_or_lt with rfl | past
    · exact later n origin_mem_trail
    · exact later u (.inr ⟨inside.1, past⟩)

theorem le_of_mem_trail (member : u ∈ trail A t) : t ≤ u := by
  rcases member with rfl | inside
  · exact le_rfl
  · exact le_of_lt inside.2

theorem Searches.advance (searches : Searches after limit A t)
    (least : IsLeast (A ∩ Set.Ioi t) n) : Searches after limit A n :=
  fun u member => searches u (trail_subset least member)

theorem Searches.eq_none (searches : Searches after limit A t) (gap : ¬ Finds limit A t) :
    after t = none := by
  cases found : after t with
  | none => rfl
  | some n =>
    have ⟨least, near⟩ := (searches t origin_mem_trail n).mp found
    exact absurd ⟨n, least.1.1, least.1.2, near⟩ gap

theorem Covered.advance (covered : Covered limit A t stop) (least : IsLeast (A ∩ Set.Ioi t) n) :
    Covered limit A n stop :=
  fun u member => covered u (trail_subset least member)

theorem Covered.extend (covered : Covered limit A n stop) (least : IsLeast (A ∩ Set.Ioi t) n)
    (finds : Finds limit A t) : Covered limit A t stop :=
  forall_mem_trail least (fun _ => finds) covered

theorem covered_of_lt (early : stop < t) : Covered limit A t stop := by
  intro u member within
  exact absurd (le_trans (le_of_mem_trail member) within) (not_le.mpr early)

theorem Stuck.unique (stuck : Stuck limit A origin stop t) (stuck' : Stuck limit A origin stop u) :
    t = u := by
  rcases lt_trichotomy t u with less | same | less
  · exact absurd (stuck'.first t stuck.visited less) stuck.gap
  · exact same
  · exact absurd (stuck.first u stuck'.visited less) stuck'.gap

theorem isLeast_past (least : IsLeast (A ∩ Set.Ioi t) n) (reached : t ≤ stop) (beyond : stop < n) :
    IsLeast (A ∩ Set.Ioi stop) n :=
  ⟨⟨least.1.1, beyond⟩, fun _ member => least.2 ⟨member.1, lt_of_le_of_lt reached member.2⟩⟩

theorem inter_Ioc_eq_empty (least : IsLeast (A ∩ Set.Ioi t) n) (beyond : stop < n) :
    A ∩ Set.Ioc t stop = ∅ := by
  apply Set.eq_empty_of_forall_notMem
  intro u member
  have first := least.2 ⟨member.1, member.2.1⟩
  exact absurd member.2.2 (not_le.mpr (lt_of_lt_of_le beyond first))

theorem inter_Ioc_eq_insert (least : IsLeast (A ∩ Set.Ioi t) n) (within : n ≤ stop) :
    A ∩ Set.Ioc t stop = insert n (A ∩ Set.Ioc n stop) := by
  ext u
  constructor
  · intro member
    rcases (least.2 ⟨member.1, member.2.1⟩).eq_or_lt with rfl | past
    · exact .inl rfl
    · exact .inr ⟨member.1, past, member.2.2⟩
  · rintro (rfl | member)
    · exact ⟨least.1.1, least.1.2, within⟩
    · exact ⟨member.1, lt_trans least.1.2 member.2.1, member.2.2⟩

section
variable [LocallyFiniteOrder α]

theorem finite_inter_Ioc (A : Set α) (t stop : α) : (A ∩ Set.Ioc t stop).Finite :=
  (Set.finite_Ioc t stop).inter_of_right A

theorem ncard_inter_Ioc (least : IsLeast (A ∩ Set.Ioi t) n) (within : n ≤ stop) :
    (A ∩ Set.Ioc t stop).ncard = (A ∩ Set.Ioc n stop).ncard + 1 := by
  rw [inter_Ioc_eq_insert least within]
  exact Set.ncard_insert_of_notMem (fun member => lt_irrefl n member.2.1)
    (finite_inter_Ioc A n stop)

theorem ncard_inter_Ioc_add (A : Set α) (left : t ≤ u) (right : u ≤ stop) :
    (A ∩ Set.Ioc t stop).ncard = (A ∩ Set.Ioc t u).ncard + (A ∩ Set.Ioc u stop).ncard := by
  rw [← Set.Ioc_union_Ioc_eq_Ioc left right, Set.inter_union_distrib_left]
  apply Set.ncard_union_eq _ (finite_inter_Ioc A t u) (finite_inter_Ioc A u stop)
  exact (Set.Ioc_disjoint_Ioc_of_le le_rfl).mono Set.inter_subset_right Set.inter_subset_right

theorem Finds.exists_isLeast (finds : Finds limit A t) :
    ∃ n, IsLeast (A ∩ Set.Ioi t) n ∧ n ≤ limit t := by
  obtain ⟨m, member, later, near⟩ := finds
  obtain ⟨n, inside, least⟩ := Set.exists_min_image (A ∩ Set.Ioc t m) id (finite_inter_Ioc A t m)
    ⟨m, member, later, le_rfl⟩
  refine ⟨n, ⟨⟨inside.1, inside.2.1⟩, fun u candidate => ?_⟩, le_trans inside.2.2 near⟩
  rcases le_total u m with below | above
  · exact least u ⟨candidate.1, candidate.2, below⟩
  · exact le_trans inside.2.2 above

theorem Searches.exists_eq_some (searches : Searches after limit A t) (finds : Finds limit A t) :
    ∃ n, after t = some n ∧ IsLeast (A ∩ Set.Ioi t) n := by
  obtain ⟨n, least, near⟩ := finds.exists_isLeast
  exact ⟨n, (searches t origin_mem_trail n).mpr ⟨least, near⟩, least⟩

theorem Covered.hops (searches : Searches after limit A t) (covered : Covered limit A t stop)
    (ordered : t ≤ stop) :
    ∃ u n, Hops after stop (A ∩ Set.Ioc t stop).ncard t u ∧ after u = some n ∧
      IsLeast (A ∩ Set.Ioi stop) n := by
  induction count : (A ∩ Set.Ioc t stop).ncard generalizing t with
  | zero =>
    obtain ⟨n, found, least⟩ := searches.exists_eq_some (covered t origin_mem_trail ordered)
    have beyond : stop < n := by
      by_contra within
      rw [ncard_inter_Ioc least (not_lt.mp within)] at count
      exact Nat.succ_ne_zero _ count
    exact ⟨t, n, .refl t, found, isLeast_past least ordered beyond⟩
  | succ k ih =>
    obtain ⟨n, found, least⟩ := searches.exists_eq_some (covered t origin_mem_trail ordered)
    have within : n ≤ stop := by
      by_contra beyond
      rw [inter_Ioc_eq_empty least (not_le.mp beyond), Set.ncard_empty] at count
      exact absurd count (Nat.succ_ne_zero k).symm
    rw [ncard_inter_Ioc least within, Nat.succ.injEq] at count
    obtain ⟨u, last, hops, ends, final⟩ :=
      ih (searches.advance least) (covered.advance least) within count
    exact ⟨u, last, .head found within hops, ends, final⟩

theorem Stuck.exists_hops (searches : Searches after limit A t)
    (uncovered : ¬ Covered limit A t stop) :
    ∃ g, Stuck limit A t stop g ∧ Hops after stop (A ∩ Set.Ioc t g).ncard t g ∧ after g = none := by
  induction count : (A ∩ Set.Ioc t stop).ncard using Nat.strongRecOn generalizing t with
  | _ k ih =>
    by_cases finds : Finds limit A t
    · obtain ⟨n, found, least⟩ := searches.exists_eq_some finds
      have within : n ≤ stop := by
        by_contra beyond
        exact uncovered ((covered_of_lt (not_le.mp beyond)).extend least finds)
      have uncovered' : ¬ Covered limit A n stop := by
        intro covered
        exact uncovered (covered.extend least finds)
      have smaller : (A ∩ Set.Ioc n stop).ncard < k := by
        rw [← count, ncard_inter_Ioc least within]
        exact Nat.lt_succ_self _
      obtain ⟨g, stuck, hops, ends⟩ := ih _ smaller (searches.advance least) uncovered' rfl
      refine ⟨g, ⟨trail_subset least stuck.visited, stuck.within, stuck.gap, ?_⟩, ?_, ends⟩
      · exact forall_mem_trail least (fun _ => finds) stuck.first
      · rw [ncard_inter_Ioc least (le_of_mem_trail stuck.visited)]
        exact .head found within hops
    · have ordered : t ≤ stop := by
        by_contra late
        exact uncovered (covered_of_lt (not_le.mp late))
      refine ⟨t, ⟨origin_mem_trail, ordered, finds, ?_⟩, ?_, searches.eq_none finds⟩
      · intro u member earlier
        exact absurd (le_of_mem_trail member) (not_le.mpr earlier)
      · rw [Set.Ioc_self, Set.inter_empty, Set.ncard_empty]
        exact .refl t

theorem ncard_trail (A : Set α) (ordered : origin ≤ stop) :
    (trail A origin ∩ Set.Iic stop).ncard = (A ∩ Set.Ioc origin stop).ncard + 1 := by
  have split : trail A origin ∩ Set.Iic stop = insert origin (A ∩ Set.Ioc origin stop) := by
    rw [trail, Set.insert_inter_of_mem (Set.mem_Iic.mpr ordered), Set.inter_assoc, Set.Ioi_inter_Iic]
  rw [split]
  exact Set.ncard_insert_of_notMem (fun member => lt_irrefl origin member.2.1)
    (finite_inter_Ioc A origin stop)

omit [LocallyFiniteOrder α] in
theorem trail_inter_Iic_eq_empty (A : Set α) (early : stop < origin) :
    trail A origin ∩ Set.Iic stop = ∅ := by
  apply Set.eq_empty_of_forall_notMem
  intro u member
  exact absurd (le_trans (le_of_mem_trail member.1) member.2) (not_le.mpr early)

omit [LocallyFiniteOrder α] in
theorem isLeast_trail_of_lt (A : Set α) (early : stop < origin) :
    IsLeast (trail A origin ∩ Set.Ioi stop) origin :=
  ⟨⟨origin_mem_trail, early⟩, fun _ member => le_of_mem_trail member.1⟩

omit [LocallyFiniteOrder α] in
theorem trail_inter_Ioi (A : Set α) (ordered : origin ≤ stop) :
    trail A origin ∩ Set.Ioi stop = A ∩ Set.Ioi stop := by
  rw [trail, Set.insert_inter_of_notMem (Set.notMem_Ioi.mpr ordered), Set.inter_assoc,
    Set.inter_eq_self_of_subset_right (Set.Ioi_subset_Ioi ordered)]

end
end NexusPipe.Library
