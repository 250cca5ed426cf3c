import Mathlib.Data.Finmap
import Mathlib.Data.List.Sort

namespace NexusPipe.Library
open List

abbrev GoMap (α β : Type*) := Finmap (fun _ : α => β)

namespace GoMap
variable {α β : Type*} [DecidableEq α]

def get [Inhabited β] (m : GoMap α β) (k : α) : β := (m.lookup k).getD default

def len (m : GoMap α β) : Nat := m.keys.card

theorem lookup_insert_eq (m : GoMap α β) (k k' : α) (v : β) :
    (m.insert k v).lookup k' = if k' = k then some v else m.lookup k' := by
  split_ifs with same
  · subst same
    exact Finmap.lookup_insert m
  · exact Finmap.lookup_insert_of_ne m same

theorem lookup_erase_eq (m : GoMap α β) (k k' : α) :
    (m.erase k).lookup k' = if k' = k then none else m.lookup k' := by
  split_ifs with same
  · subst same
    exact Finmap.lookup_erase k' m
  · exact Finmap.lookup_erase_ne same

theorem get_insert [Inhabited β] (m : GoMap α β) (k : α) (v : β) :
    get (m.insert k v) = Function.update m.get k v := by
  funext k'
  simp only [get, lookup_insert_eq, Function.update_apply]
  split_ifs <;> rfl

theorem lookup_eq_some_iff_mem_entries {m : GoMap α β} :
    m.lookup k = some v ↔ ⟨k, v⟩ ∈ m.entries := by
  induction m using Finmap.induction_on with
  | H l =>
    rw [Finmap.lookup_toFinmap]
    exact mem_dlookup_iff l.nodupKeys

theorem lookup_foldl_insert {entries : List ((_ : α) × β)}
    (nodup : (entries.map Sigma.fst).Nodup) (m : GoMap α β) (k : α) :
    (entries.foldl (fun m x => m.insert x.1 x.2) m).lookup k =
      (entries.dlookup k).or (m.lookup k) := by
  induction entries generalizing m with
  | nil => rfl
  | cons x entries ih =>
    rw [map_cons, nodup_cons] at nodup
    rw [foldl_cons, ih nodup.2, lookup_insert_eq]
    by_cases same : k = x.1
    · subst same
      have absent : entries.dlookup x.1 = none := dlookup_eq_none.mpr nodup.1
      rw [absent, if_pos rfl, dlookup_cons_eq]
      rfl
    · rw [if_neg same, dlookup_cons_ne entries x same]

structure Ranging (m : GoMap α β) where
  entries : List ((_ : α) × β)
  complete : (entries : Multiset ((_ : α) × β)) = m.entries

abbrev RangeOrder (α β : Type*) := (m : GoMap α β) → Ranging m

noncomputable def anyOrder : RangeOrder α β := fun m => ⟨m.entries.toList, m.entries.coe_toList⟩

namespace Ranging
variable {m : GoMap α β} (r : Ranging m)

theorem mem_entries : ⟨k, v⟩ ∈ r.entries ↔ m.lookup k = some v := by
  rw [lookup_eq_some_iff_mem_entries, ← r.complete, Multiset.mem_coe]

omit [DecidableEq α] in
theorem nodup_keys : (r.entries.map Sigma.fst).Nodup := by
  have nodup := m.nodupKeys
  rw [← r.complete] at nodup
  exact Multiset.coe_nodupKeys.mp nodup

theorem mem_keys : k ∈ r.entries.map Sigma.fst ↔ k ∈ m := by
  rw [Finmap.mem_iff, mem_map]
  constructor
  · rintro ⟨⟨k', v⟩, member, rfl⟩
    exact ⟨v, r.mem_entries.mp member⟩
  · rintro ⟨v, found⟩
    exact ⟨⟨k, v⟩, r.mem_entries.mpr found, rfl⟩

theorem dlookup_entries (k : α) : r.entries.dlookup k = m.lookup k := by
  ext v
  rw [← r.mem_entries]
  exact mem_dlookup_iff r.nodup_keys

theorem lookup_merge (into : GoMap α β) (k : α) :
    (r.entries.foldl (fun into x => into.insert x.1 x.2) into).lookup k =
      (m.lookup k).or (into.lookup k) := by
  rw [lookup_foldl_insert r.nodup_keys, r.dlookup_entries]

theorem lookup_prune (p : α → β → Prop) [∀ k v, Decidable (p k v)] (k : α) :
    (r.entries.foldl (fun m x => if p x.1 x.2 then m.erase x.1 else m) m).lookup k =
      (m.lookup k).filter fun v => ¬ p k v := by
  have pruned (entries : List ((_ : α) × β)) (into : GoMap α β) :
      (entries.foldl (fun m x => if p x.1 x.2 then m.erase x.1 else m) into).lookup k =
        if ∃ x ∈ entries, x.1 = k ∧ p x.1 x.2 then none else into.lookup k := by
    induction entries generalizing into with
    | nil => simp
    | cons x entries ih =>
      rw [foldl_cons, ih]
      simp only [exists_mem_cons_iff]
      by_cases later : ∃ x ∈ entries, x.1 = k ∧ p x.1 x.2
      · rw [if_pos later, if_pos (.inr later)]
      · by_cases here : x.1 = k
        · subst here
          by_cases bad : p x.1 x.2 <;> simp [later, bad]
        · by_cases bad : p x.1 x.2 <;> simp [later, here, bad, Ne.symm here]
  rw [pruned]
  cases found : m.lookup k with
  | none => simp
  | some v =>
    have own : (∃ x ∈ r.entries, x.1 = k ∧ p x.1 x.2) ↔ p k v := by
      constructor
      · rintro ⟨⟨_, v'⟩, member, rfl, bad⟩
        have same := found.symm.trans (r.mem_entries.mp member)
        exact Option.some.inj same ▸ bad
      · intro bad
        exact ⟨⟨k, v⟩, r.mem_entries.mpr found, rfl, bad⟩
    by_cases bad : p k v <;> simp [own, bad, Option.filter_some]

end Ranging

def sortedKeys (rank : α → Nat) (injective : Function.Injective rank) (m : GoMap α β) : List α :=
  Quot.liftOn m.keys.val (fun l => l.insertionSort fun a b => rank a ≤ rank b) (by
    intro l l' same
    have : Std.Total (fun a b => rank a ≤ rank b) := ⟨fun a b => Nat.le_total _ _⟩
    have : IsTrans α (fun a b => rank a ≤ rank b) := ⟨fun _ _ _ => Nat.le_trans⟩
    have : Std.Antisymm (fun a b => rank a ≤ rank b) :=
      ⟨fun a b left right => injective (Nat.le_antisymm left right)⟩
    apply List.Perm.eq_of_pairwise' (List.pairwise_insertionSort _ l) (List.pairwise_insertionSort _ l')
    exact (List.perm_insertionSort _ l).trans (same.trans (List.perm_insertionSort _ l').symm))

omit [DecidableEq α] in
theorem coe_sortedKeys (rank : α → Nat) (injective : Function.Injective rank) (m : GoMap α β) :
    (sortedKeys rank injective m : Multiset α) = m.keys.val := by
  unfold sortedKeys
  induction m.keys.val using Quot.ind with
  | mk l => exact Multiset.coe_eq_coe.mpr (perm_insertionSort _ l)

def ascending (rank : α → Nat) (injective : Function.Injective rank) : RangeOrder α β := fun m =>
  { entries := (sortedKeys rank injective m).filterMap fun k => (m.lookup k).map (Sigma.mk k)
    complete := by
      have keys := coe_sortedKeys rank injective m
      have nodup : (sortedKeys rank injective m).Nodup := by
        rw [← Multiset.coe_nodup, keys]
        exact m.keys.nodup
      refine (Multiset.Nodup.ext ?_ m.nodup_entries).mpr ?_
      · refine Multiset.coe_nodup.mpr (nodup.filterMap ?_)
        rintro a a' ⟨k, v⟩ left right
        simp only [Option.mem_def, Option.map_eq_some_iff] at left right
        obtain ⟨_, _, left⟩ := left
        obtain ⟨_, _, right⟩ := right
        exact (congrArg Sigma.fst left).trans (congrArg Sigma.fst right).symm
      · rintro ⟨k, v⟩
        rw [Multiset.mem_coe, List.mem_filterMap, ← lookup_eq_some_iff_mem_entries]
        constructor
        · rintro ⟨k', _, found⟩
          obtain ⟨v', found, same⟩ := Option.map_eq_some_iff.mp found
          cases same
          exact found
        · intro found
          refine ⟨k, ?_, by rw [found]; rfl⟩
          rw [← Multiset.mem_coe, keys]
          exact Finmap.mem_keys.mpr (Finmap.mem_of_lookup_eq_some found) }

end GoMap
end NexusPipe.Library
