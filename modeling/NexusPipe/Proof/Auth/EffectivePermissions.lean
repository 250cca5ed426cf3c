import NexusPipe.Proof.Auth.RBAC

namespace NexusPipe.Proof.Auth.RBAC
open Library NexusPipe.Auth List

variable {e : RBACEnforcer} {role resource action : String}

def Lists (permissions : PermissionSet) (entry : String × String) : Prop :=
  ∃ perms, permissions.lookup entry.1 = some perms ∧ entry.2 ∈ perms

theorem lists_of_holds (held : Holds permissions entry) : Lists permissions entry := by
  obtain ⟨perms, found, value⟩ := holds_iff.mp held
  exact ⟨perms, found, Finmap.mem_iff.mpr ⟨true, value⟩⟩

variable (order : GoMap.RangeOrder String (GoMap String Bool))
  (actionOrder : GoMap.RangeOrder String Bool)

theorem holds_insert (merged : PermissionSet) (entry written : String × String) :
    Holds (merged.insert written.1 ((merged.get written.1).insert written.2 true)) entry ↔
      Holds merged entry ∨ entry = written := by
  obtain ⟨resource, action⟩ := entry
  simp only [Holds, GoMap.get_insert, Function.update_apply, Prod.ext_iff]
  by_cases same : resource = written.1
  · simp only [same, if_true, GoMap.get_insert, Function.update_apply, true_and]
    by_cases same' : action = written.2 <;> simp [same']
  · simp [same]

theorem holds_mergeResource (merged : PermissionSet) (resource : String)
    (actions : GoMap String Bool) (entry : String × String) :
    Holds (RBACEnforcer.mergeResource actionOrder merged resource actions) entry ↔
      Holds merged entry ∨ entry.1 = resource ∧ entry.2 ∈ actions := by
  have prepared : Holds (if resource ∈ merged then merged else merged.insert resource ∅) entry ↔
      Holds merged entry := by
    split
    · rfl
    · next absent =>
        rw [holds_iff, holds_iff, GoMap.lookup_insert_eq]
        split
        · next same =>
            have nothing : merged.lookup entry.1 = none := Finmap.lookup_eq_none.mpr (same ▸ absent)
            simp [nothing]
        · rfl
  rw [RBACEnforcer.mergeResource, foldl_collects Holds
    (fun (x : (_ : String) × Bool) entry => entry = (resource, x.1))
    (fun merged x entry => holds_insert merged entry (resource, x.1)), prepared]
  refine or_congr_right ?_
  rw [← (actionOrder actions).mem_keys, mem_map]
  constructor
  · rintro ⟨x, member, rfl⟩
    exact ⟨rfl, x, member, rfl⟩
  · rintro ⟨rfl, x, member, same⟩
    exact ⟨x, member, Prod.ext rfl same.symm⟩

theorem holds_mergeDefinition (merged permissions : PermissionSet) (entry : String × String) :
    Holds ((order permissions).entries.foldl
        (fun merged x => RBACEnforcer.mergeResource actionOrder merged x.1 x.2) merged) entry ↔
      Holds merged entry ∨ Lists permissions entry := by
  rw [foldl_collects Holds
    (fun (x : (_ : String) × GoMap String Bool) entry => entry.1 = x.1 ∧ entry.2 ∈ x.2)
    (fun merged x entry => holds_mergeResource actionOrder merged x.1 x.2 entry)]
  refine or_congr_right ?_
  constructor
  · rintro ⟨⟨resource, perms⟩, member, rfl, listed⟩
    exact ⟨perms, (order permissions).mem_entries.mp member, listed⟩
  · rintro ⟨perms, found, listed⟩
    exact ⟨⟨entry.1, perms⟩, (order permissions).mem_entries.mpr found, rfl, listed⟩

variable {depth : Nat}

theorem mergePermissions_spec (within : Within e k def₁) (deep : k ≤ depth) (merged : PermissionSet) :
    ∃ merged', e.mergePermissions order actionOrder depth merged def₁ = some merged' ∧
      ∀ entry, Holds merged' entry ↔ Holds merged entry ∨
        ∃ reached, Visits e def₁ reached ∧ Lists reached.Permissions entry := by
  induction k generalizing def₁ depth merged with
  | zero => exact within.elim
  | succ k ih =>
    obtain ⟨depth, rfl⟩ : ∃ less, depth = less + 1 := ⟨depth - 1, by omega⟩
    suffices collected : ∃ merged',
        e.mergePermissions order actionOrder (depth + 1) merged def₁ = some merged' ∧
          ∀ entry, Holds merged' entry ↔
            Holds ((order def₁.Permissions).entries.foldl
              (fun merged x => RBACEnforcer.mergeResource actionOrder merged x.1 x.2) merged) entry ∨
            ∃ inherited ∈ def₁.Inherits, ∃ def₂, e.roles.lookup inherited = some def₂ ∧
              ∃ reached, Visits e def₂ reached ∧ Lists reached.Permissions entry by
      obtain ⟨merged', returned, held⟩ := collected
      refine ⟨merged', returned, fun entry => ?_⟩
      rw [held, holds_mergeDefinition, exists_visited_iff, or_assoc]
    refine exists_foldlM_collects Holds _ (fun inherited member merged => ?_) _
    cases found : e.roles.lookup inherited with
    | none => exact ⟨merged, rfl, by simp⟩
    | some def₂ =>
      obtain ⟨merged', returned, held⟩ :=
        ih (within def₂ ⟨inherited, member, found⟩) (Nat.le_of_succ_le_succ deep) merged
      exact ⟨merged', returned, by simp [held]⟩

theorem getEffectivePermissions_spec (loaded : Loaded e) (roles : List String) (deep : 5 ≤ depth) :
    ∃ merged, e.getEffectivePermissions order actionOrder depth roles = some merged ∧
      ∀ entry, Holds merged entry ↔ ∃ role ∈ roles, ∃ roleDef, e.definition role = some roleDef ∧
        ∃ reached, Visits e roleDef reached ∧ Lists reached.Permissions entry := by
  have nothing (entry : String × String) : ¬ Holds ∅ entry := by simp [holds_iff]
  suffices collected : ∃ merged, e.getEffectivePermissions order actionOrder depth roles = some merged ∧
      ∀ entry, Holds merged entry ↔ Holds ∅ entry ∨ ∃ role ∈ roles, ∃ roleDef,
        e.definition role = some roleDef ∧
          ∃ reached, Visits e roleDef reached ∧ Lists reached.Permissions entry by
    simpa only [or_iff_right (nothing _)] using collected
  refine exists_foldlM_collects Holds _ (fun role _ merged => ?_) ∅
  cases e.definition role with
  | none => exact ⟨merged, rfl, by simp⟩
  | some roleDef =>
    obtain ⟨merged', returned, held⟩ :=
      mergePermissions_spec order actionOrder (within loaded roleDef) deep merged
    exact ⟨merged', returned, by simp [held]⟩

theorem holds_literal (listed : Lists (.literal entries) entry) :
    Holds (.literal entries) entry := by
  obtain ⟨perms, found, member⟩ := listed
  refine holds_iff.mpr ⟨perms, found, ?_⟩
  rw [PermissionSet.literal, Finmap.dlookup_list_toFinmap] at found
  obtain ⟨⟨resource, actions⟩, -, same⟩ := mem_map.mp (of_mem_dlookup found)
  simp only [Sigma.mk.injEq, heq_eq_eq] at same
  obtain ⟨b, value⟩ := Finmap.mem_iff.mp member
  rw [← same.2, Finmap.dlookup_list_toFinmap] at value ⊢
  obtain ⟨action, -, same'⟩ := mem_map.mp (of_mem_dlookup value)
  simp only [Sigma.mk.injEq, heq_eq_eq] at same'
  rw [value, same'.2]

theorem holds_builtIn (loaded : Loaded e) (found : e.roles.lookup name = some def₁)
    (listed : Lists def₁.Permissions entry) : Holds def₁.Permissions entry := by
  rcases builtIn_cases loaded found with rfl | rfl | rfl | rfl <;> exact holds_literal listed

theorem eq_or_builtIn_of_visits (path : Visits e def₁ def₂) :
    def₁ = def₂ ∨ ∃ name, e.roles.lookup name = some def₂ := by
  rcases Relation.ReflTransGen.cases_tail path with same | ⟨_, -, inherited, -, found⟩
  · exact .inl same.symm
  · exact .inr ⟨inherited, found⟩

theorem matches_trans (outer : Matches resource action entry)
    (inner : Matches entry.1 entry.2 entry') : Matches resource action entry' := by
  obtain ⟨outer₁, outer₂⟩ := outer
  obtain ⟨inner₁ | inner₁, inner₂ | inner₂⟩ := inner
  · exact ⟨inner₁ ▸ outer₁, inner₂ ▸ outer₂⟩
  · exact ⟨inner₁ ▸ outer₁, .inr inner₂⟩
  · exact ⟨.inr inner₁, inner₂ ▸ outer₂⟩
  · exact ⟨.inr inner₁, .inr inner₂⟩

theorem checked_of_matches (fits : Matches resource action entry)
    (checked : Checked e role entry.1 entry.2) : Checked e role resource action := by
  obtain ⟨roleDef, found, reached, path, grants⟩ := checked
  obtain ⟨entry', fits', held⟩ := (grants_iff _ _ _).mp grants
  exact ⟨roleDef, found, reached, path, (grants_iff _ _ _).mpr ⟨entry', matches_trans fits fits', held⟩⟩

def Agrees (e : RBACEnforcer) : Prop :=
  ∀ roles resource action, ∃ bound, ∀ depth, bound ≤ depth →
    ∃ merged, e.getEffectivePermissions order actionOrder depth roles = some merged ∧
      (merged.grants resource action = true ↔ ∃ role ∈ roles, Decides e role resource action true)

end NexusPipe.Proof.Auth.RBAC
