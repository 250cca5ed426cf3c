import Mathlib.Logic.Relation
import NexusPipe.Auth.RBAC
import NexusPipe.Library.List

namespace NexusPipe.Proof.Auth.RBAC
open Library NexusPipe.Auth RBACEnforcer List Option

variable {e : RBACEnforcer} {def₁ def₂ : RoleDefinition} {role resource action : String}

def Holds (permissions : PermissionSet) (entry : String × String) : Prop :=
  (permissions.get entry.1).get entry.2 = true

def Matches (resource action : String) (entry : String × String) : Prop :=
  (entry.1 = resource ∨ entry.1 = resourceAll) ∧ (entry.2 = action ∨ entry.2 = actionAll)

theorem get_eq_true_iff {perms : GoMap String Bool} :
    perms.get action = true ↔ perms.lookup action = some true := by
  rw [GoMap.get]
  cases perms.lookup action with
  | none => exact iff_of_false Bool.false_ne_true (by simp)
  | some b => simp

theorem holds_iff : Holds permissions entry ↔
      ∃ perms, permissions.lookup entry.1 = some perms ∧ perms.lookup entry.2 = some true := by
  rw [Holds, get_eq_true_iff, GoMap.get]
  cases permissions.lookup entry.1 with
  | none => simp [default]
  | some perms => simp

theorem allows_iff (permissions : PermissionSet) (resource action : String) :
    permissions.allows resource action ↔
      Holds permissions (resource, action) ∨ Holds permissions (resource, actionAll) := by
  rw [PermissionSet.allows, holds_iff, holds_iff]
  cases permissions.lookup resource with
  | none => simp
  | some perms => simp [get_eq_true_iff]

theorem grants_iff (permissions : PermissionSet) (resource action : String) :
    permissions.grants resource action ↔
      ∃ entry, Matches resource action entry ∧ Holds permissions entry := by
  rw [PermissionSet.grants, Bool.or_eq_true, allows_iff, allows_iff]
  constructor
  · rintro ((held | held) | (held | held))
    · exact ⟨_, ⟨.inl rfl, .inl rfl⟩, held⟩
    · exact ⟨_, ⟨.inl rfl, .inr rfl⟩, held⟩
    · exact ⟨_, ⟨.inr rfl, .inl rfl⟩, held⟩
    · exact ⟨_, ⟨.inr rfl, .inr rfl⟩, held⟩
  · rintro ⟨⟨_, _⟩, ⟨rfl | rfl, rfl | rfl⟩, held⟩
    · exact .inl (.inl held)
    · exact .inl (.inr held)
    · exact .inr (.inl held)
    · exact .inr (.inr held)

def Next (e : RBACEnforcer) (def₁ def₂ : RoleDefinition) : Prop :=
  ∃ inherited ∈ def₁.Inherits, e.roles.lookup inherited = some def₂

abbrev Visits (e : RBACEnforcer) : RoleDefinition → RoleDefinition → Prop :=
  Relation.ReflTransGen (Next e)

def Within (e : RBACEnforcer) : Nat → RoleDefinition → Prop
  | 0, _ => False
  | k + 1, roleDef => ∀ inheritedDef, Next e roleDef inheritedDef → Within e k inheritedDef

theorem exists_visited_iff {p : RoleDefinition → Prop} :
    (∃ reached, Visits e def₁ reached ∧ p reached) ↔
      p def₁ ∨ ∃ inherited ∈ def₁.Inherits, ∃ def₂, e.roles.lookup inherited = some def₂ ∧
        ∃ reached, Visits e def₂ reached ∧ p reached := by
  constructor
  · rintro ⟨reached, path, holds⟩
    rcases Relation.ReflTransGen.cases_head path with rfl | ⟨def₂, ⟨inherited, member, found⟩, rest⟩
    · exact .inl holds
    · exact .inr ⟨inherited, member, def₂, found, reached, rest, holds⟩
  · rintro (holds | ⟨inherited, member, def₂, found, reached, rest, holds⟩)
    · exact ⟨def₁, .refl, holds⟩
    · exact ⟨reached, .head ⟨inherited, member, found⟩ rest, holds⟩

variable {depth : Nat}

theorem hasPermission_spec (within : Within e k def₁) (deep : k ≤ depth) (resource action : String) :
    ∃ b, e.hasPermission depth def₁ resource action = some b ∧
      (b = true ↔ ∃ reached, Visits e def₁ reached ∧ reached.Permissions.grants resource action) := by
  induction k generalizing def₁ depth with
  | zero => exact within.elim
  | succ k ih =>
    obtain ⟨depth, rfl⟩ : ∃ less, depth = less + 1 := ⟨depth - 1, by omega⟩
    rw [exists_visited_iff, hasPermission]
    split
    · next granted => exact ⟨true, rfl, by simp [granted]⟩
    · next refused =>
        simp only [refused, Bool.false_eq_true, false_or]
        refine exists_anyM_eq_some fun inherited member => ?_
        cases found : e.roles.lookup inherited with
        | none => exact ⟨false, rfl, by simp⟩
        | some def₂ =>
          obtain ⟨b, returned, meaning⟩ :=
            ih (within def₂ ⟨inherited, member, found⟩) (Nat.le_of_succ_le_succ deep)
          exact ⟨b, returned, by simp [meaning]⟩

structure Loaded (e : RBACEnforcer) : Prop where
  roles : e.roles = defaultRoles.toFinmap
  custom : ∀ name roleDef, e.customRoles.lookup name = some roleDef → e.roles.lookup name = none

theorem loaded_add (loaded : Loaded e) (c : AddCustomRole) : Loaded (e.add c) := by
  simp only [add, addCustomRole]
  split_ifs with builtIn taken
  · exact loaded
  · exact loaded
  · refine ⟨loaded.roles, fun name roleDef found => ?_⟩
    rw [GoMap.lookup_insert_eq] at found
    split at found
    · next same =>
        subst same
        exact Finmap.lookup_eq_none.mpr builtIn
    · exact loaded.custom name roleDef found

theorem loaded_after (calls : List AddCustomRole) : Loaded (enforcerAfter calls) := by
  have fresh : Loaded newRBACEnforcer := ⟨rfl, fun name roleDef found => by cases found⟩
  exact foldlRecOn calls _ fresh fun e loaded c _ => loaded_add loaded c

theorem builtIn_cases (loaded : Loaded e) (found : e.roles.lookup name = some def₁) :
    def₁ = viewerDefinition ∨ def₁ = operatorDefinition ∨ def₁ = managerDefinition ∨
      def₁ = adminDefinition := by
  rw [loaded.roles, Finmap.dlookup_list_toFinmap] at found
  have listed : ⟨name, def₁⟩ ∈ defaultRoles := of_mem_dlookup found
  simp only [defaultRoles, mem_cons, not_mem_nil, or_false, Sigma.mk.injEq, heq_eq_eq] at listed
  exact listed.imp And.right (Or.imp And.right (Or.imp And.right And.right))

theorem default_lookup (loaded : Loaded e) : e.roles.lookup roleViewer = some viewerDefinition ∧
      e.roles.lookup roleOperator = some operatorDefinition ∧
        e.roles.lookup roleManager = some managerDefinition := by
  simp only [loaded.roles, Finmap.dlookup_list_toFinmap]
  exact ⟨rfl, rfl, rfl⟩

theorem within_of_lookup (loaded : Loaded e) (found : e.roles.lookup name = some def₁) :
    Within e 4 def₁ := by
  obtain ⟨viewer, operator, manager⟩ := default_lookup loaded
  have within_viewer (k : Nat) : Within e (k + 1) viewerDefinition := by
    rintro def₂ ⟨inherited, member, -⟩
    cases member
  have within_operator (k : Nat) : Within e (k + 2) operatorDefinition := by
    rintro def₂ ⟨inherited, member, found⟩
    rw [mem_singleton.mp member, viewer, some.injEq] at found
    exact found ▸ within_viewer k
  have within_manager (k : Nat) : Within e (k + 3) managerDefinition := by
    rintro def₂ ⟨inherited, member, found⟩
    rw [mem_singleton.mp member, operator, some.injEq] at found
    exact found ▸ within_operator k
  rcases builtIn_cases loaded found with rfl | rfl | rfl | rfl
  · exact within_viewer 3
  · exact within_operator 2
  · exact within_manager 1
  · rintro def₂ ⟨inherited, member, found⟩
    rw [mem_singleton.mp member, manager, some.injEq] at found
    exact found ▸ within_manager 0

-- whatever a custom role inherits from, the walk goes on among the four built-in ones
theorem within (loaded : Loaded e) (roleDef : RoleDefinition) : Within e 5 roleDef :=
  fun _ ⟨_, _, found⟩ => within_of_lookup loaded found

variable {inherited : String}

theorem inherits_builtIn (loaded : Loaded e) (found : e.roles.lookup name = some def₁)
    (member : inherited ∈ def₁.Inherits) : ∃ def₂, e.roles.lookup inherited = some def₂ := by
  obtain ⟨viewer, operator, manager⟩ := default_lookup loaded
  rcases builtIn_cases loaded found with rfl | rfl | rfl | rfl
  · cases member
  · exact ⟨_, mem_singleton.mp member ▸ viewer⟩
  · exact ⟨_, mem_singleton.mp member ▸ operator⟩
  · exact ⟨_, mem_singleton.mp member ▸ manager⟩

def Decides (e : RBACEnforcer) (role resource action : String) (b : Bool) : Prop :=
  ∃ bound, ∀ depth, bound ≤ depth → e.checkPermission depth role resource action = some b

def Checked (e : RBACEnforcer) (role resource action : String) : Prop :=
  ∃ roleDef, e.definition role = some roleDef ∧
    ∃ reached, Visits e roleDef reached ∧ reached.Permissions.grants resource action

theorem checkPermission_spec (loaded : Loaded e) (role resource action : String) (deep : 5 ≤ depth) :
    ∃ b, e.checkPermission depth role resource action = some b ∧
      (b = true ↔ Checked e role resource action) := by
  rw [checkPermission, Checked]
  cases e.definition role with
  | none => exact ⟨false, rfl, by simp⟩
  | some roleDef =>
    obtain ⟨b, returned, meaning⟩ := hasPermission_spec (within loaded roleDef) deep resource action
    exact ⟨b, returned, by simp [meaning]⟩

theorem decides_iff (loaded : Loaded e) :
    Decides e role resource action b ↔ (b = true ↔ Checked e role resource action) := by
  constructor
  · rintro ⟨bound, returns⟩
    obtain ⟨b', returned, meaning⟩ :=
      checkPermission_spec loaded role resource action (le_max_right bound 5)
    rw [returns _ (le_max_left bound 5), some.injEq] at returned
    rwa [returned]
  · intro meaning
    refine ⟨5, fun depth deep => ?_⟩
    obtain ⟨b', returned, meaning'⟩ := checkPermission_spec loaded role resource action deep
    rw [returned, some.injEq, Bool.eq_iff_iff, meaning', meaning]

theorem decides_true_iff (loaded : Loaded e) :
    Decides e role resource action true ↔ Checked e role resource action := by
  simp [decides_iff loaded]

theorem decides_of_eq (loaded : Loaded e)
    (answer : e.checkPermission 5 role resource action = some b) :
    Decides e role resource action b := by
  obtain ⟨b', returned, meaning⟩ := checkPermission_spec loaded role resource action le_rfl
  rw [answer, some.injEq] at returned
  exact (decides_iff loaded).mpr (returned ▸ meaning)

def Inherits (e : RBACEnforcer) (heir inherited : String) : Prop :=
  ∃ roleDef, e.definition heir = some roleDef ∧ inherited ∈ roleDef.Inherits

def Granted (e : RBACEnforcer) (role resource action : String) : Prop :=
  ∃ reached roleDef, Relation.ReflTransGen (Inherits e) role reached ∧
    e.definition reached = some roleDef ∧ roleDef.Permissions.grants resource action

def Lawful (e : RBACEnforcer) : Prop :=
  ∀ role resource action, ∃ b, Decides e role resource action b ∧
    (b = true ↔ Granted e role resource action)

theorem definition_of_lookup (found : e.roles.lookup name = some def₁) :
    e.definition name = some def₁ := by
  rw [definition, found, some_or]

theorem definition_of_custom (loaded : Loaded e) (custom : e.customRoles.lookup name = some def₁) :
    e.definition name = some def₁ := by
  rw [definition, loaded.custom name def₁ custom, none_or, custom]

theorem exists_reached_of_visits (found : e.definition role = some def₁) (path : Visits e def₁ def₂) :
    ∃ name, Relation.ReflTransGen (Inherits e) role name ∧ e.definition name = some def₂ := by
  induction path with
  | refl => exact ⟨role, .refl, found⟩
  | tail _ step ih =>
    obtain ⟨name, path, here⟩ := ih
    obtain ⟨inherited, member, found'⟩ := step
    exact ⟨inherited, path.tail ⟨_, here, member⟩, definition_of_lookup found'⟩

theorem granted_of_checked (checked : Checked e role resource action) :
    Granted e role resource action := by
  obtain ⟨roleDef, found, reached, path, grants⟩ := checked
  obtain ⟨name, path', found'⟩ := exists_reached_of_visits found path
  exact ⟨name, reached, path', found', grants⟩

theorem checked_of_inherits_builtIn (found : e.definition role = some def₁)
    (member : inherited ∈ def₁.Inherits) (builtIn : e.roles.lookup inherited = some def₂)
    (checked : Checked e inherited resource action) : Checked e role resource action := by
  obtain ⟨roleDef, found', reached, path, grants⟩ := checked
  obtain rfl : def₂ = roleDef :=
    some.inj ((definition_of_lookup builtIn).symm.trans found')
  exact ⟨def₁, found, reached, .head ⟨inherited, member, builtIn⟩ path, grants⟩

def Closed (e : RBACEnforcer) : Prop :=
  ∀ heir heirDef inherited inheritedDef, e.customRoles.lookup heir = some heirDef →
    inherited ∈ heirDef.Inherits → e.customRoles.lookup inherited = some inheritedDef →
      ∀ resource action, Decides e inherited resource action true → Decides e heir resource action true

theorem checked_of_granted (loaded : Loaded e) (closed : Closed e)
    (granted : Granted e role resource action) : Checked e role resource action := by
  obtain ⟨reached, reachedDef, path, found, grants⟩ := granted
  -- by induction from the far end, where the action is granted
  induction path using Relation.ReflTransGen.head_induction_on with
  | refl => exact ⟨reachedDef, found, reachedDef, .refl, grants⟩
  | head step _ checked =>
    obtain ⟨heirDef, heir, member⟩ := step
    obtain ⟨inheritedDef, inherited, -⟩ := id checked
    rcases or_eq_some_iff.mp inherited with builtIn | ⟨missing, custom⟩
    · exact checked_of_inherits_builtIn heir member builtIn checked
    · rcases or_eq_some_iff.mp heir with builtIn | ⟨-, custom'⟩
      · obtain ⟨def₂, present⟩ := inherits_builtIn loaded builtIn member
        cases missing.symm.trans present
      · have moved := closed _ heirDef _ inheritedDef custom' member custom resource action
        exact (decides_true_iff loaded).mp (moved ((decides_true_iff loaded).mpr checked))

end NexusPipe.Proof.Auth.RBAC
