import NexusPipe.Auth.RBAC
import NexusPipe.Library.Schedule
import NexusPipe.Proof.Go

namespace NexusPipe.Proof.Auth.Transition
open Library NexusPipe.Auth

variable {e : RBACEnforcer} {roles : List String} {target : String}

def highest (e : RBACEnforcer) : List String → Int
  | [] => 0
  | role :: roles => roles.foldl (fun level role => max level (e.getRoleLevel role)) (e.getRoleLevel role)

def promote (e : RBACEnforcer) (roles : List String) (target : String) : Option (List String) :=
  if e.validateRoleTransition roles target = none then some (roles ++ [target]) else none

theorem highest_concat (e : RBACEnforcer) (roles : List String) (target : String) :
    highest e (roles ++ [target]) =
      if roles = [] then e.getRoleLevel target else max (highest e roles) (e.getRoleLevel target) := by
  cases roles with
  | nil => rfl
  | cons role roles => simp [highest]

theorem currentLevel_eq (e : RBACEnforcer) (roles : List String) :
    roles.foldl (fun level role => if e.getRoleLevel role > level then e.getRoleLevel role else level)
      0 = max 0 (highest e roles) := by
  induction roles using List.reverseRecOn with
  | nil => rfl
  | append_singleton roles role ih =>
    rw [List.foldl_concat, ih, highest_concat]
    cases roles with
    | nil =>
      simp only [highest, if_true]
      omega
    | cons first roles =>
      rw [if_neg (List.cons_ne_nil first roles)]
      omega

theorem accepted_iff : e.validateRoleTransition roles target = none ↔ 0 ≤ e.getRoleLevel target ∧
      (0 < highest e roles → e.getRoleLevel target ≤ toInt64 (highest e roles + 1)) := by
  rw [RBACEnforcer.validateRoleTransition, currentLevel_eq]
  split_ifs with unknown refused
  · simp only [false_iff]
    omega
  · simp only [false_iff]
    rw [max_eq_right (by omega)] at refused
    omega
  · simp only [true_iff]
    refine ⟨by omega, fun positive => ?_⟩
    rw [max_eq_right positive.le] at refused
    omega

theorem level_le_of_accepted (raised : 0 < highest e roles)
    (accepted : e.validateRoleTransition roles target = none) :
    e.getRoleLevel target ≤ highest e roles + 1 :=
  ((accepted_iff.mp accepted).2 raised).trans (toInt64_le_self (by omega))

def Stepwise (e : RBACEnforcer) (roles : List String) : Prop :=
  0 < highest e roles ∨ ∀ target, 0 ≤ e.getRoleLevel target → e.getRoleLevel target ≤ highest e roles + 1

theorem stepwise_iff : Stepwise e roles ↔ ∀ target, e.validateRoleTransition roles target = none →
    e.getRoleLevel target ≤ highest e roles + 1 := by
  constructor
  · rintro (raised | near) target accepted
    · exact level_le_of_accepted raised accepted
    · exact near target (accepted_iff.mp accepted).1
  · intro bounded
    refine or_iff_not_imp_left.mpr fun low target known => bounded target ?_
    exact accepted_iff.mpr ⟨known, fun raised => absurd raised low⟩

theorem promote_eq_some (promoted : promote e roles target = some roles') :
    e.validateRoleTransition roles target = none ∧
      highest e roles' = max (highest e roles) (e.getRoleLevel target) := by
  rw [promote] at promoted
  split_ifs at promoted with accepted
  · obtain rfl := Option.some.inj promoted
    refine ⟨accepted, ?_⟩
    rw [highest_concat]
    split_ifs with empty
    · rw [empty, highest, max_eq_right (accepted_iff.mp accepted).1]
    · rfl

theorem stepwise_promote (stepwise : Stepwise e roles) (promoted : promote e roles target = some roles') :
    highest e roles' ≤ highest e roles + 1 ∧ Stepwise e roles' := by
  obtain ⟨accepted, highest_eq⟩ := promote_eq_some promoted
  have bounded := stepwise_iff.mp stepwise target accepted
  refine ⟨by omega, stepwise.imp (fun raised => by omega) fun near other known => ?_⟩
  have := near other known
  omega

theorem highest_le_of_run (stepwise : Stepwise e roles)
    (run : runSchedule (promote e) roles targets = some roles') :
    highest e roles' ≤ highest e roles + targets.length := by
  induction targets generalizing roles with
  | nil =>
    obtain rfl := Option.some.inj run
    simp
  | cons target targets ih =>
    obtain ⟨middle, first, rest⟩ := runSchedule_cons.mp run
    obtain ⟨bounded, stepwise⟩ := stepwise_promote stepwise first
    have := ih stepwise rest
    rw [List.length_cons]
    omega

theorem transition_stepwise_iff (e : RBACEnforcer) (roles : List String) :
    ((∀ target, e.validateRoleTransition roles target = none →
        e.getRoleLevel target ≤ highest e roles + 1) ∧
      ∀ targets roles', runSchedule (promote e) roles targets = some roles' →
        highest e roles' ≤ highest e roles + targets.length) ↔ 0 < highest e roles ∨
        ∀ target, 0 ≤ e.getRoleLevel target → e.getRoleLevel target ≤ highest e roles + 1 := by
  constructor
  · rintro ⟨bounded, -⟩
    exact stepwise_iff.mpr bounded
  · intro stepwise
    exact ⟨stepwise_iff.mp stepwise, fun targets roles' run => highest_le_of_run stepwise run⟩

theorem viewer_promoted_to_admin :
    newRBACEnforcer.validateRoleTransition [roleViewer] roleAdmin = none ∧
      highest newRBACEnforcer [roleViewer] = 0 ∧ newRBACEnforcer.getRoleLevel roleAdmin = 3 := by
  decide

end NexusPipe.Proof.Auth.Transition
