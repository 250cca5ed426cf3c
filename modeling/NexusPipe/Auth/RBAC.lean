import NexusPipe.Go

namespace NexusPipe.Auth
open Library

def roleAdmin : String := "admin"
def roleManager : String := "manager"
def roleOperator : String := "operator"
def roleViewer : String := "viewer"

def resourcePipeline : String := "pipeline"
def resourceJob : String := "job"
def resourceWorker : String := "worker"
def resourceSecret : String := "secret"
def resourceConfig : String := "config"
def resourceAuditLog : String := "audit_log"
def resourceNamespace : String := "namespace"
def resourceAll : String := "*"

def actionCreate : String := "create"
def actionRead : String := "read"
def actionUpdate : String := "update"
def actionDelete : String := "delete"
def actionAll : String := "*"

abbrev PermissionSet := GoMap String (GoMap String Bool)

def PermissionSet.literal (entries : List (String × List String)) : PermissionSet :=
  (entries.map fun (resource, actions) =>
    Sigma.mk resource (actions.map fun action => Sigma.mk action true).toFinmap).toFinmap

structure RoleDefinition where
  Role : String
  Level : Int
  Permissions : PermissionSet
  Inherits : List String
  deriving DecidableEq

structure RBACEnforcer where
  roles : GoMap String RoleDefinition
  customRoles : GoMap String RoleDefinition

def viewerDefinition : RoleDefinition where
  Role := roleViewer
  Level := 0
  Permissions := .literal
    [(resourcePipeline, [actionRead]), (resourceJob, [actionRead]), (resourceAuditLog, [actionRead])]
  Inherits := []

def operatorDefinition : RoleDefinition where
  Role := roleOperator
  Level := 1
  Permissions := .literal
    [(resourcePipeline, [actionCreate, actionRead, actionUpdate]),
      (resourceJob, [actionCreate, actionRead, actionUpdate, actionDelete]),
      (resourceWorker, [actionRead, actionUpdate]), (resourceAuditLog, [actionRead])]
  Inherits := [roleViewer]

def managerDefinition : RoleDefinition where
  Role := roleManager
  Level := 2
  Permissions := .literal
    [(resourcePipeline, [actionAll]), (resourceJob, [actionAll]), (resourceWorker, [actionAll]),
      (resourceSecret, [actionCreate, actionRead, actionUpdate]),
      (resourceConfig, [actionCreate, actionRead, actionUpdate]), (resourceAuditLog, [actionRead]),
      (resourceNamespace, [actionRead, actionUpdate])]
  Inherits := [roleOperator]

def adminDefinition : RoleDefinition where
  Role := roleAdmin
  Level := 3
  Permissions := .literal [(resourceAll, [actionAll])]
  Inherits := [roleManager]

def defaultRoles : List ((_ : String) × RoleDefinition) :=
  [⟨roleViewer, viewerDefinition⟩, ⟨roleOperator, operatorDefinition⟩,
    ⟨roleManager, managerDefinition⟩, ⟨roleAdmin, adminDefinition⟩]

def newRBACEnforcer : RBACEnforcer := ⟨defaultRoles.toFinmap, ∅⟩

def PermissionSet.allows (permissions : PermissionSet) (resource action : String) : Bool :=
  match permissions.lookup resource with
  | some perms => perms.get action || perms.get actionAll
  | none => false

def PermissionSet.grants (permissions : PermissionSet) (resource action : String) : Bool :=
  permissions.allows resource action || permissions.allows resourceAll action

namespace RBACEnforcer
variable (e : RBACEnforcer)

def addCustomRole (name : String) (level : Int) (permissions : PermissionSet) (inherits : List String) :
    Except Text RBACEnforcer :=
  if name ∈ e.roles then .error (sprintf "role %q already exists as a built-in role" [.str name])
  else if name ∈ e.customRoles then .error (sprintf "custom role %q already exists" [.str name])
  else .ok { e with customRoles := e.customRoles.insert name ⟨name, level, permissions, inherits⟩ }

def definition (role : String) : Option RoleDefinition :=
  (e.roles.lookup role).or (e.customRoles.lookup role)

def hasPermission : Nat → RoleDefinition → String → String → Option Bool
  | 0, _, _, _ => none
  | depth + 1, roleDef, resource, action =>
    if roleDef.Permissions.grants resource action then some true
    else
      roleDef.Inherits.anyM fun inherited =>
        match e.roles.lookup inherited with
        | some inheritedDef => hasPermission depth inheritedDef resource action
        | none => some false

def checkPermission (depth : Nat) (role resource action : String) : Option Bool :=
  match e.definition role with
  | some roleDef => e.hasPermission depth roleDef resource action
  | none => some false

variable (order : GoMap.RangeOrder String (GoMap String Bool))
  (actionOrder : GoMap.RangeOrder String Bool)

def mergeResource (merged : PermissionSet) (resource : String) (actions : GoMap String Bool) :
    PermissionSet :=
  let merged := if resource ∈ merged then merged else merged.insert resource ∅
  (actionOrder actions).entries.foldl
    (fun merged entry => merged.insert resource ((merged.get resource).insert entry.1 true)) merged

def mergePermissions : Nat → PermissionSet → RoleDefinition → Option PermissionSet
  | 0, _, _ => none
  | depth + 1, merged, roleDef =>
    roleDef.Inherits.foldlM
      (fun merged inherited =>
        match e.roles.lookup inherited with
        | some inheritedDef => mergePermissions depth merged inheritedDef
        | none => some merged)
      ((order roleDef.Permissions).entries.foldl
        (fun merged entry => mergeResource actionOrder merged entry.1 entry.2) merged)

def getEffectivePermissions (depth : Nat) (roles : List String) : Option PermissionSet :=
  roles.foldlM
    (fun merged role =>
      match e.definition role with
      | some roleDef => e.mergePermissions order actionOrder depth merged roleDef
      | none => some merged)
    ∅

end RBACEnforcer

namespace RBACEnforcer
variable (e : RBACEnforcer)

def getRoleLevel (role : String) : Int :=
  match e.roles.lookup role with
  | some roleDef => roleDef.Level
  | none =>
    match e.customRoles.lookup role with
    | some roleDef => roleDef.Level
    | none => -1

def validateRoleTransition (currentRoles : List String) (targetRole : String) : Option Text :=
  let currentLevel := currentRoles.foldl
    (fun level role => if e.getRoleLevel role > level then e.getRoleLevel role else level) 0
  let targetLevel := e.getRoleLevel targetRole
  if targetLevel < 0 then some (sprintf "unknown role: %s" [.str targetRole])
  else if targetLevel > toInt64 (currentLevel + 1) ∧ currentLevel > 0 then
    some (sprintf "cannot promote from level %d to level %d in one step"
      [.int currentLevel, .int targetLevel])
  else none

end RBACEnforcer

structure AddCustomRole where
  name : String
  level : Int
  permissions : PermissionSet
  inherits : List String

def RBACEnforcer.add (e : RBACEnforcer) (c : AddCustomRole) : RBACEnforcer :=
  match e.addCustomRole c.name c.level c.permissions c.inherits with
  | .ok e' => e'
  | .error _ => e

def enforcerAfter (calls : List AddCustomRole) : RBACEnforcer :=
  calls.foldl RBACEnforcer.add newRBACEnforcer

end NexusPipe.Auth
