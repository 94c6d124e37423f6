/-
# Roles and grants

`RBACAuthority` of `akaalPipeline/security/rbac.py`, over the tables of roles, permissions and grants: a
grant gives a principal or a group a role on a resource, and a role has the permissions of its parents.

* `isScopeApplicable_iff` : which resources the scope of a grant contains;
* `mem_getEffectivePermissions_iff` : whose permissions are returned;
* `exact_iff` : they are those of the active roles precisely when the others add none;
* `getEffectivePermissions_antitone` : revocation gives nothing;
* `getEffectivePermissions_ofTenant` : other tenants give nothing;
* `not_exact_of_inactive` : an inactive role adds its own.
-/
import Akaal.ParentChain
import Akaal.Traversal

open ParentChain

namespace Rbac

/-! ## The tables -/

/-- `GrantResourceType`. -/
inductive GrantResourceType where
  | organization
  | workspace
  | project
  | migration
  | system
  deriving DecidableEq

/-- The value of a type. -/
def GrantResourceType.value : GrantResourceType → String
  | .organization => "ORGANIZATION"
  | .workspace => "WORKSPACE"
  | .project => "PROJECT"
  | .migration => "MIGRATION"
  | .system => "SYSTEM"

/-- `GrantSubjectType`. -/
inductive GrantSubjectType where
  | principal
  | group
  deriving DecidableEq

/-- A row of `enterprise_roles`. -/
structure RoleRow where
  tenantId : String
  roleId : String
  isActive : Bool
  parentRoleId : Option String
  deriving DecidableEq

/-- A row of `role_permissions`. -/
structure PermissionRow where
  tenantId : String
  roleId : String
  permissionId : String
  deriving DecidableEq

/-- A row of `role_grants`. -/
structure GrantRow where
  grantId : String
  tenantId : String
  subjectType : GrantSubjectType
  subjectId : String
  roleId : String
  resourceType : GrantResourceType
  resourceId : String
  expiresAt : Option String
  isRevoked : Bool
  deriving DecidableEq

/-- A grant is for one of the subjects. -/
def GrantRow.isFor (principalId : String) (groupIds : List String) (g : GrantRow) : Bool :=
  match g.subjectType with
  | .principal => g.subjectId = principalId
  | .group => groupIds.contains g.subjectId

/-- A row of `enterprise_projects`. -/
structure ProjectRow where
  tenantId : String
  workspaceId : String
  projectId : String
  deriving DecidableEq

/-- A migration, with what its scope is found by. -/
structure MigrationRow where
  migrationId : String
  tenantId : String
  workspaceId : String
  projectId : Option String
  deriving DecidableEq

/-- What an authority reads: the tables, those of projects and migrations only when it is given their
repositories, and the limit of inheritance. -/
structure Authority where
  roles : List RoleRow
  rolePermissions : List PermissionRow
  roleGrants : List GrantRow
  projects : Option (List ProjectRow) := none
  migrations : Option (List MigrationRow) := none
  maxRoleInheritanceDepth : ℕ := 10

/-- Why the permissions are not returned. -/
inductive RbacError where
  /-- `CyclicRoleInheritanceError`. -/
  | hierarchy (e : WalkError String)
  /-- `expires_at` is no timestamp. -/
  | timestamp (text : String)
  deriving DecidableEq

namespace Authority

section Resolution

variable (db : Authority) (tenantId : String)

/-! ## Roles -/

/-- `get_role`. -/
def getRole (roleId : String) : Option RoleRow :=
  db.roles.find? fun role => role.tenantId = tenantId && role.roleId = roleId

/-- `get_role_permissions`. -/
def getRolePermissions (roleId : String) : List String :=
  (db.rolePermissions.filter fun row => row.tenantId = tenantId && row.roleId = roleId).map
    PermissionRow.permissionId

/-- The role that the loop goes on with: an inactive role and one that is not there end it. -/
def nextRole (roleId : String) : Option String :=
  match db.getRole tenantId roleId with
  | some role => if role.isActive then role.parentRoleId else none
  | none => none

/-- `resolve_role_hierarchy`. -/
def resolveRoleHierarchy (roleId : String) : Except RbacError (List String) :=
  (walk (db.nextRole tenantId) (db.maxRoleInheritanceDepth + 1) [] (some roleId)).mapError .hierarchy

/-- `resolve_permissions_for_roles`. -/
def resolvePermissionsForRoles (roleIds : List String) : Except RbacError (List String) := do
  let allRoles ← roleIds.mapM (db.resolveRoleHierarchy tenantId)
  return allRoles.flatten.flatMap (db.getRolePermissions tenantId)

/-! ## Grants -/

/-- `get_by_id` of the migrations, whatever their tenant. -/
def getMigration (migrationId : String) : Option MigrationRow :=
  (db.migrations.getD []).find? fun m => m.migrationId = migrationId

/-- `_is_scope_applicable`. -/
def isScopeApplicable (grantType : GrantResourceType) (grantId reqType reqId : String) : Bool :=
  if grantType = .system then true
  else if grantType = .organization then grantId = tenantId
  else if grantType.value = reqType then grantId = reqId
  else
    match grantType with
    | .workspace =>
      if reqType = GrantResourceType.project.value then
        (db.projects.getD []).any fun p =>
          p.tenantId = tenantId && p.workspaceId = grantId && p.projectId = reqId
      else if reqType = GrantResourceType.migration.value then
        (db.getMigration reqId).any fun m => m.tenantId = tenantId && m.workspaceId = grantId
      else false
    | .project =>
      if reqType = GrantResourceType.migration.value then
        (db.getMigration reqId).any fun m => m.tenantId = tenantId && m.projectId = some grantId
      else false
    | _ => false

/-- `list_active_grants_for_subjects`. -/
def listActiveGrantsForSubjects (principalId : String) (groupIds : List String) : List GrantRow :=
  db.roleGrants.filter fun g =>
    g.tenantId = tenantId && !g.isRevoked && g.isFor principalId groupIds

/-- `is_expired`, with the instant that a text stands for and the clock. -/
def isExpired (parseIso : String → Option ℤ) (now : ℤ) : Option String → Except RbacError Bool
  | none => .ok false
  | some text =>
    match parseIso text with
    | none => .error (.timestamp text)
    | some expiry => .ok (expiry ≤ now)

/-- A grant is passed over: it is revoked, or it has expired. -/
def passedOver (parseIso : String → Option ℤ) (now : ℤ) (g : GrantRow) : Except RbacError Bool :=
  if g.isRevoked then .ok true else isExpired parseIso now g.expiresAt

/-- The roles of the grants that apply; the clock is read for each grant that has an expiry. -/
def activeRoleIds (parseIso : String → Option ℤ) (now : String → ℤ) (reqType reqId : String) :
    List GrantRow → Except RbacError (List String)
  | [] => .ok []
  | g :: grants => do
      let passed ← passedOver parseIso (now g.grantId) g
      let roleIds ← activeRoleIds parseIso now reqType reqId grants
      return if !passed && db.isScopeApplicable tenantId g.resourceType g.resourceId reqType reqId
        then g.roleId :: roleIds else roleIds

/-- `get_effective_permissions`. -/
def getEffectivePermissions (parseIso : String → Option ℤ) (now : String → ℤ) (principalId : String)
    (groupIds : List String) (reqType reqId : String) : Except RbacError (List String) := do
  let roleIds ← db.activeRoleIds tenantId parseIso now reqType reqId
    (db.listActiveGrantsForSubjects tenantId principalId groupIds)
  db.resolvePermissionsForRoles tenantId roleIds

/-! ## Scopes -/

/-- The scope of a grant contains a resource: the system and the organization of the tenant contain all
of the tenant, a workspace its projects and migrations, and a project its migrations. -/
inductive Contains : GrantResourceType → String → String → String → Prop
  | system (grantId reqType reqId : String) : Contains .system grantId reqType reqId
  | organization (reqType reqId : String) : Contains .organization tenantId reqType reqId
  | self {type : GrantResourceType} (hsystem : type ≠ .system) (horganization : type ≠ .organization)
      (id : String) : Contains type id type.value id
  | workspaceProject {p : ProjectRow} (hp : p ∈ db.projects.getD []) (htenant : p.tenantId = tenantId) :
      Contains .workspace p.workspaceId "PROJECT" p.projectId
  | workspaceMigration {m : MigrationRow} {reqId : String} (hm : db.getMigration reqId = some m)
      (htenant : m.tenantId = tenantId) : Contains .workspace m.workspaceId "MIGRATION" reqId
  | projectMigration {m : MigrationRow} {reqId grantId : String} (hm : db.getMigration reqId = some m)
      (htenant : m.tenantId = tenantId) (hproject : m.projectId = some grantId) :
      Contains .project grantId "MIGRATION" reqId

/-- **Scopes.**  A grant is applicable precisely when its scope contains the resource. -/
theorem isScopeApplicable_iff (grantType : GrantResourceType) (grantId reqType reqId : String) :
    db.isScopeApplicable tenantId grantType grantId reqType reqId = true ↔
      db.Contains tenantId grantType grantId reqType reqId := by
  constructor
  · intro h
    unfold isScopeApplicable at h
    by_cases hsystem : grantType = .system
    · subst hsystem
      exact .system grantId reqType reqId
    rw [if_neg hsystem] at h
    by_cases horganization : grantType = .organization
    · subst horganization
      rw [if_pos rfl, decide_eq_true_eq] at h
      subst h
      exact .organization reqType reqId
    rw [if_neg horganization] at h
    by_cases hsame : grantType.value = reqType
    · subst hsame
      rw [if_pos rfl, decide_eq_true_eq] at h
      subst h
      exact .self hsystem horganization grantId
    rw [if_neg hsame] at h
    cases grantType with
    | workspace =>
      dsimp only at h
      split_ifs at h with hproject hmigration
      · obtain ⟨p, hp, hrow⟩ := List.any_eq_true.mp h
        simp only [Bool.and_eq_true, decide_eq_true_eq] at hrow
        obtain ⟨⟨htenant, rfl⟩, rfl⟩ := hrow
        subst hproject
        exact .workspaceProject hp htenant
      · obtain ⟨m, hm, hrow⟩ := (Option.any_eq_true _ _).mp h
        simp only [Bool.and_eq_true, decide_eq_true_eq] at hrow
        obtain ⟨htenant, rfl⟩ := hrow
        subst hmigration
        exact .workspaceMigration hm htenant
    | project =>
      dsimp only at h
      split_ifs at h with hmigration
      obtain ⟨m, hm, hrow⟩ := (Option.any_eq_true _ _).mp h
      simp only [Bool.and_eq_true, decide_eq_true_eq] at hrow
      subst hmigration
      exact .projectMigration hm hrow.1 hrow.2
    | _ => cases h
  · intro h
    cases h with
    | system => rfl
    | organization => simp [isScopeApplicable]
    | self hsystem horganization => simp [isScopeApplicable, hsystem, horganization]
    | workspaceProject hp htenant =>
      simp [isScopeApplicable, GrantResourceType.value]
      exact ⟨_, hp, ⟨htenant, rfl⟩, rfl⟩
    | workspaceMigration hm htenant =>
      simp [isScopeApplicable, GrantResourceType.value, hm, htenant]
    | projectMigration hm htenant hproject =>
      simp [isScopeApplicable, GrantResourceType.value, hm, htenant, hproject]

/-! ## Permissions of roles -/

theorem mem_getRolePermissions {roleId permission : String} :
    permission ∈ db.getRolePermissions tenantId roleId ↔
      ⟨tenantId, roleId, permission⟩ ∈ db.rolePermissions := by
  rw [getRolePermissions, List.mem_map]
  constructor
  · rintro ⟨row, hrow, rfl⟩
    simp only [List.mem_filter, Bool.and_eq_true, decide_eq_true_eq] at hrow
    obtain ⟨hrow, rfl, rfl⟩ := hrow
    exact hrow
  · intro h
    exact ⟨_, List.mem_filter.mpr ⟨h, by simp⟩, rfl⟩

/-- A role is visited from another: the chain of parents leads to it. -/
def Visits (roleId visited : String) : Prop := ∃ n, reach (db.nextRole tenantId) n roleId = some visited

theorem mem_resolveRoleHierarchy {roleId : String} {visited : List String}
    (h : db.resolveRoleHierarchy tenantId roleId = .ok visited) (r : String) :
    r ∈ visited ↔ db.Visits tenantId roleId r := by
  rw [resolveRoleHierarchy] at h
  cases hwalk : walk (db.nextRole tenantId) (db.maxRoleInheritanceDepth + 1) [] (some roleId) with
  | error e =>
    rw [hwalk] at h
    cases h
  | ok vs =>
    rw [hwalk] at h
    cases h
    rw [mem_walk_iff (db.nextRole tenantId) hwalk]
    simp [Visits]

/-- The permissions of roles are those of the roles in their hierarchies. -/
theorem mem_resolvePermissionsForRoles {roleIds permissions : List String}
    (h : db.resolvePermissionsForRoles tenantId roleIds = .ok permissions) (permission : String) :
    permission ∈ permissions ↔ ∃ r ∈ roleIds, ∃ s, db.Visits tenantId r s ∧
      ⟨tenantId, s, permission⟩ ∈ db.rolePermissions := by
  obtain ⟨allRoles, hroles, hpermissions⟩ := Traversal.bind_eq_ok_iff.mp h
  cases hpermissions
  rw [Traversal.mapM_eq_ok_iff] at hroles
  simp only [List.mem_flatMap, List.mem_flatten, mem_getRolePermissions]
  constructor
  · rintro ⟨s, ⟨visited, hvisited, hs⟩, hrow⟩
    obtain ⟨r, hr, hhierarchy⟩ := Traversal.exists_of_forall₂' hroles hvisited
    exact ⟨r, hr, s, (mem_resolveRoleHierarchy db tenantId hhierarchy s).mp hs, hrow⟩
  · rintro ⟨r, hr, s, hs, hrow⟩
    obtain ⟨visited, hvisited, hhierarchy⟩ := Traversal.exists_of_forall₂ hroles hr
    exact ⟨s, ⟨visited, hvisited, (mem_resolveRoleHierarchy db tenantId hhierarchy s).mpr hs⟩, hrow⟩

/-! ## Active roles -/

/-- A role is there and active. -/
def IsActive (roleId : String) : Prop :=
  ∃ role, db.getRole tenantId roleId = some role ∧ role.isActive = true

/-- A role inherits from another through a chain of active roles. -/
inductive Inherits : String → String → Prop
  | refl {roleId : String} (h : db.IsActive tenantId roleId) : Inherits roleId roleId
  | parent {roleId parentId ancestor : String} {role : RoleRow}
      (hrole : db.getRole tenantId roleId = some role) (hactive : role.isActive = true)
      (hparent : role.parentRoleId = some parentId) (h : Inherits parentId ancestor) :
      Inherits roleId ancestor

theorem nextRole_eq_some_iff {roleId parentId : String} :
    db.nextRole tenantId roleId = some parentId ↔ ∃ role, db.getRole tenantId roleId = some role ∧
      role.isActive = true ∧ role.parentRoleId = some parentId := by
  rw [nextRole]
  cases db.getRole tenantId roleId with
  | none => simp
  | some role => simp

theorem inherits_iff {roleId ancestor : String} : db.Inherits tenantId roleId ancestor ↔
    db.Visits tenantId roleId ancestor ∧ db.IsActive tenantId ancestor := by
  constructor
  · intro h
    induction h with
    | refl h => exact ⟨⟨0, rfl⟩, h⟩
    | parent hrole hactive hparent _ ih =>
      obtain ⟨⟨n, hn⟩, hancestor⟩ := ih
      refine ⟨⟨n + 1, ?_⟩, hancestor⟩
      rw [reach, (nextRole_eq_some_iff db tenantId).mpr ⟨_, hrole, hactive, hparent⟩]
      exact hn
  · rintro ⟨⟨n, hn⟩, hancestor⟩
    induction n generalizing roleId with
    | zero =>
      cases hn
      exact .refl hancestor
    | succ n ih =>
      obtain ⟨parentId, hnext, hrest⟩ := Option.bind_eq_some_iff.mp hn
      obtain ⟨role, hrole, hactive, hparent⟩ := (nextRole_eq_some_iff db tenantId).mp hnext
      exact .parent hrole hactive hparent (ih hrest)

/-! ## Effective permissions -/

section Effective

variable (parseIso : String → Option ℤ) (now : String → ℤ) (principalId : String)
  (groupIds : List String) (reqType reqId : String)

/-- A grant of the tenant applies: it is not revoked, it is for the principal or one of its groups, it is
not expired, and its scope contains the resource. -/
structure Applies (g : GrantRow) : Prop where
  mem : g ∈ db.roleGrants
  tenant : g.tenantId = tenantId
  revoked : g.isRevoked = false
  subject : g.isFor principalId groupIds = true
  unexpired : isExpired parseIso (now g.grantId) g.expiresAt = .ok false
  scope : db.Contains tenantId g.resourceType g.resourceId reqType reqId

/-- A grant that applies confers a permission: it is assigned to a role that the granted role inherits
from, or to that role itself. -/
def Confers (permission : String) : Prop :=
  ∃ g, db.Applies tenantId parseIso now principalId groupIds reqType reqId g ∧
    ∃ s, db.Inherits tenantId g.roleId s ∧ ⟨tenantId, s, permission⟩ ∈ db.rolePermissions

/-- The roles of the grants in a list that apply. -/
theorem mem_activeRoleIds {grants : List GrantRow} {roleIds : List String}
    (h : db.activeRoleIds tenantId parseIso now reqType reqId grants = .ok roleIds) (r : String) :
    r ∈ roleIds ↔ ∃ g ∈ grants, g.isRevoked = false ∧
      isExpired parseIso (now g.grantId) g.expiresAt = .ok false ∧
      db.Contains tenantId g.resourceType g.resourceId reqType reqId ∧ g.roleId = r := by
  induction grants generalizing roleIds with
  | nil =>
    cases h
    simp
  | cons g grants ih =>
    rw [activeRoleIds] at h
    obtain ⟨passed, hpassed, h⟩ := Traversal.bind_eq_ok_iff.mp h
    obtain ⟨rest, hrest, h⟩ := Traversal.bind_eq_ok_iff.mp h
    have hroleIds : roleIds = if !passed && db.isScopeApplicable tenantId g.resourceType
        g.resourceId reqType reqId then g.roleId :: rest else rest := (Except.ok.inj h).symm
    have hthis : (!passed && db.isScopeApplicable tenantId g.resourceType g.resourceId reqType
        reqId) = true ↔ g.isRevoked = false ∧
          isExpired parseIso (now g.grantId) g.expiresAt = .ok false ∧
          db.Contains tenantId g.resourceType g.resourceId reqType reqId := by
      rw [Bool.and_eq_true, isScopeApplicable_iff, Bool.not_eq_true', ← and_assoc]
      refine and_congr_left fun _ => ?_
      cases hrevoked : g.isRevoked with
      | true =>
        rw [passedOver, hrevoked, if_pos rfl] at hpassed
        cases hpassed
        simp
      | false =>
        rw [passedOver, hrevoked, if_neg Bool.false_ne_true] at hpassed
        simp [hpassed]
    rw [List.exists_mem_cons_iff, ← ih hrest, hroleIds]
    split_ifs with happlies
    · rw [List.mem_cons]
      obtain ⟨hrevoked, hunexpired, hscope⟩ := hthis.mp happlies
      simp [hrevoked, hunexpired, hscope, eq_comm]
    · constructor
      · exact .inr
      · rintro (⟨hrevoked, hunexpired, hscope, -⟩ | hmem)
        · exact absurd (hthis.mpr ⟨hrevoked, hunexpired, hscope⟩) happlies
        · exact hmem

/-- The roles that are resolved are those of the grants that apply. -/
theorem mem_roleIds_iff {roleIds : List String}
    (h : db.activeRoleIds tenantId parseIso now reqType reqId
      (db.listActiveGrantsForSubjects tenantId principalId groupIds) = .ok roleIds) (r : String) :
    r ∈ roleIds ↔
      ∃ g, db.Applies tenantId parseIso now principalId groupIds reqType reqId g ∧ g.roleId = r := by
  rw [mem_activeRoleIds db tenantId parseIso now reqType reqId h]
  constructor
  · rintro ⟨g, hg, -, hunexpired, hscope, rfl⟩
    simp only [listActiveGrantsForSubjects, List.mem_filter, Bool.and_eq_true, decide_eq_true_eq,
      Bool.not_eq_true'] at hg
    obtain ⟨hmem, ⟨htenant, hrevoked⟩, hsubject⟩ := hg
    exact ⟨g, ⟨hmem, htenant, hrevoked, hsubject, hunexpired, hscope⟩, rfl⟩
  · rintro ⟨g, happlies, rfl⟩
    refine ⟨g, ?_, happlies.revoked, happlies.unexpired, happlies.scope, rfl⟩
    simp [listActiveGrantsForSubjects, happlies.mem, happlies.tenant, happlies.revoked,
      happlies.subject]

/-- **Effective permissions.**  The permissions that are returned are those of the roles that are visited
from the role of a grant that applies, whether they are active or not. -/
theorem mem_getEffectivePermissions_iff {permissions : List String}
    (h : db.getEffectivePermissions tenantId parseIso now principalId groupIds reqType reqId =
      .ok permissions) (permission : String) :
    permission ∈ permissions ↔
      ∃ g, db.Applies tenantId parseIso now principalId groupIds reqType reqId g ∧
        ∃ s, db.Visits tenantId g.roleId s ∧ ⟨tenantId, s, permission⟩ ∈ db.rolePermissions := by
  obtain ⟨roleIds, hroleIds, hpermissions⟩ := Traversal.bind_eq_ok_iff.mp h
  have hmem := mem_roleIds_iff db tenantId parseIso now principalId groupIds reqType reqId hroleIds
  rw [mem_resolvePermissionsForRoles db tenantId hpermissions]
  constructor
  · rintro ⟨r, hr, hvisits⟩
    obtain ⟨g, happlies, rfl⟩ := (hmem r).mp hr
    exact ⟨g, happlies, hvisits⟩
  · rintro ⟨g, happlies, hvisits⟩
    exact ⟨g.roleId, (hmem g.roleId).mpr ⟨g, happlies, rfl⟩, hvisits⟩

/-- **Exactness.**  The permissions that are returned are those that the grants confer precisely when each
permission of a role that is visited and not active is conferred anyway. -/
theorem exact_iff {permissions : List String}
    (h : db.getEffectivePermissions tenantId parseIso now principalId groupIds reqType reqId =
      .ok permissions) :
    (∀ permission, permission ∈ permissions ↔
        db.Confers tenantId parseIso now principalId groupIds reqType reqId permission) ↔
      ∀ g, db.Applies tenantId parseIso now principalId groupIds reqType reqId g →
        ∀ s, db.Visits tenantId g.roleId s → ¬ db.IsActive tenantId s →
          ∀ permission, ⟨tenantId, s, permission⟩ ∈ db.rolePermissions →
            db.Confers tenantId parseIso now principalId groupIds reqType reqId permission := by
  have hmem := mem_getEffectivePermissions_iff db tenantId parseIso now principalId groupIds reqType
    reqId h
  constructor
  · intro hexact g happlies s hvisits _ permission hrow
    exact (hexact permission).mp ((hmem permission).mpr ⟨g, happlies, s, hvisits, hrow⟩)
  · intro hcovered permission
    rw [hmem]
    constructor
    · rintro ⟨g, happlies, s, hvisits, hrow⟩
      by_cases hactive : db.IsActive tenantId s
      · exact ⟨g, happlies, s, (inherits_iff db tenantId).mpr ⟨hvisits, hactive⟩, hrow⟩
      · exact hcovered g happlies s hvisits hactive permission hrow
    · rintro ⟨g, happlies, s, hinherits, hrow⟩
      exact ⟨g, happlies, s, ((inherits_iff db tenantId).mp hinherits).1, hrow⟩

/-- **Revocation.**  No permission is gained as time passes, as grants are revoked or deleted, and as
permissions are taken from roles. -/
theorem getEffectivePermissions_antitone (rows : List PermissionRow) (grants : List GrantRow)
    (later : String → ℤ) {permissions permissions' : List String} (hrows : rows ⊆ db.rolePermissions)
    (hgrants : ∀ g ∈ grants, g.isRevoked = false → g ∈ db.roleGrants) (hlater : ∀ id, now id ≤ later id)
    (h : db.getEffectivePermissions tenantId parseIso now principalId groupIds reqType reqId =
      .ok permissions)
    (h' : { db with rolePermissions := rows, roleGrants := grants }.getEffectivePermissions tenantId
      parseIso later principalId groupIds reqType reqId = .ok permissions') :
    permissions' ⊆ permissions := by
  intro permission hpermission
  rw [mem_getEffectivePermissions_iff _ tenantId _ _ _ _ _ _ h'] at hpermission
  rw [mem_getEffectivePermissions_iff db tenantId _ _ _ _ _ _ h]
  obtain ⟨g, happlies, s, hvisits, hrow⟩ := hpermission
  refine ⟨g, ⟨hgrants g happlies.mem happlies.revoked, happlies.tenant, happlies.revoked,
    happlies.subject, ?_, ?_⟩, s, hvisits, hrows hrow⟩
  · have hlate := happlies.unexpired
    unfold isExpired at hlate ⊢
    split at hlate
    · rfl
    · split at hlate
      · cases hlate
      · simp only [Except.ok.injEq, decide_eq_false_iff_not, not_le] at hlate ⊢
        exact (hlater _).trans_lt hlate
  · have hscope := (isScopeApplicable_iff _ tenantId _ _ _ _).mpr happlies.scope
    exact (isScopeApplicable_iff db tenantId _ _ _ _).mp hscope

end Effective

/-! ## Other tenants -/

/-- The tables without the rows of other tenants; of their migrations, which are found by the id alone, the
scope is removed. -/
def ofTenant : Authority where
  roles := db.roles.filter (·.tenantId = tenantId)
  rolePermissions := db.rolePermissions.filter (·.tenantId = tenantId)
  roleGrants := db.roleGrants.filter (·.tenantId = tenantId)
  projects := db.projects.map (List.filter (·.tenantId = tenantId))
  migrations := db.migrations.map (List.map fun m =>
    if m.tenantId = tenantId then m else ⟨m.migrationId, m.tenantId, "", none⟩)
  maxRoleInheritanceDepth := db.maxRoleInheritanceDepth

theorem roles_ofTenant : (db.ofTenant tenantId).getRole tenantId = db.getRole tenantId ∧
    (db.ofTenant tenantId).getRolePermissions tenantId = db.getRolePermissions tenantId := by
  constructor <;> funext roleId
  · simp [getRole, ofTenant, List.find?_filter]
  · simp [getRolePermissions, ofTenant, List.filter_filter, Bool.and_comm]

theorem any_getMigration_ofTenant (migrationId : String) (p : MigrationRow → Bool) :
    (((db.ofTenant tenantId).getMigration migrationId).any fun m => m.tenantId = tenantId && p m) =
      (db.getMigration migrationId).any fun m => m.tenantId = tenantId && p m := by
  unfold getMigration ofTenant
  cases db.migrations with
  | none => rfl
  | some ms =>
    have hid : ∀ m : MigrationRow, (if m.tenantId = tenantId then m else
        ⟨m.migrationId, m.tenantId, "", none⟩).migrationId = m.migrationId := fun m => by split_ifs <;> rfl
    simp only [Option.map_some, Option.getD_some, List.find?_map, Function.comp_def, hid, Option.any_map]
    congr 1
    funext m
    split_ifs with htenant
    · rfl
    · simp [htenant]

theorem isScopeApplicable_ofTenant :
    (db.ofTenant tenantId).isScopeApplicable tenantId = db.isScopeApplicable tenantId := by
  funext grantType grantId reqType reqId
  have hprojects : ((db.ofTenant tenantId).projects.getD []).any (fun p =>
        p.tenantId = tenantId && p.workspaceId = grantId && p.projectId = reqId) =
      (db.projects.getD []).any fun p =>
        p.tenantId = tenantId && p.workspaceId = grantId && p.projectId = reqId := by
    cases hps : db.projects <;> simp [ofTenant, hps, List.any_filter, ← Bool.and_assoc]
  unfold isScopeApplicable
  rw [hprojects, any_getMigration_ofTenant, any_getMigration_ofTenant]

theorem activeRoleIds_ofTenant (parseIso : String → Option ℤ) (now : String → ℤ) (reqType reqId : String)
    (grants : List GrantRow) :
    (db.ofTenant tenantId).activeRoleIds tenantId parseIso now reqType reqId grants =
      db.activeRoleIds tenantId parseIso now reqType reqId grants := by
  induction grants with
  | nil => rfl
  | cons g grants ih => rw [activeRoleIds, activeRoleIds, ih, isScopeApplicable_ofTenant]

/-- **Other tenants.**  What they have in the tables does not change the permissions. -/
theorem getEffectivePermissions_ofTenant (parseIso : String → Option ℤ) (now : String → ℤ)
    (principalId : String) (groupIds : List String) (reqType reqId : String) :
    (db.ofTenant tenantId).getEffectivePermissions tenantId parseIso now principalId groupIds reqType reqId =
      db.getEffectivePermissions tenantId parseIso now principalId groupIds reqType reqId := by
  obtain ⟨hroles, hpermissions⟩ := db.roles_ofTenant tenantId
  have hgrants : (db.ofTenant tenantId).listActiveGrantsForSubjects tenantId principalId groupIds =
      db.listActiveGrantsForSubjects tenantId principalId groupIds := by
    simp [listActiveGrantsForSubjects, ofTenant, List.filter_filter, Bool.and_assoc, Bool.and_comm,
      Bool.and_left_comm]
  unfold getEffectivePermissions resolvePermissionsForRoles resolveRoleHierarchy nextRole
  rw [hgrants, hroles, hpermissions, activeRoleIds_ofTenant]
  rfl

end Resolution

/-! ## An inactive role -/

/-- A tenant with one role, granted to the principal `p` on the system, and the permission it has. -/
def sampleAuthority (isActive : Bool) : Authority where
  roles := [⟨"t", "admin", isActive, none⟩]
  rolePermissions := [⟨"t", "admin", "migration.delete"⟩]
  roleGrants := [⟨"g", "t", .principal, "p", "admin", .system, "root", none, false⟩]

/-- With the role active, the permission is returned and conferred. -/
theorem exact_sample : (∀ permission, permission ∈ ["migration.delete"] ↔
        (sampleAuthority true).Confers "t" (fun _ => none) (fun _ => 0) "p" [] "MIGRATION" "m"
          permission) ↔
      ∀ g, (sampleAuthority true).Applies "t" (fun _ => none) (fun _ => 0) "p" [] "MIGRATION" "m" g →
        ∀ s, (sampleAuthority true).Visits "t" g.roleId s → ¬ (sampleAuthority true).IsActive "t" s →
          ∀ permission, ⟨"t", s, permission⟩ ∈ (sampleAuthority true).rolePermissions →
            (sampleAuthority true).Confers "t" (fun _ => none) (fun _ => 0) "p" [] "MIGRATION" "m"
              permission :=
  exact_iff (sampleAuthority true) "t" (fun _ => none) (fun _ => 0) "p" [] "MIGRATION" "m" rfl

/-- Without the grant, it is not returned any more. -/
theorem antitone_sample : ([] : List String) ⊆ ["migration.delete"] :=
  getEffectivePermissions_antitone (sampleAuthority true) "t" (fun _ => none) (fun _ => 0) "p" []
    "MIGRATION" "m" [] [] (fun _ => 1) (List.nil_subset _) (fun _ h _ => by cases h)
    (fun _ => by decide) rfl rfl

/-- A role that is not active gives its permission nevertheless. -/
theorem not_exact_of_inactive :
    ¬ ∀ (db : Authority) (tenantId : String) (parseIso : String → Option ℤ) (now : String → ℤ)
      (principalId : String) (groupIds : List String) (reqType reqId : String)
      (permissions : List String),
      db.getEffectivePermissions tenantId parseIso now principalId groupIds reqType reqId =
          .ok permissions →
        ∀ permission, permission ∈ permissions ↔
          db.Confers tenantId parseIso now principalId groupIds reqType reqId permission := by
  intro h
  have hiff := h (sampleAuthority false) "t" (fun _ => none) (fun _ => 0) "p" [] "MIGRATION" "m"
    ["migration.delete"] rfl "migration.delete"
  obtain ⟨g, -, s, hinherits, hrow⟩ := hiff.mp List.mem_cons_self
  obtain ⟨-, role, hrole, hactive⟩ := (inherits_iff (sampleAuthority false) "t").mp hinherits
  obtain rfl : s = "admin" := by simpa [sampleAuthority] using hrow
  cases hrole
  cases hactive

end Authority

end Rbac
