import Manejaplus.Requests

/-! # Roles, permissions and the table between them

The statements of `AuthRepositoryImpl`, and the two methods of `AuthService`
that write through it.
-/
namespace Manejaplus
open Effect
set_option autoImplicit false

structure PermissionRow where
  id : String
  name : String
  description : String
  status : Bool
  deriving DecidableEq, Repr

structure PermissionModel where
  name : Js String := .undefined
  description : Js String := .undefined
  deriving DecidableEq, Repr

structure RoleModel where
  name : Js String := .undefined
  description : Js String := .undefined
  permissionsId : Js (List String) := .undefined
  permissions : Js (List PermissionRow) := .undefined
  deriving DecidableEq, Repr

/-- A role object after its save: the model's keys, and the columns that were generated. -/
structure RoleEntity extends RoleModel where
  id : String
  status : Bool
  deriving DecidableEq, Repr

/-- A save gets what `mapClass` makes of a model: there is no id, so it is an insert. -/
inductive AuthRepositoryOp where
  | savePermission (permissionEntity : PermissionModel)
  | saveRole (roleEntity : RoleModel)
  | findPermissionsByIds (ids : List String)
  deriving DecidableEq

abbrev AuthRepositoryOp.Res : AuthRepositoryOp → Type
  | .savePermission _ => PermissionRow
  | .saveRole _ => RoleEntity
  | .findPermissionsByIds _ => List PermissionRow

abbrev authRepository : Signature where
  Op := AuthRepositoryOp
  Res := AuthRepositoryOp.Res

abbrev AuthAsync (α : Type) := Prog authRepository Exception α

namespace AuthRepositoryImpl

def createPermission (permissionEntity : PermissionModel) : AuthAsync PermissionRow :=
  Prog.perform (S := authRepository) (.savePermission permissionEntity)

def createRole (roleEntity : RoleModel) : AuthAsync RoleEntity :=
  Prog.perform (S := authRepository) (.saveRole roleEntity)

def findPermissionsByIds (ids : List String) : AuthAsync (List PermissionRow) :=
  Prog.perform (S := authRepository) (.findPermissionsByIds ids)

end AuthRepositoryImpl

namespace RoleModel

/-- `SqlGlobalMapper.mapClass(source, { get })` -/
def mapClass (source : RoleModel) (get : Option (List String) := none) : RoleModel :=
  let keeps (key : String) : Bool := get.all (·.contains key)
  { name := if keeps "name" then source.name else .undefined
    description := if keeps "description" then source.description else .undefined
    permissionsId := if keeps "permissionsId" then source.permissionsId else .undefined
    permissions := if keeps "permissions" then source.permissions else .undefined }

@[simp] theorem mapClass_default (source : RoleModel) : source.mapClass = source := rfl

end RoleModel

namespace AuthService

/-- Neither `mapClass` drops a key, so the answer is the whole row, whatever its type says. -/
def createPermission (permissionModel : PermissionModel) : AuthAsync PermissionRow := do
  let createdPermission ← AuthRepositoryImpl.createPermission permissionModel
  return createdPermission

def validatePermissions (permissions : List PermissionRow) (permissionsId : List String) :
    AuthAsync Unit :=
  if permissions.length ≠ permissionsId.length then
    Prog.throw (.error "At least one permission is not allowed")
  else return ()

def createRole (roleModel : RoleModel) : AuthAsync RoleModel :=
  match roleModel.permissionsId with
  | .val permissionsId => do
    let permissions ← AuthRepositoryImpl.findPermissionsByIds permissionsId
    validatePermissions permissions permissionsId
    let roleModel := { roleModel with permissions := .val permissions }
    let created ← AuthRepositoryImpl.createRole roleModel.mapClass
    return created.toRoleModel.mapClass (some ["name", "description"])
  -- neither `In` nor the comparison of lengths can read a list that is not there
  | _ => Prog.throw .typeError

end AuthService

/-- Rows under a primary key and a unique name. -/
structure NamedTable {α : Type} (id name : α → String) where
  rows : List α
  nodupId : (rows.map id).Nodup
  nodupName : (rows.map name).Nodup

namespace NamedTable
variable {α : Type} {id name : α → String}

def insert (t : NamedTable id name) (row : α) : Option (NamedTable id name) :=
  if h : ((t.rows ++ [row]).map id).Nodup ∧ ((t.rows ++ [row]).map name).Nodup then
    some ⟨t.rows ++ [row], h.1, h.2⟩
  else none

theorem insert_rows {t t' : NamedTable id name} {row : α} (h : t.insert row = some t') :
    t'.rows = t.rows ++ [row] := by
  unfold insert at h
  split at h <;> cases h
  rfl

/-- `findBy({ id: In(ids), status: true })`; `none` when an id cannot be read as a uuid. -/
def findByIds (status : α → Bool) (uuid : String → Option String) (t : NamedTable id name)
    (ids : List String) : Option (List α) :=
  (ids.mapM uuid).map fun read => t.rows.filter fun row => read.contains (id row) && status row

end NamedTable

abbrev RoleTable := NamedTable RoleRow.id RoleRow.name

abbrev PermissionTable := NamedTable PermissionRow.id PermissionRow.name

/-- `granted` is `mps_role_permissions`: a role's id and a permission's id. -/
structure AccessTables where
  roles : RoleTable
  permissions : PermissionTable
  granted : List (String × String)
  nodupGranted : granted.Nodup
  roleOf : ∀ g ∈ granted, g.1 ∈ roles.rows.map RoleRow.id
  permissionOf : ∀ g ∈ granted, g.2 ∈ permissions.rows.map PermissionRow.id

namespace AccessTables

def permissionsOf (t : AccessTables) (roleId : String) : List String :=
  (t.granted.filter fun g => g.1 == roleId).map Prod.snd

def newRole (id : String) (roleEntity : RoleModel) : Option RoleRow := do
  let name ← roleEntity.name.required
  let description ← roleEntity.description.required
  some { id, name, description, status := true }

def newPermission (id : String) (permissionEntity : PermissionModel) : Option PermissionRow := do
  let name ← permissionEntity.name.required
  let description ← permissionEntity.description.required
  some { id, name, description, status := true }

def savePermission (t : AccessTables) (fresh : String) (permissionEntity : PermissionModel) :
    Option (PermissionRow × AccessTables) := do
  let row ← newPermission fresh permissionEntity
  match h : t.permissions.insert row with
  | none => none
  | some permissions => some (row, { t with
      permissions
      permissionOf := fun g hg => by
        rw [NamedTable.insert_rows h, List.map_append]
        exact List.mem_append_left _ (t.permissionOf g hg) })

/-- The row and its entries in the join table, all together or not at all. -/
def saveRole (t : AccessTables) (fresh : String) (roleEntity : RoleModel) :
    Option (RoleEntity × AccessTables) := do
  let row ← newRole fresh roleEntity
  let ids := match roleEntity.permissions with
    | .val permissions => permissions.map PermissionRow.id
    | _ => []
  match h : t.roles.insert row with
  | none => none
  | some roles =>
    if hIds : (t.granted ++ ids.map (row.id, ·)).Nodup ∧
        ∀ id ∈ ids, id ∈ t.permissions.rows.map PermissionRow.id then
      some ({ roleEntity with id := row.id, status := row.status }, { t with
        roles
        granted := t.granted ++ ids.map (row.id, ·)
        nodupGranted := hIds.1
        roleOf := fun g hg => by
          rw [NamedTable.insert_rows h, List.map_append]
          obtain hOld | hNew := List.mem_append.mp hg
          · exact List.mem_append_left _ (t.roleOf g hOld)
          · obtain ⟨id, _, rfl⟩ := List.mem_map.mp hNew
            exact List.mem_append_right _ List.mem_cons_self
        permissionOf := fun g hg => by
          obtain hOld | hNew := List.mem_append.mp hg
          · exact t.permissionOf g hOld
          · obtain ⟨id, hId, rfl⟩ := List.mem_map.mp hNew
            exact hIds.2 id hId })
    else none

end AccessTables

structure AccessWorld where
  tables : AccessTables
  tape : Nat → Choice

namespace AccessWorld

def tick (w : AccessWorld) : AccessWorld := { w with tape := fun n => w.tape (n + 1) }

/-- The answer and the tables a statement leaves, if it does not fail. -/
def exec (env : Env) (w : AccessWorld) : (o : AuthRepositoryOp) → Option (o.Res × AccessTables)
  | .savePermission permissionEntity =>
    w.tables.savePermission (w.tape 0).uuid permissionEntity
  | .saveRole roleEntity => w.tables.saveRole (w.tape 0).uuid roleEntity
  | .findPermissionsByIds ids =>
    (w.tables.permissions.findByIds PermissionRow.status env.uuid ids).map fun permissions => (permissions, w.tables)

end AccessWorld

def access (env : Env) : Handler authRepository Exception AccessWorld
  | o, w =>
    if (w.tape 0).fault then (.error .external, w.tick)
    else match w.exec env o with
      | some (answer, tables) => (.ok answer, { w.tick with tables })
      | none => (.error .external, w.tick)

end Manejaplus
