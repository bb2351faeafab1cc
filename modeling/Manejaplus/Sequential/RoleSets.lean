import Mathlib.Data.List.Perm.Basic
import Manejaplus.Authentication.Roles
import Manejaplus.Sequential.AccountTokens

/-! # Which roles and permissions a list of ids assigns

The services compare two lengths. That is enough, because ids are unique: as
many rows as ids listed are a row for each of them.
-/
namespace Manejaplus
open Effect Prog
set_option autoImplicit false

section Counting

variable {α β : Type}

theorem mapM_cons {f : α → Option β} {a : α} {as : List α} {bs : List β} :
    (a :: as).mapM f = some bs ↔ ∃ b bs', f a = some b ∧ as.mapM f = some bs' ∧ bs = b :: bs' := by
  simp only [List.mapM_cons, Option.bind_eq_bind, Option.bind_eq_some_iff, Option.pure_def,
    Option.some.injEq]
  constructor
  · rintro ⟨b, hb, bs', hbs, rfl⟩
    exact ⟨b, bs', hb, hbs, rfl⟩
  · rintro ⟨b, bs', hb, hbs, rfl⟩
    exact ⟨b, hb, bs', hbs, rfl⟩

theorem mem_mapM {f : α → Option β} {as : List α} {bs : List β} (h : as.mapM f = some bs) :
    bs.length = as.length ∧ (∀ a ∈ as, ∃ b ∈ bs, f a = some b) ∧
      ∀ b ∈ bs, ∃ a ∈ as, f a = some b := by
  induction as generalizing bs with
  | nil =>
    cases h
    simp
  | cons a as ih =>
    obtain ⟨b, bs', hb, hbs, rfl⟩ := mapM_cons.mp h
    obtain ⟨hLength, hTo, hFrom⟩ := ih hbs
    refine ⟨congrArg Nat.succ hLength, fun a' ha' => ?_, fun b' hb' => ?_⟩
    · obtain rfl | ha' := List.mem_cons.mp ha'
      · exact ⟨b, List.mem_cons_self, hb⟩
      · obtain ⟨b', hb', hEq⟩ := hTo a' ha'
        exact ⟨b', List.mem_cons_of_mem _ hb', hEq⟩
    · obtain rfl | hb' := List.mem_cons.mp hb'
      · exact ⟨a, List.mem_cons_self, hb⟩
      · obtain ⟨a', ha', hEq⟩ := hFrom b' hb'
        exact ⟨a', List.mem_cons_of_mem _ ha', hEq⟩

/-- Each listed id names an active row, and the chosen ids are the listed ones. -/
structure Listed {α : Type} (uuid : String → Option String) (id : α → String) (status : α → Bool)
    (rows : List α) (ids chosen : List String) : Prop where
  named : ∀ s ∈ ids, ∃ row ∈ rows, uuid s = some (id row) ∧ status row = true
  exact : ∀ k, k ∈ chosen ↔ ∃ s ∈ ids, uuid s = some k

variable {id name : α → String} {t : NamedTable id name} {status : α → Bool}
  {uuid : String → Option String} {ids : List String} {found : List α}

theorem NamedTable.mem_findByIds (h : t.findByIds status uuid ids = some found) {row : α}
    (hRow : row ∈ found) : row ∈ t.rows ∧ status row = true := by
  obtain ⟨read, _, rfl⟩ := Option.map_eq_some_iff.mp h
  obtain ⟨hMem, hTest⟩ := List.mem_filter.mp hRow
  exact ⟨hMem, (Bool.and_eq_true _ _ ▸ hTest).2⟩

theorem NamedTable.nodup_findByIds (h : t.findByIds status uuid ids = some found) :
    (found.map id).Nodup := by
  obtain ⟨read, _, rfl⟩ := Option.map_eq_some_iff.mp h
  exact t.nodupId.sublist (List.filter_sublist.map id)

/-- No id counts twice and none is counted that was not listed, so equal lengths leave none out. -/
theorem NamedTable.perm_findByIds (h : t.findByIds status uuid ids = some found)
    (hLength : found.length = ids.length) :
    ∃ read, ids.mapM uuid = some read ∧ (found.map id).Perm read := by
  have hNodup := nodup_findByIds h
  obtain ⟨read, hRead, hFound⟩ := Option.map_eq_some_iff.mp h
  refine ⟨read, hRead, ?_⟩
  have hSubset : found.map id ⊆ read := by
    intro k hk
    obtain ⟨row, hRow, rfl⟩ := List.mem_map.mp hk
    rw [← hFound] at hRow
    have hTest := (List.mem_filter.mp hRow).2
    simp only [Bool.and_eq_true, List.contains_iff_mem] at hTest
    exact hTest.1
  exact (List.subperm_of_subset hNodup hSubset).perm_of_length_le
    (Nat.le_of_eq (by rw [List.length_map, hLength, (mem_mapM hRead).1]))

theorem NamedTable.listed (h : t.findByIds status uuid ids = some found)
    (hLength : found.length = ids.length) :
    Listed uuid id status t.rows ids (found.map id) := by
  obtain ⟨read, hRead, hPerm⟩ := perm_findByIds h hLength
  obtain ⟨_, hTo, hFrom⟩ := mem_mapM hRead
  constructor
  · intro s hs
    obtain ⟨k, hk, hUuid⟩ := hTo s hs
    obtain ⟨row, hRow, rfl⟩ := List.mem_map.mp (hPerm.mem_iff.mpr hk)
    obtain ⟨hMem, hStatus⟩ := mem_findByIds h hRow
    exact ⟨row, hMem, hUuid, hStatus⟩
  · intro k
    rw [hPerm.mem_iff]
    constructor
    · exact hFrom k
    · rintro ⟨s, hs, hUuid⟩
      obtain ⟨k', hk', hUuid'⟩ := hTo s hs
      cases hUuid.symm.trans hUuid'
      exact hk'

end Counting

/-- A call that throws leaves everything as it was. -/
def AllOrNothing {σ α : Type} (answer : Except Exception α × σ) (before : σ) (done : σ → Prop) :
    Prop :=
  match answer.1 with
  | .ok _ => done answer.2
  | .error _ => answer.2 = before

section Assigning

variable {env : Env} {assignRoleModel : AssignRoleModel}

/-- The world with the roles of this table, which keeps its ids unique. -/
def World.withRoles (w : World) (roles : RoleTable) : World :=
  { w with db := { w.db with roles := roles.rows } }

/-- The roles of one user are the listed ones, and nothing else is new. -/
def RolesAssigned (env : Env) (assignRoleModel : AssignRoleModel) (db db' : Database) : Prop :=
  ∃ row updatedAt users chosen,
    row ∈ db.users.rows ∧ env.uuid assignRoleModel.userId = some row.id ∧
    Listed env.uuid RoleRow.id RoleRow.status db.roles assignRoleModel.rolesId chosen ∧
    users.rows = UserTable.replace { row with roles := chosen, updatedAt } db.users.rows ∧
    db' = { db with users }

theorem assignRole_sets (w : World) (roles : RoleTable) :
    let answer := run (alone env) (AuthService.assignRole assignRoleModel) (w.withRoles roles)
    AllOrNothing (answer.1, answer.2.db) (w.withRoles roles).db
      (RolesAssigned env assignRoleModel (w.withRoles roles).db) := by
  intro answer
  have hRun : run (alone env) (AuthService.assignRole assignRoleModel) (w.withRoles roles) =
    (answer.1, answer.2) := rfl
  have hEnds := assignRole_cases hRun
  change AllOrNothing (answer.1, answer.2.state.db) _ _
  generalize answer.1 = r, answer.2.state = s at hEnds
  cases hEnds with
  | refused => rfl
  | assigned hUser hRoles hLength hUsers =>
    rename_i row found users user
    obtain ⟨hUuid, hRow⟩ := findOne_id hUser
    obtain ⟨now, hRows⟩ := hUsers
    obtain ⟨updatedAt, hTouch⟩ :=
      UserTable.touch_eq now row { row with roles := found.map (·.id) }
    rw [hTouch] at hRows
    have hFound : roles.findByIds RoleRow.status env.uuid assignRoleModel.rolesId = some found :=
      hRoles
    exact ⟨row, updatedAt, users, found.map RoleRow.id, (UserTable.byId_eq_some.mp hRow).1, hUuid,
      NamedTable.listed hFound hLength, hRows, rfl⟩

end Assigning

section Creating

variable {env : Env} {w w' : AccessWorld}

theorem access_cases {o : AuthRepositoryOp} {r : Except Exception o.Res}
    (hRun : run (access env) (perform (S := authRepository) o) w = (r, w')) :
    (w'.tables = w.tables ∧ ∃ e, r = .error e) ∨
    ∃ a, r = .ok a ∧ w.exec env o = some (a, w'.tables) := by
  rw [run_perform, access] at hRun
  split at hRun
  · cases hRun
    exact .inl ⟨rfl, _, rfl⟩
  · cases hExec : w.exec env o <;> rw [hExec] at hRun <;> cases hRun
    · exact .inl ⟨rfl, _, rfl⟩
    · exact .inr ⟨_, rfl, rfl⟩

/-- What an insert of a role leaves. -/
structure AccessTables.Inserted (t t' : AccessTables) (role : RoleRow) (ids : List String) : Prop where
  roles : t'.roles.rows = t.roles.rows ++ [role]
  permissions : t'.permissions = t.permissions
  granted : t'.granted = t.granted ++ ids.map (role.id, ·)

variable {t t' : AccessTables} {role : RoleRow} {ids : List String}

theorem saveRole_eq_some {fresh : String} {roleModel : RoleModel} {saved : RoleEntity}
    {permissions : List PermissionRow} (hPermissions : roleModel.permissions = .val permissions)
    (h : t.saveRole fresh roleModel = some (saved, t')) :
    ∃ role, roleModel.name = .val role.name ∧ roleModel.description = .val role.description ∧
      role.status = true ∧ t.Inserted t' role (permissions.map PermissionRow.id) := by
  simp only [AccessTables.saveRole, hPermissions, Option.bind_eq_bind, Option.bind_eq_some_iff] at h
  obtain ⟨role, hRole, h⟩ := h
  simp only [AccessTables.newRole, Option.bind_eq_bind, Option.bind_eq_some_iff] at hRole
  obtain ⟨name, hName, description, hDescription, hNew⟩ := hRole
  cases hNew
  split at h
  · cases h
  · rename_i roles hRoles
    split at h <;> cases h
    refine ⟨_, ?_, ?_, rfl, NamedTable.insert_rows hRoles, rfl, rfl⟩
    · cases hModel : roleModel.name <;> rw [hModel] at hName <;> cases hName
      rfl
    · cases hModel : roleModel.description <;> rw [hModel] at hDescription <;> cases hDescription
      rfl

theorem AccessTables.Inserted.fresh (h : t.Inserted t' role ids) :
    ∀ other ∈ t.roles.rows, other.id ≠ role.id := by
  intro other hOther hSame
  have hNodup := t'.roles.nodupId
  rw [h.roles, List.map_append, List.nodup_append] at hNodup
  exact hNodup.2.2 _ (List.mem_map_of_mem hOther) _ List.mem_cons_self hSame

theorem AccessTables.Inserted.permissionsOf (h : t.Inserted t' role ids) :
    t'.permissionsOf role.id = ids := by
  have hOld : t.granted.filter (fun g => g.1 == role.id) = [] := by
    apply List.filter_eq_nil_iff.mpr
    intro g hg hSame
    obtain ⟨other, hOther, hId⟩ := List.mem_map.mp (t.roleOf g hg)
    exact h.fresh other hOther (hId.trans (beq_iff_eq.mp hSame))
  have hNew : (ids.map (role.id, ·)).filter (fun g => g.1 == role.id) = ids.map (role.id, ·) :=
    List.filter_eq_self.mpr fun g hg => by
      obtain ⟨id, _, rfl⟩ := List.mem_map.mp hg
      exact beq_self_eq_true _
  rw [AccessTables.permissionsOf, h.granted, List.filter_append, hOld, hNew, List.nil_append,
    List.map_map]
  exact List.map_id ids

theorem AccessTables.Inserted.permissionsOf_other (h : t.Inserted t' role ids) {other : RoleRow}
    (hOther : other ∈ t.roles.rows) : t'.permissionsOf other.id = t.permissionsOf other.id := by
  have hNew : (ids.map (role.id, ·)).filter (fun g => g.1 == other.id) = [] := by
    apply List.filter_eq_nil_iff.mpr
    intro g hg hSame
    obtain ⟨id, _, rfl⟩ := List.mem_map.mp hg
    exact h.fresh other hOther (beq_iff_eq.mp hSame).symm
  rw [AccessTables.permissionsOf, h.granted, List.filter_append, hNew, List.append_nil]
  rfl

/-- One role more, which has the listed permissions, and nothing else is new. -/
def RoleAdded (env : Env) (roleModel : RoleModel) (t t' : AccessTables) : Prop :=
  ∃ ids role,
    roleModel.permissionsId = .val ids ∧ roleModel.name = .val role.name ∧
    roleModel.description = .val role.description ∧ role.status = true ∧
    t'.roles.rows = t.roles.rows ++ [role] ∧ t'.permissions = t.permissions ∧
    Listed env.uuid PermissionRow.id PermissionRow.status t.permissions.rows ids
      (t'.permissionsOf role.id) ∧
    ∀ other ∈ t.roles.rows, t'.permissionsOf other.id = t.permissionsOf other.id

theorem createRole_adds (roleModel : RoleModel) :
    let answer := run (access env) (AuthService.createRole roleModel) w
    AllOrNothing (answer.1, answer.2.tables) w.tables (RoleAdded env roleModel w.tables) := by
  intro answer
  rcases hRun : answer with ⟨r, w'⟩
  cases hIds : roleModel.permissionsId with
  | undefined =>
    simp only [answer, AuthService.createRole, hIds] at hRun
    cases hRun
    rfl
  | null =>
    simp only [answer, AuthService.createRole, hIds] at hRun
    cases hRun
    rfl
  | val ids =>
    simp only [answer, AuthService.createRole, hIds] at hRun
    obtain ⟨e, rfl, hFind⟩ | ⟨found, w₁, hFind, hRun₁⟩ := run_bind_cases _ hRun <;>
      obtain ⟨hTables₁, e', hError⟩ | ⟨_, hOk, hFound⟩ := access_cases hFind
    · exact hTables₁
    · cases hOk
    · cases hError
    cases hOk
    obtain ⟨active, hActive, hPair⟩ := Option.map_eq_some_iff.mp hFound
    obtain ⟨rfl, hTables₁⟩ := Prod.mk.inj hPair
    obtain ⟨e, rfl, hValid⟩ | ⟨_, w₂, hValid, hRun₂⟩ := run_bind_cases _ hRun₁ <;>
      rw [AuthService.validatePermissions] at hValid <;> split at hValid <;> cases hValid
    · exact hTables₁.symm
    rename_i hLength
    obtain ⟨e, rfl, hSave⟩ | ⟨saved, w₃, hSave, hEnd⟩ := run_bind_cases _ hRun₂ <;>
      obtain ⟨hTables₃, e', hError⟩ | ⟨_, hOk, hSaved⟩ := access_cases hSave
    · exact hTables₃.trans hTables₁.symm
    · cases hOk
    · cases hError
    · cases hOk
      cases hEnd
      rw [AccessWorld.exec, ← hTables₁] at hSaved
      obtain ⟨role, hName, hDescription, hStatus, hInserted⟩ := saveRole_eq_some (by rfl) hSaved
      refine ⟨ids, role, hIds, hName, hDescription, hStatus, hInserted.roles, hInserted.permissions,
        ?_, fun other => hInserted.permissionsOf_other⟩
      rw [hInserted.permissionsOf]
      exact NamedTable.listed hActive (not_not.mp hLength)

end Creating

/-- Whoever gets roles or permissions gets just those listed, all of them there and active. -/
theorem listed_assigned (env : Env) :
    (∀ assignRoleModel (w : World) (roles : RoleTable),
      let answer := run (alone env) (AuthService.assignRole assignRoleModel) (w.withRoles roles)
      AllOrNothing (answer.1, answer.2.db) (w.withRoles roles).db
        (RolesAssigned env assignRoleModel (w.withRoles roles).db)) ∧
    ∀ roleModel (w : AccessWorld),
      let answer := run (access env) (AuthService.createRole roleModel) w
      AllOrNothing (answer.1, answer.2.tables) w.tables (RoleAdded env roleModel w.tables) :=
  ⟨fun _ => assignRole_sets, fun roleModel _ => createRole_adds roleModel⟩

namespace Sample

/-- One permission and no roles. -/
def accessWorld : AccessWorld where
  tables := {
    roles := ⟨[], by simp, by simp⟩
    permissions := ⟨[⟨"p", "READ", "to read", true⟩], by simp, by simp⟩
    granted := []
    nodupGranted := by simp
    roleOf := by simp
    permissionOf := by simp }
  tape _ := { uuid := "r" }

def reader (permissionsId : List String) : RoleModel where
  name := .val "READER"
  description := .val "reads"
  permissionsId := .val permissionsId

end Sample

example : (run (access (Sample.env [])) (AuthService.createRole (Sample.reader ["p"]))
    Sample.accessWorld).2.tables.granted = [("r", "p")] := by decide

example : (run (access (Sample.env [])) (AuthService.createRole (Sample.reader ["p", "p"]))
    Sample.accessWorld).1 = .error (.error "At least one permission is not allowed") := by decide

end Manejaplus
