import Manejaplus.Effect.Guarantee
import Manejaplus.Sequential.RoleSets

/-! # What roles come about, and with which permissions

Roles and permissions are created side by side, and any statement may fail.
Between the query for a role's permissions and its save, others may add rows;
none goes away, so the role still gets just the permissions that it lists.
-/
namespace Manejaplus
open Effect Prog
set_option autoImplicit false

inductive AccessRequest where
  | createPermission (permissionModel : PermissionModel)
  | createRole (roleModel : RoleModel)

inductive AccessAnswer where
  | permission (row : PermissionRow)
  | role (roleModel : RoleModel)

def AccessRequest.answer : AccessRequest → AuthAsync AccessAnswer
  | .createPermission permissionModel => do
    return .permission (← AuthService.createPermission permissionModel)
  | .createRole roleModel => do return .role (← AuthService.createRole roleModel)

/-- The row is the one that the model asks for. -/
structure PermissionRow.Asked (row : PermissionRow) (permissionModel : PermissionModel) : Prop where
  model : permissionModel = { name := .val row.name, description := .val row.description }
  status : row.status = true

namespace RoleGrants

/-- The role is the one that the model asks for, with a permission for each id that it lists. -/
structure Granted (env : Env) (t : AccessTables) (roleModel : RoleModel) (role : RoleRow) : Prop where
  name : roleModel.name = .val role.name
  description : roleModel.description = .val role.description
  status : role.status = true
  listed : ∃ ids, roleModel.permissionsId = .val ids ∧
    Listed env.uuid PermissionRow.id PermissionRow.status t.permissions.rows ids
      (t.permissionsOf role.id)

/-- What has become of a request that has been answered. -/
def Created (env : Env) (start t : AccessTables) : AccessRequest → AccessAnswer → Prop
  | .createPermission permissionModel, answer => ∃ row ∈ t.permissions.rows,
    row ∉ start.permissions.rows ∧ row.Asked permissionModel ∧ answer = .permission row
  | .createRole roleModel, answer => ∃ role ∈ t.roles.rows,
    role ∉ start.roles.rows ∧ Granted env t roleModel role ∧
      answer = .role { name := roleModel.name, description := roleModel.description }

/-- How far a request has come: the permissions it has found, the ids of the roles and the rows of
the permissions that it has added. -/
structure Progress where
  request : AccessRequest
  found : Option (List PermissionRow) := none
  roles : List String := []
  permissions : List PermissionRow := []

/-- Only a role whose permissions have all been found is saved. -/
def Progress.SavesRole (γ : Progress) (e : RoleModel) : Prop :=
  ∃ roleModel ids, γ.request = .createRole roleModel ∧ roleModel.permissionsId = .val ids ∧
    ∃ rows, γ.found = some rows ∧ rows.length = ids.length ∧
      e = { roleModel with permissions := .val rows }

def protocol : Protocol authRepository Exception AccessWorld Progress where
  next γ _ o r := match o, r with
    | .savePermission _, .ok row => { γ with permissions := row :: γ.permissions }
    | .saveRole _, .ok saved => { γ with roles := saved.id :: γ.roles }
    | .findPermissionsByIds _, .ok rows => { γ with found := some rows }
    | _, _ => γ
  allows γ o := match o with
    | .savePermission e => γ.request = .createPermission e
    | .saveRole e => γ.SavesRole e
    | .findPermissionsByIds ids =>
      ∃ roleModel, γ.request = .createRole roleModel ∧ roleModel.permissionsId = .val ids

/-- Rows are only added, and a role's permissions stay what they are. -/
structure Extends (t t' : AccessTables) : Prop where
  roles : ∀ role ∈ t.roles.rows, role ∈ t'.roles.rows ∧ t'.permissionsOf role.id = t.permissionsOf role.id
  permissions : ∀ row ∈ t.permissions.rows, row ∈ t'.permissions.rows

/-- What is known of a request that has come so far. -/
structure Accounted (env : Env) (start t : AccessTables) (γ : Progress) : Prop where
  found : ∀ rows, γ.found = some rows → ∀ roleModel ids, γ.request = .createRole roleModel →
    roleModel.permissionsId = .val ids → rows.length = ids.length →
    Listed env.uuid PermissionRow.id PermissionRow.status t.permissions.rows ids
      (rows.map PermissionRow.id)
  roles : ∀ id ∈ γ.roles, ∃ role ∈ t.roles.rows, role.id = id ∧ role ∉ start.roles.rows ∧
    ∃ roleModel, γ.request = .createRole roleModel ∧ Granted env t roleModel role
  permissions : ∀ row ∈ γ.permissions, row ∈ t.permissions.rows ∧ row ∉ start.permissions.rows ∧
    ∃ permissionModel, γ.request = .createPermission permissionModel ∧ row.Asked permissionModel

section Tables
variable {env : Env} {start t t' : AccessTables} {γ : Progress} {roleModel : RoleModel}
  {role : RoleRow}

theorem Extends.refl (t : AccessTables) : Extends t t :=
  ⟨fun _ h => ⟨h, rfl⟩, fun _ h => h⟩

theorem Extends.trans {t'' : AccessTables} (h : Extends t t') (h' : Extends t' t'') :
    Extends t t'' where
  roles role hRole := by
    obtain ⟨hStays, hSame⟩ := h.roles role hRole
    obtain ⟨hStays', hSame'⟩ := h'.roles role hStays
    exact ⟨hStays', hSame'.trans hSame⟩
  permissions row hRow := h'.permissions row (h.permissions row hRow)

theorem Granted.extends (hGranted : Granted env t roleModel role) (hRole : role ∈ t.roles.rows)
    (h : Extends t t') : Granted env t' roleModel role := by
  obtain ⟨ids, hIds, hListed⟩ := hGranted.listed
  refine ⟨hGranted.name, hGranted.description, hGranted.status, ids, hIds, fun s hs => ?_, ?_⟩
  · obtain ⟨row, hRow, hNames⟩ := hListed.named s hs
    exact ⟨row, h.permissions row hRow, hNames⟩
  · rw [(h.roles role hRole).2]
    exact hListed.exact

theorem Accounted.extends (hAccounted : Accounted env start t γ) (h : Extends t t') :
    Accounted env start t' γ where
  found rows hFound roleModel ids hRequest hIds hLength := by
    have hListed := hAccounted.found rows hFound roleModel ids hRequest hIds hLength
    refine ⟨fun s hs => ?_, hListed.exact⟩
    obtain ⟨row, hRow, hNames⟩ := hListed.named s hs
    exact ⟨row, h.permissions row hRow, hNames⟩
  roles id hId := by
    obtain ⟨role, hRole, hSame, hNew, roleModel, hRequest, hGranted⟩ := hAccounted.roles id hId
    exact ⟨role, (h.roles role hRole).1, hSame, hNew, roleModel, hRequest, hGranted.extends hRole h⟩
  permissions row hRow := (hAccounted.permissions row hRow).imp_left (h.permissions row)

theorem Inserted.extends {ids : List String} (h : t.Inserted t' role ids) : Extends t t' where
  roles other hOther := by
    refine ⟨?_, h.permissionsOf_other hOther⟩
    rw [h.roles]
    exact List.mem_append_left _ hOther
  permissions row hRow := by
    rw [h.permissions]
    exact hRow

/-- The answer to a save is what was saved, with the id of the row that is new. -/
theorem saveRole_answer {fresh : String} {e : RoleModel} {saved : RoleEntity}
    (h : t.saveRole fresh e = some (saved, t')) : saved.toRoleModel = e ∧
      t'.roles.rows.map RoleRow.id = t.roles.rows.map RoleRow.id ++ [saved.id] ∧
      t'.permissions = t.permissions := by
  cases hPermissions : e.permissions
  all_goals
    simp only [AccessTables.saveRole, hPermissions, Option.bind_eq_bind,
      Option.bind_eq_some_iff] at h
    obtain ⟨role, _, h⟩ := h
    split at h
    · cases h
    · rename_i roles hRoles
      split at h <;> cases h
      exact ⟨rfl, by rw [NamedTable.insert_rows hRoles, List.map_append]; rfl, rfl⟩

theorem savePermission_eq_some {fresh : String} {e : PermissionModel} {row : PermissionRow}
    (h : t.savePermission fresh e = some (row, t')) :
    row.Asked e ∧ t'.permissions.rows = t.permissions.rows ++ [row] ∧ t'.roles = t.roles ∧
      t'.granted = t.granted := by
  simp only [AccessTables.savePermission, Option.bind_eq_bind, Option.bind_eq_some_iff] at h
  obtain ⟨new, hNew, h⟩ := h
  obtain ⟨name, hName, hNew⟩ := Option.bind_eq_some_iff.mp hNew
  obtain ⟨description, hDescription, hNew⟩ := Option.bind_eq_some_iff.mp hNew
  cases hNew
  split at h <;> cases h
  rename_i permissions hPermissions
  refine ⟨⟨?_, rfl⟩, NamedTable.insert_rows hPermissions, rfl, rfl⟩
  change (⟨e.name, e.description⟩ : PermissionModel) = _
  rw [Js.required_iff.mp hName, Js.required_iff.mp hDescription]

theorem savePermission_extends {fresh : String} {e : PermissionModel} {row : PermissionRow}
    (h : t.savePermission fresh e = some (row, t')) : Extends t t' := by
  obtain ⟨_, hPermissions, hRoles, hGranted⟩ := savePermission_eq_some h
  refine ⟨fun role hRole => ⟨by rwa [hRoles], ?_⟩, fun other hOther => ?_⟩
  · rw [AccessTables.permissionsOf, hGranted]
    rfl
  · rw [hPermissions]
    exact List.mem_append_left _ hOther

theorem permission_fresh {row : PermissionRow}
    (h : t'.permissions.rows = t.permissions.rows ++ [row]) : row ∉ t.permissions.rows := by
  intro hOld
  have hNodup := t'.permissions.nodupId
  rw [h, List.map_append, List.nodup_append] at hNodup
  exact hNodup.2.2 _ (List.mem_map_of_mem hOld) _ List.mem_cons_self rfl

end Tables

section Steps
variable {env : Env} {start t' : AccessTables} {w : AccessWorld} {γ : Progress}

theorem role_saved {e : RoleModel} {saved : RoleEntity} (hStart : Extends start w.tables)
    (hAccounted : Accounted env start w.tables γ) (hSaves : γ.SavesRole e)
    (h : w.tables.saveRole (w.tape 0).uuid e = some (saved, t')) : Extends w.tables t' ∧
      Accounted env start t' { γ with roles := saved.id :: γ.roles } := by
  obtain ⟨roleModel, ids, hRequest, hIds, rows, hFound, hLength, rfl⟩ := hSaves
  obtain ⟨role, hName, hDescription, hStatus, hInserted⟩ := saveRole_eq_some (by rfl) h
  obtain ⟨_, hAnswer, _⟩ := saveRole_answer h
  have hExtends := Inserted.extends hInserted
  have hAccounted' := hAccounted.extends hExtends
  refine ⟨hExtends, hAccounted'.found, fun id hId => ?_, hAccounted'.permissions⟩
  obtain rfl | hId := List.mem_cons.mp hId
  · rw [hInserted.roles, List.map_append, List.append_right_inj] at hAnswer
    refine ⟨role, ?_, (List.singleton_inj.mp hAnswer), fun hOld => ?_, roleModel, hRequest, ?_⟩
    · rw [hInserted.roles]
      exact List.mem_append_right _ (List.mem_singleton_self role)
    · exact hInserted.fresh role (hStart.roles role hOld).1 rfl
    · refine ⟨hName, hDescription, hStatus, ids, hIds, ?_⟩
      rw [hInserted.permissionsOf]
      exact hAccounted'.found rows hFound roleModel ids hRequest hIds hLength
  · exact hAccounted'.roles id hId

theorem permission_saved {e : PermissionModel} {row : PermissionRow}
    (hStart : Extends start w.tables) (hAccounted : Accounted env start w.tables γ)
    (hRequest : γ.request = .createPermission e)
    (h : w.tables.savePermission (w.tape 0).uuid e = some (row, t')) : Extends w.tables t' ∧
      Accounted env start t' { γ with permissions := row :: γ.permissions } := by
  obtain ⟨hAsked, hPermissions, _⟩ := savePermission_eq_some h
  have hExtends := savePermission_extends h
  have hAccounted' := hAccounted.extends hExtends
  refine ⟨hExtends, hAccounted'.found, hAccounted'.roles, fun other hOther => ?_⟩
  obtain rfl | hOther := List.mem_cons.mp hOther
  · refine ⟨?_, fun hOld => permission_fresh hPermissions (hStart.permissions _ hOld), e, hRequest,
      hAsked⟩
    rw [hPermissions]
    exact List.mem_append_right _ (List.mem_singleton_self _)
  · exact hAccounted'.permissions other hOther

theorem exec_kept {o : AuthRepositoryOp} {answer : o.Res} (hStart : Extends start w.tables)
    (hAccounted : Accounted env start w.tables γ) (hAllows : protocol.allows γ o)
    (h : w.exec env o = some (answer, t')) :
    Extends w.tables t' ∧ Accounted env start t' (protocol.next γ w o (.ok answer)) := by
  cases o with
  | savePermission e => exact permission_saved hStart hAccounted hAllows h
  | saveRole e => exact role_saved hStart hAccounted hAllows h
  | findPermissionsByIds ids =>
    obtain ⟨rows, hRows, hAnswer⟩ := Option.map_eq_some_iff.mp h
    cases hAnswer
    refine ⟨Extends.refl _, ?_, hAccounted.roles, hAccounted.permissions⟩
    rintro _ ⟨rfl⟩ roleModel ids' hRequest hIds hLength
    obtain ⟨roleModel', hRequest', hIds'⟩ := hAllows
    cases hRequest.symm.trans hRequest'
    cases hIds.symm.trans hIds'
    exact NamedTable.listed hRows hLength

theorem access_run (o : AuthRepositoryOp) (w : AccessWorld) :
    run (access env) (perform (S := authRepository) o) w = ((access env o w).1, (access env o w).2) :=
  run_perform (access env) o w

theorem exec_of_ok {o : AuthRepositoryOp} {answer : o.Res} (h : (access env o w).1 = .ok answer) :
    w.exec env o = some (answer, (access env o w).2.tables) := by
  obtain ⟨_, e, hError⟩ | ⟨answer', hOk, hExec⟩ := access_cases (access_run o w)
  · cases h.symm.trans hError
  · cases h.symm.trans hOk
    exact hExec

theorem access_kept {o : AuthRepositoryOp} (hStart : Extends start w.tables)
    (hAccounted : Accounted env start w.tables γ) (hAllows : protocol.allows γ o) :
    Extends w.tables (access env o w).2.tables ∧
      Accounted env start (access env o w).2.tables
        (protocol.next γ w o (access env o w).1) := by
  obtain ⟨hSame, e, hError⟩ | ⟨answer, hOk, hExec⟩ := access_cases (access_run o w)
  · rw [hSame, hError]
    refine ⟨Extends.refl _, ?_⟩
    cases o <;> exact hAccounted
  · rw [hOk]
    exact exec_kept hStart hAccounted hAllows hExec

theorem added (o : AuthRepositoryOp) (w : AccessWorld) (γ : Progress) :
    (∀ id, id ∈ (access env o w).2.tables.roles.rows.map RoleRow.id →
      id ∈ w.tables.roles.rows.map RoleRow.id ∨
        id ∈ (protocol.next γ w o (access env o w).1).roles) ∧
    ∀ row, row ∈ (access env o w).2.tables.permissions.rows →
      row ∈ w.tables.permissions.rows ∨
        row ∈ (protocol.next γ w o (access env o w).1).permissions := by
  obtain ⟨hSame, _⟩ | ⟨answer, hOk, hExec⟩ := access_cases (access_run o w)
  · rw [hSame]
    exact ⟨fun _ h => .inl h, fun _ h => .inl h⟩
  rw [hOk]
  generalize (access env o w).2.tables = t' at hExec
  cases o with
  | savePermission e =>
    obtain ⟨_, hPermissions, hRoles, _⟩ := savePermission_eq_some hExec
    rw [hPermissions, hRoles]
    refine ⟨fun _ h => .inl h, fun row h => (List.mem_append.mp h).imp_right fun hNew => ?_⟩
    rw [List.mem_singleton.mp hNew]
    exact List.mem_cons_self
  | saveRole e =>
    obtain ⟨_, hRoles, hPermissions⟩ := saveRole_answer hExec
    rw [hRoles, hPermissions]
    refine ⟨fun id h => (List.mem_append.mp h).imp_right fun hNew => ?_, fun _ h => .inl h⟩
    rw [List.mem_singleton.mp hNew]
    exact List.mem_cons_self
  | findPermissionsByIds ids =>
    obtain ⟨rows, _, hAnswer⟩ := Option.map_eq_some_iff.mp hExec
    cases hAnswer
    exact ⟨fun _ h => .inl h, fun _ h => .inl h⟩

theorem next_keeps (γ : Progress) (w : AccessWorld) (o : AuthRepositoryOp)
    (r : Except Exception o.Res) : γ.roles ⊆ (protocol.next γ w o r).roles ∧
      γ.permissions ⊆ (protocol.next γ w o r).permissions := by
  cases o <;> cases r <;> simp [protocol]

theorem maintains (env : Env) (start : AccessTables) :
    Maintains (access env) protocol (fun w => Extends start w.tables)
      (fun w γ => Accounted env start w.tables γ) where
  world _ _ _ hStart hAccounted hAllows :=
    hStart.trans (access_kept hStart hAccounted hAllows).1
  own _ _ _ hStart hAccounted hAllows := (access_kept hStart hAccounted hAllows).2
  others _ _ _ _ hStart hAccounted hAllows hOther :=
    hOther.extends (access_kept hStart hAccounted hAllows).1

end Steps

section Requests
variable {env : Env} {γ : Progress}

/-- How a request has ended: one that fails has added nothing. -/
structure Ended (γ : Progress) (r : Except Exception AccessAnswer) : Prop where
  error : ∀ e, r = .error e → γ.roles = [] ∧ γ.permissions = []
  permission : ∀ answer permissionModel, r = .ok answer →
    γ.request = .createPermission permissionModel → ∃ row ∈ γ.permissions, answer = .permission row
  role : ∀ answer roleModel, r = .ok answer → γ.request = .createRole roleModel →
    γ.roles ≠ [] ∧ answer = .role { name := roleModel.name, description := roleModel.description }

theorem ended_error {e : Exception} (hRoles : γ.roles = []) (hPermissions : γ.permissions = []) :
    Ended γ (.error e) :=
  ⟨fun _ _ => ⟨hRoles, hPermissions⟩, fun _ _ h => (by cases h), fun _ _ h => (by cases h)⟩

theorem keeps_createPermission (permissionModel : PermissionModel) :
    Obeys (access env) protocol (fun _ => True) { request := .createPermission permissionModel }
      (AccessRequest.answer (.createPermission permissionModel)) Ended := by
  refine Obeys.perform_cases rfl (fun w row _ => ⟨fun _ h => (by cases h), ?_, fun _ _ _ h => ?_⟩)
    fun _ _ => ended_error rfl rfl
  · rintro _ _ ⟨rfl⟩ _
    exact ⟨row, List.mem_cons_self, rfl⟩
  · cases h

theorem keeps_createRole (roleModel : RoleModel) :
    Obeys (access env) protocol (fun _ => True) { request := .createRole roleModel }
      (AccessRequest.answer (.createRole roleModel)) Ended := by
  obtain ⟨name, description, permissionsId, permissions⟩ := roleModel
  cases permissionsId with
  | val ids =>
    apply Obeys.bind.mpr
    refine Obeys.perform_cases ⟨_, rfl, rfl⟩ (fun w rows _ => ?_) fun _ _ => ended_error rfl rfl
    unfold AuthService.validatePermissions
    split
    · exact ended_error rfl rfl
    rename_i hLength
    refine Obeys.perform_cases ⟨_, ids, rfl, rfl, rows, rfl, not_not.mp hLength, rfl⟩
      (fun w saved hSaved => ?_) fun _ _ => ended_error rfl rfl
    obtain ⟨hModel, _⟩ := saveRole_answer (exec_of_ok hSaved)
    refine ⟨fun _ h => (by cases h), fun _ _ _ h => (by cases h), ?_⟩
    rintro _ _ ⟨rfl⟩ ⟨rfl⟩
    refine ⟨List.cons_ne_nil _ _, ?_⟩
    rw [hModel]
    rfl
  | undefined => exact ended_error rfl rfl
  | null => exact ended_error rfl rfl

theorem keeps_answer (q : AccessRequest) :
    Obeys (access env) protocol (fun _ => True) { request := q } q.answer Ended := by
  cases q with
  | createPermission permissionModel => exact keeps_createPermission permissionModel
  | createRole roleModel => exact keeps_createRole roleModel

theorem next_request (γ : Progress) (w : AccessWorld) (o : AuthRepositoryOp)
    (r : Except Exception o.Res) : (protocol.next γ w o r).request = γ.request := by
  cases o <;> cases r <;> rfl

theorem accounted_begun {start : AccessTables} (q : AccessRequest) :
    Accounted env start start { request := q } where
  found _ h := by cases h
  roles _ h := by cases h
  permissions _ h := by cases h

end Requests

abbrev Requests (ι : Type) := Pool authRepository Exception AccessWorld AccessAnswer Progress ι

def requested {ι : Type} (requests : ι → AccessRequest) (start : AccessWorld) : Requests ι where
  world := start
  threads i := ⟨(requests i).answer, { request := requests i }⟩

variable {ι : Type} [DecidableEq ι] {env : Env} (requests : ι → AccessRequest) (start : AccessWorld)
  (schedule : List ι)

theorem roles_recorded {id : String} (hFound : id ∈ ((requested requests start).run (access env)
      protocol schedule).world.tables.roles.rows.map RoleRow.id) :
    id ∈ start.tables.roles.rows.map RoleRow.id ∨ ∃ i, id ∈ (((requested requests start).run
      (access env) protocol schedule).threads i).ghost.roles :=
  Pool.recorded (F := fun w id => id ∈ w.tables.roles.rows.map RoleRow.id)
    (G := fun γ id => id ∈ γ.roles) (fun w γ o => (added o w γ).1)
    (fun w γ o r _ h => (next_keeps γ w o r).1 h) schedule hFound

theorem permissions_recorded {row : PermissionRow} (hFound : row ∈ ((requested requests start).run
      (access env) protocol schedule).world.tables.permissions.rows) :
    row ∈ start.tables.permissions.rows ∨ ∃ i, row ∈ (((requested requests start).run
      (access env) protocol schedule).threads i).ghost.permissions :=
  Pool.recorded (F := fun w row => row ∈ w.tables.permissions.rows)
    (G := fun γ row => row ∈ γ.permissions) (fun w γ o => (added o w γ).2)
    (fun w γ o r _ h => (next_keeps γ w o r).2 h) schedule hFound

end RoleGrants

open RoleGrants in
/-- However creations of roles and permissions interleave and whatever fails: roles keep their
permissions, each new role has just those that its request listed, and what is new is the row of a
request that has not failed. A request that has been answered has its row. -/
theorem roles_granted {ι : Type} [DecidableEq ι] (env : Env) (requests : ι → AccessRequest)
    (start : AccessWorld) (schedule : List ι) :
    let p := (requested requests start).run (access env) protocol schedule
    Extends start.tables p.world.tables ∧
    (∀ role ∈ p.world.tables.roles.rows, role ∈ start.tables.roles.rows ∨
      ∃ i roleModel, requests i = .createRole roleModel ∧
        Granted env p.world.tables roleModel role ∧
        ∀ e, (p.threads i).prog.result ≠ some (.error e)) ∧
    (∀ row ∈ p.world.tables.permissions.rows, row ∈ start.tables.permissions.rows ∨
      ∃ i permissionModel, requests i = .createPermission permissionModel ∧
        row.Asked permissionModel ∧ ∀ e, (p.threads i).prog.result ≠ some (.error e)) ∧
    ∀ i answer, (p.threads i).prog.result = some (.ok answer) →
      Created env start.tables p.world.tables (requests i) answer := by
  intro p
  have hBegun : Maintained (access env) protocol
      (fun i γ r => γ.request = requests i ∧ Ended γ r) (fun w => Extends start.tables w.tables)
      (fun w γ => Accounted env start.tables w.tables γ) (requested requests start) := by
    refine ⟨fun i => ?_, Extends.refl _, fun i => accounted_begun _⟩
    exact Obeys.carrying (fun γ w o r h => (next_request γ w o r).trans h) rfl (keeps_answer _)
  have hp : Maintained _ _ _ _ _ p := hBegun.run (maintains env start.tables) schedule
  have hOwn : ∀ i, (p.threads i).ghost.request = requests i :=
    Pool.unchanged (p := requested requests start) next_request schedule
  refine ⟨hp.world, fun role hRole => ?_, fun row hRow => ?_, fun i answer hDone => ?_⟩
  · obtain hOld | ⟨i, hId⟩ := roles_recorded requests start schedule (List.mem_map_of_mem hRole)
    · obtain ⟨other, hOther, hSame⟩ := List.mem_map.mp hOld
      have hThere := (hp.world.roles other hOther).1
      rw [List.inj_on_of_nodup_map p.world.tables.roles.nodupId hThere hRole hSame] at hOther
      exact .inl hOther
    · obtain ⟨other, hOther, hSame, _, roleModel, hRequest, hGranted⟩ := (hp.ghost i).roles _ hId
      rw [List.inj_on_of_nodup_map p.world.tables.roles.nodupId hOther hRole hSame] at hGranted
      rw [hOwn] at hRequest
      refine .inr ⟨i, roleModel, hRequest, hGranted, fun e hDone => ?_⟩
      exact List.ne_nil_of_mem hId ((hp.ended hDone).1.2.error e rfl).1
  · obtain hOld | ⟨i, hNew⟩ := permissions_recorded requests start schedule hRow
    · exact .inl hOld
    · obtain ⟨_, _, permissionModel, hRequest, hAsked⟩ := (hp.ghost i).permissions _ hNew
      rw [hOwn] at hRequest
      refine .inr ⟨i, permissionModel, hRequest, hAsked, fun e hDone => ?_⟩
      exact List.ne_nil_of_mem hNew ((hp.ended hDone).1.2.error e rfl).2
  · obtain ⟨⟨hSame, hEnded⟩, hAccounted⟩ := hp.ended hDone
    cases hRequest : requests i with
    | createPermission permissionModel =>
      rw [hRequest] at hSame
      obtain ⟨row, hRow, rfl⟩ := hEnded.permission answer permissionModel rfl hSame
      obtain ⟨hThere, hNew, _, hRequest', hAsked⟩ := hAccounted.permissions row hRow
      cases hSame.symm.trans hRequest'
      exact ⟨row, hThere, hNew, hAsked, rfl⟩
    | createRole roleModel =>
      rw [hRequest] at hSame
      obtain ⟨hRoles, rfl⟩ := hEnded.role answer roleModel rfl hSame
      obtain ⟨id, hId⟩ := List.exists_mem_of_ne_nil _ hRoles
      obtain ⟨role, hRole, _, hNew, _, hRequest', hGranted⟩ := hAccounted.roles id hId
      cases hSame.symm.trans hRequest'
      exact ⟨role, hRole, hNew, hGranted, rfl⟩

end Manejaplus
