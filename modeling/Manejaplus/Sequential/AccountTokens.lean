import Manejaplus.Sequential.Registration

/-! # Requests on an account that exists -/
namespace Manejaplus
open Effect Prog
set_option autoImplicit false

variable {env : Env} {w w' : World}

def unlockLink (token : String) : String :=
  "https://maicoldev.tech:3001/manejaplusback/auth/unlock-account/" ++ token

inductive LinkEnds (env : Env) (loginModel : LoginModel) (w : World) :
    Except Exception String → State → Prop
  | rejected {e : Exception} {s : State} : Credentials env loginModel w (.error e) s →
      LinkEnds env loginModel w (.error e) s
  | refused {row : UserRow} {e : Exception} : w.db.users.byEmail loginModel.email = some row →
      env.compare loginModel.password row.password = true → e ≠ AuthService.invalidCredentials →
      LinkEnds env loginModel w (.error e) w.state
  | linked {row : UserRow} (c : Choice) (payload : Payload) :
      w.db.users.byEmail loginModel.email = some row →
      env.compare loginModel.password row.password = true → row.isVerified = some true →
      row.isBlocked = some true →
      payload = Outside.payload c row.entity AUTH.TIME_VERIFY_ACCOUNT →
      LinkEnds env loginModel w (.ok (unlockLink (env.sign payload)))
        (w.state.sign [⟨env.sign payload, payload⟩])

theorem unlockAccount_cases {loginModel : LoginModel} {r : Except Exception String}
    (hRun : run (alone env) (AuthService.unlockAccount loginModel) w = (r, w')) :
    LinkEnds env loginModel w r w'.state := by
  obtain ⟨e, rfl, hCheck⟩ | ⟨user, w₁, hCheck, hRun₁⟩ := run_bind_cases _ hRun
  · exact .rejected (validateUserCredentials_cases hCheck)
  obtain ⟨row, rfl, hState₁, hEmail, hCompare⟩ := (validateUserCredentials_cases hCheck).ok
  split at hRun₁
  · rename_i hFlags
    simp only [UserRow.entity, Js.truthy_ofOption, Bool.and_eq_true, beq_iff_eq] at hFlags
    obtain ⟨e, rfl, hSign⟩ | ⟨token, w₂, hSign, hEnd⟩ := run_bind_cases _ hRun₁ <;>
      obtain ⟨hState₂, hFails⟩ | ⟨payload, hPayload, hOk, hState₂⟩ := signAsync_cases hSign
    · cases hFails.1
      rw [hState₂, hState₁]
      exact .refused hEmail hCompare (by decide)
    · cases hOk
    · cases hFails.1
    · cases hOk
      cases hEnd
      rw [hState₂, hState₁]
      exact .linked _ payload hEmail hCompare hFlags.1 hFlags.2 hPayload
  · cases hRun₁
    rw [hState₁]
    exact .refused hEmail hCompare (by decide)

section ByToken

/-- The row that the payload of a token leads to. -/
def Database.byToken (env : Env) (db : Database) (token : String) : Option UserRow :=
  match env.decode token with
  | some { sub := .val sub, .. } =>
    if sub.email = .undefined ∨ sub.id = .undefined then none
    else (db.users.findOne env.uuid { email := some sub.email, id := some sub.id }).getD none
  | _ => none

theorem findOne_mem {t : UserTable} {uuid : String → Option String} {q : UserWhere} {row : UserRow}
    (h : t.findOne uuid q = some (some row)) : row ∈ t.rows := by
  simp only [UserTable.findOne, Option.bind_eq_bind, Option.bind_eq_some_iff, Option.some.injEq] at h
  obtain ⟨sameId, _, hFind⟩ := h
  exact List.mem_of_find?_eq_some hFind

/-- What the two flag updates have in common. -/
structure Sets (setFlag : UserEntity → UserEntity) (flag : UserRow → UserRow) : Prop where
  write : ∀ row : UserRow, row.write (setFlag row.entity) = some (flag row)
  id : ∀ e, (setFlag e).id = e.id
  email : ∀ e, (setFlag e).email = e.email
  name : ∀ e, (setFlag e).name = e.name
  keepsEmail : ∀ row, (flag row).email = row.email

inductive TokenEnds (env : Env) (flag : UserRow → UserRow) (token : String) (w : World) :
    Except Exception AccountInfo → State → Prop
  | refused {e : Exception} : TokenEnds env flag token w (.error e) w.state
  | updated {row : UserRow} {users : UserTable} : w.db.byToken env token = some row →
      w.db.users.Updated users row (flag row) →
      TokenEnds env flag token w (.ok ⟨.val row.email, .val row.name⟩)
        { w.state with db := { w.db with users } }

theorem getUserByField_cases {q : UserWhere} {r : Except Exception (Option UserEntity)}
    (hRun : run (alone env) (UserRepositoryImpl.getUserByField q) w = (r, w')) :
    w'.state = w.state ∧ ((∃ e, r = .error e) ∨ ∃ found,
      (∀ x ∈ UserRepositoryImpl.conditions q, x ≠ .undefined) ∧
      w.db.users.findOne env.uuid q = some found ∧ r = .ok (found.map UserRow.entity)) := by
  unfold UserRepositoryImpl.getUserByField at hRun
  split at hRun
  · cases hRun
    exact ⟨rfl, .inl ⟨_, rfl⟩⟩
  · rename_i hFields
    obtain ⟨hState, hFails | hFound⟩ := findUser_cases hRun
    · exact ⟨hState, .inl ⟨_, hFails.1⟩⟩
    · cases hFind : w.db.users.findOne env.uuid q with
      | none =>
        rw [hFind] at hFound
        exact ⟨hState, .inl ⟨_, hFound⟩⟩
      | some found =>
        rw [hFind] at hFound
        refine ⟨hState, .inr ⟨found, fun x hx h => (not_or.mp hFields).2 ?_, rfl, hFound⟩⟩
        exact List.any_eq_true.mpr ⟨x, hx, by simpa using h⟩

theorem subject_cases {payload : Option Payload} {r : Except Exception UserObject}
    (hRun : run (alone env) (AuthService.subject payload) w = (r, w')) :
    w' = w ∧ ((∃ e, r = .error e) ∨
      ∃ p sub, payload = some p ∧ p.sub = .val sub ∧ r = .ok sub) := by
  unfold AuthService.subject at hRun
  split at hRun <;> cases hRun
  · exact ⟨rfl, .inr ⟨_, _, rfl, rfl, rfl⟩⟩
  · exact ⟨rfl, .inl ⟨_, rfl⟩⟩

theorem byToken_of_decode {db : Database} {token : String} {p : Payload} {sub : UserObject}
    {found : Option UserRow} (hDecode : env.decode token = some p) (hSub : p.sub = .val sub)
    (hDefined : ∀ x ∈ UserRepositoryImpl.conditions { email := some sub.email, id := some sub.id },
      x ≠ .undefined)
    (hFound : db.users.findOne env.uuid { email := some sub.email, id := some sub.id } =
      some found) : db.byToken env token = found := by
  have hUndefined : ¬ (sub.email = .undefined ∨ sub.id = .undefined) := by
    rintro (h | h) <;> exact hDefined _ (by simp [UserRepositoryImpl.conditions]) h
  obtain ⟨_, iat, exp⟩ := p
  cases hSub
  simp only [Database.byToken, hDecode, if_neg hUndefined, hFound, Option.getD_some]

theorem updateByToken_cases {setFlag : UserEntity → UserEntity} {flag : UserRow → UserRow}
    (hSets : Sets setFlag flag) {token : String} {r : Except Exception AccountInfo}
    (hRun : run (alone env) (AuthService.updateByToken setFlag token) w = (r, w')) :
    TokenEnds env flag token w r w'.state := by
  unfold AuthService.updateByToken at hRun
  have hSilent := silent_of_among (performs_updateByToken setFlag token) (by decide)
  obtain ⟨hState, hFails⟩ | ⟨w₁, w₂, hState₁, hRest₁, hBody, hState⟩ :=
      transactional_cases (plain_of_among (performs_updateByToken setFlag token) (by decide)) hRun
  · cases hFails.1
    exact hState ▸ .refused
  rw [hState]
  have hSame := silent_run hSilent hBody
  obtain ⟨info, rfl, hTry⟩ | ⟨e, w₃, hTry, hCatch⟩ := run_catching_cases _ hBody
  · obtain ⟨e, hErr, _⟩ | ⟨payload, w₃, hDecode, hTry₁⟩ := run_bind_cases _ hTry
    · cases hErr
    obtain ⟨hState₃, hPayload⟩ := decode_run hDecode
    obtain ⟨e, hErr, _⟩ | ⟨sub, w₄, hSub, hTry₂⟩ := run_bind_cases _ hTry₁
    · cases hErr
    obtain ⟨rfl, ⟨e, hErr⟩ | ⟨p, sub', hSome, hPSub, hOk⟩⟩ := subject_cases hSub
    · cases hErr
    cases hOk
    obtain ⟨e, hErr, _⟩ | ⟨found, w₅, hFind, hTry₃⟩ := run_bind_cases _ hTry₂
    · cases hErr
    obtain ⟨hState₅, ⟨e, hErr⟩ | ⟨found', hFields, hFound, hOk⟩⟩ := getUserByField_cases hFind
    · cases hErr
    cases hOk
    cases found' with
    | none => cases hTry₃
    | some row =>
      have hState' : w₅.state = w.state := hState₅.trans (hState₃.trans hState₁)
      rw [World.state_db (hState₃.trans hState₁)] at hFound
      have hRow : w₅.db.users.byId row.id = some row := by
        rw [World.state_db hState']
        exact UserTable.byId_eq_some.mpr ⟨findOne_mem hFound, rfl⟩
      have hDecoded : env.decode token = some p := by
        rw [hSome] at hPayload
        exact (Except.ok.inj hPayload).symm
      have hToken := byToken_of_decode hDecoded hPSub hFields hFound
      obtain ⟨e, hErr, _⟩ | ⟨saved, w₆, hSave, hEnd⟩ := run_bind_cases _ hTry₃
      · cases hErr
      obtain ⟨_, hFails⟩ | ⟨now, users, hOk, hUsers, hState₆⟩ :=
          save_cases hRow (by exact hSets.id _) (hSets.write row) (hSets.keepsEmail row) hSave
      · cases hFails.1
      cases hOk
      cases hEnd
      rw [hState', World.state_db hState'] at hState₆
      rw [World.state_db hState'] at hUsers
      simp only [State.settle, hState₆, UserTable.answer, UserObject.filled, hSets.email, hSets.name]
      exact .updated hToken hUsers
  · cases hCatch
    rw [hSame, hState₁]
    exact .refused

end ByToken

theorem sets_isVerified : Sets (fun e => { e with isVerified := .val true })
    (fun row => { row with isVerified := some true }) where
  write row := by simp [UserRow.write, UserRow.entity, UserRow.roleIds]
  id _ := rfl
  email _ := rfl
  name _ := rfl
  keepsEmail _ := rfl

theorem sets_isBlocked : Sets (fun e => { e with isBlocked := .val false })
    (fun row => { row with isBlocked := some false }) where
  write row := by simp [UserRow.write, UserRow.entity, UserRow.roleIds]
  id _ := rfl
  email _ := rfl
  name _ := rfl
  keepsEmail _ := rfl

section Refresh

inductive RenewalEnds (env : Env) (loginModel : LoginModel) (w : World) :
    Except Exception Unit → State → Prop
  | refused {e : Exception} {new : List Issued} :
      RenewalEnds env loginModel w (.error e) (w.state.sign new)
  | renewed {row : UserRow} {accessToken stored : String} {users : UserTable} {new : List Issued} :
      w.db.users.byEmail loginModel.email = some row → row.refreshToken = some stored →
      stored ≠ "" → w.db.users.Updated users row { row with accessToken := some accessToken } →
      RenewalEnds env loginModel w (.ok ()) { w.state.sign new with db := { w.db with users } }

theorem Signed.state {sub : UserObject} {r : Except Exception JWTTokens} {s : State}
    (h : Signed env sub w r s) : ∃ new, s = w.state.sign new := by
  cases h <;> exact ⟨_, rfl⟩

theorem renewAccessToken_cases {row : UserRow} {r : Except Exception Unit}
    (hRow : w.db.users.byId row.id = some row)
    (hRun : run (alone env) (AuthService.renewAccessToken row.entity) w = (r, w')) :
    (∃ e new, r = .error e ∧ w'.state = w.state.sign new) ∨
    ∃ accessToken users new, r = .ok () ∧
      w.db.users.Updated users row { row with accessToken := some accessToken } ∧
      w'.state = { w.state.sign new with db := { w.db with users } } := by
  obtain ⟨e, rfl, hSign⟩ | ⟨tokens, w₁, hSign, hRun₁⟩ := run_bind_cases _ hRun <;>
    obtain ⟨new, hState₁⟩ := (generateJWTTokens_cases hSign).state
  · exact .inl ⟨e, new, rfl, hState₁⟩
  have hDb : w₁.db = w.db := congrArg State.db hState₁
  have hRow₁ : w₁.db.users.byId row.id = some row := by rwa [hDb]
  have hWrite := row.write_accessToken tokens.accessToken
  obtain ⟨e, rfl, hSave⟩ | ⟨saved, w₂, hSave, hEnd⟩ := run_bind_cases _ hRun₁ <;>
    obtain ⟨hState₂, hFails⟩ | ⟨now, users, hOk, hUsers, hState₂⟩ :=
        save_cases hRow₁ (by rfl) hWrite rfl hSave
  · exact .inl ⟨e, new, rfl, hState₂.trans hState₁⟩
  · cases hOk
  · cases hFails.1
  · cases hEnd
    rw [hState₁, hDb] at hState₂
    exact .inr ⟨_, users, new, rfl, hDb ▸ hUsers, hState₂⟩

theorem truthyText_ofOption {stored : Option String}
    (h : (Js.ofOption stored).truthyText = true) : ∃ s, stored = some s ∧ s ≠ "" := by
  cases stored with
  | none => cases h
  | some s => exact ⟨s, rfl, by simpa [Js.ofOption, Js.truthyText] using h⟩

theorem refreshToken_cases {loginModel : LoginModel} {r : Except Exception Unit}
    (hRun : run (alone env) (AuthService.refreshToken loginModel) w = (r, w')) :
    RenewalEnds env loginModel w r w'.state := by
  have hSame : ∀ e, RenewalEnds env loginModel w (.error e) w.state := fun e =>
    State.sign_nil w.state ▸ RenewalEnds.refused
  obtain ⟨e, rfl, hFind⟩ | ⟨found, w₁, hFind, hRun₁⟩ := run_bind_cases _ hRun <;>
    obtain ⟨hState₁, hFound⟩ := getUserByEmail_cases hFind
  · exact hState₁ ▸ hSame e
  obtain hFails | hOk := hFound
  · cases hFails.1
  cases hOk
  cases hEmail : w.db.users.byEmail loginModel.email with
  | none =>
    rw [hEmail] at hRun₁
    cases hRun₁
    exact hState₁ ▸ hSame _
  | some row =>
    rw [hEmail] at hRun₁
    simp only [Option.map_some] at hRun₁
    split at hRun₁
    · cases hRun₁
      exact hState₁ ▸ hSame _
    · rename_i hTruthy
      obtain ⟨stored, hStored, hNe⟩ := @truthyText_ofOption row.refreshToken
        (by simpa [UserRow.entity] using hTruthy)
      have hRow : w₁.db.users.byId row.id = some row := by
        rw [World.state_db hState₁]
        exact byId_of_byEmail hEmail
      obtain ⟨_, rfl, hTry⟩ | ⟨e, w₂, hTry, hCatch⟩ := run_catching_cases _ hRun₁ <;>
        obtain ⟨e, new, hErr, hState₂⟩ | ⟨accessToken, users, new, hOk, hUsers, hState₂⟩ :=
            renewAccessToken_cases hRow hTry
      · cases hErr
      · rw [hState₁, World.state_db hState₁] at hState₂
        rw [World.state_db hState₁] at hUsers
        exact hState₂ ▸ .renewed hEmail hStored hNe hUsers
      · cases hCatch
        rw [hState₂, hState₁]
        exact .refused
      · cases hOk

end Refresh

section Roles

theorem findOne_id {t : UserTable} {uuid : String → Option String} {id : String} {row : UserRow}
    (h : t.findOne uuid { id := some (.val id) } = some (some row)) :
    uuid id = some row.id ∧ t.byId row.id = some row := by
  refine ⟨?_, UserTable.byId_eq_some.mpr ⟨findOne_mem h, rfl⟩⟩
  simp only [UserTable.findOne, UserTable.idCondition, Option.bind_eq_bind, Option.bind_eq_some_iff,
    Option.map_eq_some_iff, Option.some.injEq] at h
  obtain ⟨sameId, ⟨id', hUuid, rfl⟩, hFind⟩ := h
  have hId := List.find?_some hFind
  simp only [UserTable.emailCondition, Bool.true_and, beq_iff_eq] at hId
  rw [hUuid, hId]

/-- An object with another row's e-mail cannot be saved: it would either overwrite that e-mail or
insert its id a second time. -/
theorem save_named {t t' : UserTable} {uuid : String → Option String} {fresh id : String}
    {now : Time} {e e' : UserEntity} {row : UserRow} (hRow : t.byId row.id = some row)
    (hUuid : uuid id = some row.id) (hId : e.id = .val id) (hEmail : e.email = .val row.email)
    (h : t.save uuid fresh now e = some (e', t')) : id = row.id := by
  have hMem := (UserTable.byId_eq_some.mp hRow).1
  simp only [UserTable.save, hId] at h
  cases hFound : t.byId id with
  | none =>
    simp only [hFound, hUuid, UserTable.insert, Option.bind_eq_bind, Option.bind_some,
      Option.bind_eq_some_iff] at h
    obtain ⟨new, hNew, t'', hRows, _⟩ := h
    have hNodup := t''.nodupId
    rw [UserTable.ofRows?_rows hRows, List.map_append, List.nodup_append] at hNodup
    exact absurd (UserRow.ofEntity_id hNew).symm
      (hNodup.2.2 _ (List.mem_map_of_mem hMem) new.id (by simp))
  | some other =>
    simp only [hFound, Option.bind_eq_bind, Option.bind_eq_some_iff] at h
    obtain ⟨other', hWrite, t'', hRows, _⟩ := h
    obtain ⟨hOther, rfl⟩ := UserTable.byId_eq_some.mp hFound
    have hId' := UserTable.touch_id now other other' (UserRow.write_id hWrite).1
    have hEmail' : (UserTable.touch now other other').email = row.email := by
      have hWritten : other'.email = row.email := UserRow.write_email hWrite hEmail
      unfold UserTable.touch
      split <;> exact hWritten
    by_contra hNe
    have hNew : UserTable.touch now other other' ∈ t''.rows := by
      rw [UserTable.ofRows?_rows hRows]
      exact List.mem_map.mpr ⟨other, hOther, if_pos hId'.symm⟩
    have hOld : row ∈ t''.rows := by
      rw [UserTable.ofRows?_rows hRows]
      exact List.mem_map.mpr ⟨row, hMem, if_neg fun h => hNe (hId'.symm.trans h.symm)⟩
    have hEq := UserTable.eq_of_nodup t''.nodupEmail hNew hOld hEmail'
    exact hNe (hId'.symm.trans (congrArg UserRow.id hEq))

inductive AssignmentEnds (env : Env) (assignRoleModel : AssignRoleModel) (w : World) :
    Except Exception UserModel → State → Prop
  | refused {e : Exception} : AssignmentEnds env assignRoleModel w (.error e) w.state
  | assigned {row : UserRow} {roles : List RoleRow} {users : UserTable} {user : UserModel} :
      w.db.users.findOne env.uuid { id := some (.val assignRoleModel.userId) } = some (some row) →
      w.db.activeRoles env.uuid assignRoleModel.rolesId = some roles →
      roles.length = assignRoleModel.rolesId.length →
      w.db.users.Updated users row { row with roles := roles.map (·.id) } →
      AssignmentEnds env assignRoleModel w (.ok user) { w.state with db := { w.db with users } }

theorem updateUser_cases {id : String} {e : UserEntity} {row row' : UserRow}
    {r : Except Exception UserEntity} (hRow : w.db.users.byId row.id = some row)
    (hUuid : env.uuid id = some row.id) (hWrite : row.write { e with id := .val id } = some row')
    (hEmail : e.email = .val row.email)
    (hRun : run (alone env) (UserRepositoryImpl.updateUser id e) w = (r, w')) :
    (w'.state = w.state ∧ ∃ e, r = .error e) ∨
    ∃ saved users, r = .ok saved ∧ w.db.users.Updated users row row' ∧
      w'.state = { w.state with db := { w.db with users } } := by
  have hKeeps : row'.email = row.email := UserRow.write_email hWrite hEmail
  by_cases hId : id = row.id
  · obtain ⟨hState, hFails⟩ | ⟨now, users, hOk, hUsers, hState⟩ :=
        save_cases hRow (by rw [← hId]) hWrite hKeeps hRun
    · exact .inl ⟨hState, _, hFails.1⟩
    · exact .inr ⟨_, users, hOk, hUsers, hState⟩
  · obtain ⟨hState, hFails⟩ | hSave := saveUser_cases hRun
    · exact .inl ⟨hState, _, hFails.1⟩
    · cases hSaved : w.db.users.save env.uuid w.choice.uuid w.choice.now { e with id := .val id } with
      | none =>
        rw [hSaved] at hSave
        exact .inl ⟨hSave.2, _, hSave.1⟩
      | some saved => exact absurd (save_named hRow hUuid (by rfl) (by exact hEmail) hSaved) hId

theorem assignRole_cases {assignRoleModel : AssignRoleModel} {r : Except Exception UserModel}
    (hRun : run (alone env) (AuthService.assignRole assignRoleModel) w = (r, w')) :
    AssignmentEnds env assignRoleModel w r w'.state := by
  obtain ⟨e, rfl, hRoles⟩ | ⟨roles, w₁, hRoles, hRun₁⟩ := run_bind_cases _ hRun <;>
    obtain ⟨hState₁, hListed⟩ := findRoles_cases hRoles
  · exact hState₁ ▸ .refused
  obtain hFails | hListed := hListed
  · cases hFails.1
  cases hActive : w.db.activeRoles env.uuid assignRoleModel.rolesId <;> rw [hActive] at hListed <;>
    cases hListed
  obtain ⟨e, rfl, hFind⟩ | ⟨found, w₂, hFind, hRun₂⟩ := run_bind_cases _ hRun₁ <;>
    obtain ⟨hState₂, hFound⟩ := findUser_cases hFind
  · rw [hState₂, hState₁]
    exact .refused
  have hState : w₂.state = w.state := hState₂.trans hState₁
  rw [World.state_db hState₁] at hFound
  split at hRun₂
  · cases hRun₂
    exact hState ▸ .refused
  rename_i hLength
  obtain hFails | hFound := hFound
  · cases hFails.1
  cases hUser : w.db.users.findOne env.uuid { id := some (.val assignRoleModel.userId) } with
  | none =>
    rw [hUser] at hFound
    cases hFound
  | some user =>
    rw [hUser] at hFound
    cases hFound
    cases user with
    | none =>
      cases hRun₂
      exact hState ▸ .refused
    | some row =>
      obtain ⟨hUuid, hRow⟩ := findOne_id hUser
      have hWrite := row.write_roles assignRoleModel.userId
      have hRow₂ : w₂.db.users.byId row.id = some row := by rwa [World.state_db hState]
      obtain ⟨e, rfl, hSave⟩ | ⟨saved, w₃, hSave, hEnd⟩ := run_bind_cases _ hRun₂ <;>
        obtain ⟨hState₃, e, hErr⟩ | ⟨_, users, hOk, hUsers, hState₃⟩ :=
            updateUser_cases (e := { row.entity with roles := .val _ }) hRow₂ hUuid (hWrite _) rfl
              hSave
      · rw [hState₃, hState]
        exact .refused
      · cases hOk
      · cases hErr
      · cases hEnd
        rw [hState, World.state_db hState] at hState₃
        rw [World.state_db hState] at hUsers
        rw [hState₃]
        exact .assigned hUser hActive (not_not.mp hLength) hUsers

end Roles

end Manejaplus
