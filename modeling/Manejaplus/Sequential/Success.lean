import Manejaplus.Sequential.AccountTokens

/-! # When a request goes through

Which inputs, states and outside events let a request come to its end, exactly.
-/
namespace Manejaplus
open Effect Prog
set_option autoImplicit false

variable {env : Env} {w w' : World}

def Succeeds {α : Type} (env : Env) (p : Async α) (w : World) : Prop :=
  ∃ a w', run (alone env) p w = (.ok a, w')

/-- The first operations find nothing wrong outside. -/
def Quiet (n : Nat) (out : Outside) : Prop := ∀ k < n, (out.tape k).fault = false

def World.tick (w : World) : World := { w with outside := w.outside.tick }

theorem quiet_zero (out : Outside) : Quiet 0 out := fun _ h => absurd h (Nat.not_lt_zero _)

theorem quiet_succ {n : Nat} {out : Outside} :
    Quiet (n + 1) out ↔ (out.tape 0).fault = false ∧ Quiet n out.tick := by
  constructor
  · exact fun h => ⟨h 0 (Nat.succ_pos n), fun k hk => h (k + 1) (Nat.succ_lt_succ hk)⟩
  · rintro ⟨hFirst, hRest⟩ (_ | k) hk
    · exact hFirst
    · exact hRest k (Nat.lt_of_succ_lt_succ hk)

section Rules
variable {α β : Type}

theorem succeeds_pure (a : α) (w : World) : Succeeds env (.pure a) w := ⟨a, w, rfl⟩

theorem not_succeeds_throw (e : Exception) (w : World) :
    ¬ Succeeds env (.throw e : Async α) w := by
  rintro ⟨a, w', h⟩
  cases h

theorem succeeds_bind {p : Async α} {f : α → Async β} :
    Succeeds env (p.bind f) w ↔
      ∃ a w', run (alone env) p w = (.ok a, w') ∧ Succeeds env (f a) w' := by
  constructor
  · rintro ⟨b, w'', h⟩
    obtain ⟨a, w', hp, hf⟩ := (run_bind_ok _).mp h
    exact ⟨a, w', hp, b, w'', hf⟩
  · rintro ⟨a, w', hp, b, w'', hf⟩
    exact ⟨b, w'', (run_bind_ok _).mpr ⟨a, w', hp, hf⟩⟩

theorem succeeds_map {p : Async α} {f : α → β} :
    Succeeds env (p.bind fun a => .pure (f a)) w ↔ Succeeds env p w := by
  constructor
  · intro h
    obtain ⟨a, w', hp, _⟩ := succeeds_bind.mp h
    exact ⟨a, w', hp⟩
  · rintro ⟨a, w', hp⟩
    exact succeeds_bind.mpr ⟨a, w', hp, succeeds_pure _ _⟩

/-- `try { p } catch { throw … }` -/
theorem run_rethrow_ok {p : Async α} {recover : Exception → Exception} {a : α} :
    run (alone env) (p.catching fun e => .throw (recover e)) w = (.ok a, w') ↔
      run (alone env) p w = (.ok a, w') := by
  refine ⟨fun h => ?_, run_catching_of_ok _⟩
  obtain ⟨b, hb, hp⟩ | ⟨e, w₁, _, hThrow⟩ := run_catching_cases _ h
  · cases hb
    exact hp
  · cases hThrow

theorem succeeds_rethrow {p : Async α} (recover : Exception → Exception) :
    Succeeds env (p.catching fun e => .throw (recover e)) w ↔ Succeeds env p w := by
  simp only [Succeeds, run_rethrow_ok]

end Rules

section Operations

theorem findUser_ok {q : UserWhere} {found : Option UserEntity} :
    run (alone env) (Async.findUser q) w = (.ok found, w') ↔ w.choice.fault = false ∧
      (∃ row, w.db.users.findOne env.uuid q = some row ∧ row.map UserRow.entity = found) ∧
      w.tick = w' := by
  rw [Async.findUser, run_store, World.execStore, Database.exec]
  cases hFault : w.choice.fault with
  | true => simp
  | false =>
    cases hFound : w.db.users.findOne env.uuid q with
    | none => simp [orFail]
    | some row => simp [orFail, World.tick]

theorem getUserByEmail_ok {email : String} {found : Option UserEntity} :
    run (alone env) (UserRepositoryImpl.getUserByField { email := some (.val email) }) w =
      (.ok found, w') ↔ w.choice.fault = false ∧
        (w.db.users.byEmail email).map UserRow.entity = found ∧ w.tick = w' := by
  have hFind : UserRepositoryImpl.getUserByField { email := some (.val email) } =
      Async.findUser { email := some (.val email) } := by
    simp [UserRepositoryImpl.getUserByField, UserRepositoryImpl.conditions]
  rw [hFind, findUser_ok, UserTable.findOne_email]
  simp

theorem getUserByEmail_error {email : String} {e : Exception}
    (hRun : run (alone env) (UserRepositoryImpl.getUserByField { email := some (.val email) }) w =
      (.error e, w')) : e = .external := by
  obtain ⟨_, hFails | hOk⟩ := getUserByEmail_cases hRun
  · exact Except.error.inj hFails.1
  · cases hOk

theorem saveUser_ok {e saved : UserEntity} :
    run (alone env) (Async.saveUser e) w = (.ok saved, w') ↔ w.choice.fault = false ∧
      ∃ users, w.db.users.save env.uuid w.choice.uuid w.choice.now e = some (saved, users) ∧
        { w.tick with db := { w.db with users } } = w' := by
  rw [Async.saveUser, run_store, World.execStore, Database.exec]
  cases hFault : w.choice.fault with
  | true => simp
  | false =>
    cases hSave : w.db.users.save env.uuid w.choice.uuid w.choice.now e with
    | none => simp [orFail]
    | some result =>
      obtain ⟨e', users⟩ := result
      simp [orFail, World.tick, Prod.ext_iff]

theorem findRoles_ok {ids : List String} {roles : List RoleRow} :
    run (alone env) (Async.findRoles ids) w = (.ok roles, w') ↔ w.choice.fault = false ∧
      w.db.activeRoles env.uuid ids = some roles ∧ w.tick = w' := by
  rw [Async.findRoles, run_store, World.execStore, Database.exec]
  cases hFault : w.choice.fault with
  | true => simp
  | false => cases hFound : w.db.activeRoles env.uuid ids <;> simp [orFail, World.tick]

theorem hashPassword_ok {password hash : String} :
    run (alone env) (EncryptionUtil.hashPassword (.val password)) w = (.ok hash, w') ↔
      w.choice.fault = false ∧ env.hash w.choice.salt password = hash ∧ w.tick = w' := by
  rw [EncryptionUtil.hashPassword]
  apply run_rethrow_ok.trans
  rw [Async.hashPassword, run_outside, World.execOutside, Outside.exec]
  cases hFault : w.choice.fault <;> simp [World.tick]

theorem comparePasswords_ok {passwordTry original : String} :
    run (alone env) (EncryptionUtil.comparePasswords passwordTry (.val original)) w =
      (.ok true, w') ↔ w.choice.fault = false ∧ env.compare passwordTry original = true ∧
        w.tick = w' := by
  rw [EncryptionUtil.comparePasswords, catching, run_bind, run_attempt, Async.comparePasswords,
    run_outside, World.execOutside, Outside.exec]
  cases hFault : w.choice.fault <;> simp [World.tick]

theorem signAsync_ok {sub : UserObject} {expiresIn : Nat} {token : String} :
    run (alone env) (Async.signAsync sub expiresIn) w = (.ok token, w') ↔
      w.choice.fault = false ∧ ∃ payload, Outside.payload w.choice sub expiresIn = payload ∧
        env.sign payload = token ∧ { w with outside := { w.outside.tick with
          issued := w.outside.issued ++ [⟨env.sign payload, payload⟩] } } = w' := by
  rw [Async.signAsync, run_outside, World.execOutside, Outside.exec]
  cases hFault : w.choice.fault <;> simp [Outside.tick]

theorem sendEmail_succeeds {mail : Mail} :
    Succeeds env (Async.sendEmail mail) w ↔ w.choice.fault = false := by
  rw [Succeeds, Async.sendEmail, run_outside, World.execOutside, Outside.exec]
  cases hFault : w.choice.fault <;> simp

end Operations

theorem succeeds_iff {α : Type} {p : Async α} :
    Succeeds env p w ↔ ∃ a, (run (alone env) p w).1 = .ok a := by
  constructor
  · rintro ⟨a, w', h⟩
    exact ⟨a, congrArg Prod.fst h⟩
  · rintro ⟨a, h⟩
    exact ⟨a, _, Prod.ext h rfl⟩

theorem succeeds_transactional {α : Type} {service : Service} {body : Async α}
    (hBody : body.Uses Op.Plain) : Succeeds env (Transactional service body) w ↔
      w.choice.fault = false ∧ Succeeds env body { w.tick with checkpoint := w.db } := by
  rw [succeeds_iff, succeeds_iff, transactional_answer hBody]
  cases w.choice.fault with
  | true => simp
  | false =>
    simp only [Bool.false_eq_true, if_false, true_and]
    exact Iff.rfl

section Registration

def Registers (dto : CreateUserDto) (w : World) : Prop :=
  Quiet 6 w.outside ∧ w.db.users.byEmail dto.email = none ∧
    w.db.users.byId (w.outside.tape 3).uuid = none

theorem find?_none_of_nodup {key : UserRow → String} {rows : List UserRow} {row : UserRow}
    (h : ((rows ++ [row]).map key).Nodup) : rows.find? (key · == key row) = none := by
  rw [List.map_append, List.nodup_append] at h
  refine List.find?_eq_none.mpr fun r hr hSame => ?_
  exact h.2.2 _ (List.mem_map_of_mem hr) (key row) (by simp) (by simpa using hSame)

theorem nodup_of_find?_none {key : UserRow → String} {rows : List UserRow} (row : UserRow)
    (hNodup : (rows.map key).Nodup) (h : rows.find? (key · == key row) = none) :
    ((rows ++ [row]).map key).Nodup := by
  rw [List.map_append, List.nodup_append]
  refine ⟨hNodup, by simp, fun a ha b hb hSame => ?_⟩
  obtain ⟨r, hr, rfl⟩ := List.mem_map.mp ha
  rw [List.map_singleton, List.mem_singleton] at hb
  exact List.find?_eq_none.mp h r hr (by simp [hSame, hb])

theorem insert_ok {t : UserTable} {dto : CreateUserDto} {id password : String} {now : Time} :
    (∃ result, t.insert id now (dto.model password) = some result) ↔
      t.byEmail dto.email = none ∧ t.byId id = none := by
  simp only [UserTable.insert, ofEntity_model, Option.bind_eq_bind, Option.bind_some]
  constructor
  · rintro ⟨result, h⟩
    obtain ⟨t', hRows, _⟩ := Option.bind_eq_some_iff.mp h
    have hIds := t'.nodupId
    have hEmails := t'.nodupEmail
    rw [UserTable.ofRows?_rows hRows] at hIds hEmails
    exact ⟨find?_none_of_nodup hEmails, find?_none_of_nodup hIds⟩
  · rintro ⟨hEmail, hId⟩
    have hNodup := And.intro
      (nodup_of_find?_none (dto.row id password now) t.nodupId (by exact hId))
      (nodup_of_find?_none (dto.row id password now) t.nodupEmail (by exact hEmail))
    rw [UserTable.ofRows?, dif_pos hNodup]
    exact ⟨_, rfl⟩

theorem succeeds_createUser {dto : CreateUserDto} :
    Succeeds env (UserController.createUser dto) w ↔ Registers dto w := by
  apply (succeeds_transactional (plain_of_among (performs_createUser _) (by decide))).trans
  simp only [Registers, quiet_succ]
  constructor
  · rintro ⟨hFault, hBody⟩
    obtain ⟨found, w₁, hFind, hBody⟩ := succeeds_bind.mp hBody
    obtain ⟨hFault₁, hFound, rfl⟩ := getUserByEmail_ok.mp hFind
    cases found with
    | some user => exact absurd hBody (not_succeeds_throw _ _)
    | none =>
      have hEmail := Option.map_eq_none_iff.mp hFound
      obtain ⟨model, w₂, hHash, hBody⟩ := succeeds_bind.mp hBody
      obtain ⟨password, w₃, hHash, hPure⟩ := (run_bind_ok _).mp hHash
      cases hPure
      obtain ⟨hFault₂, rfl, rfl⟩ := hashPassword_ok.mp hHash
      obtain ⟨saved, w₄, hSave, hBody⟩ := succeeds_bind.mp hBody
      obtain ⟨hFault₃, users, hTable, rfl⟩ := saveUser_ok.mp hSave
      obtain ⟨callbackUrl, w₅, hLink, hBody⟩ := succeeds_bind.mp hBody
      obtain ⟨token, w₆, hSign, hPure⟩ := (run_bind_ok _).mp (run_rethrow_ok.mp hLink)
      cases hPure
      obtain ⟨hFault₄, payload, _, _, rfl⟩ := signAsync_ok.mp hSign
      have hFault₅ := sendEmail_succeeds.mp (succeeds_map.mp hBody)
      refine ⟨⟨hFault, hFault₁, hFault₂, hFault₃, hFault₄, hFault₅, quiet_zero _⟩, hEmail, ?_⟩
      exact (insert_ok.mp ⟨_, hTable⟩).2
  · rintro ⟨⟨hFault, hFault₁, hFault₂, hFault₃, hFault₄, hFault₅, -⟩, hEmail, hId⟩
    refine ⟨hFault, succeeds_bind.mpr ⟨none, _, getUserByEmail_ok.mpr ⟨hFault₁, ?_, rfl⟩, ?_⟩⟩
    · exact Option.map_eq_none_iff.mpr hEmail
    refine succeeds_bind.mpr ⟨_, _, (run_bind_ok _).mpr ⟨_, _, hashPassword_ok.mpr
      ⟨hFault₂, rfl, rfl⟩, rfl⟩, ?_⟩
    obtain ⟨⟨saved, users⟩, hTable⟩ := insert_ok.mpr ⟨hEmail, hId⟩
    refine succeeds_bind.mpr ⟨saved, _, saveUser_ok.mpr ⟨hFault₃, users, hTable, rfl⟩, ?_⟩
    refine succeeds_bind.mpr ⟨_, _, run_rethrow_ok.mpr ((run_bind_ok _).mpr
      ⟨_, _, signAsync_ok.mpr ⟨hFault₄, _, rfl, rfl, rfl⟩, rfl⟩), ?_⟩
    exact succeeds_map.mpr (sendEmail_succeeds.mpr hFault₅)

end Registration

section Links

def LinksUnlock (env : Env) (loginModel : LoginModel) (w : World) : Prop :=
  Quiet 3 w.outside ∧ ∃ row, w.db.users.byEmail loginModel.email = some row ∧
    env.compare loginModel.password row.password = true ∧ row.isVerified = some true ∧
    row.isBlocked = some true

theorem validateUserCredentials_ok {loginModel : LoginModel} {user : UserModel} :
    run (alone env) (AuthService.validateUserCredentials loginModel) w = (.ok user, w') ↔
      w.choice.fault = false ∧ w.tick.choice.fault = false ∧
      (∃ row, w.db.users.byEmail loginModel.email = some row ∧
        env.compare loginModel.password row.password = true ∧ row.entity = user) ∧
      w.tick.tick = w' := by
  constructor
  · intro hRun
    obtain ⟨found, w₁, hFind, hRun⟩ := (run_bind_ok _).mp hRun
    obtain ⟨hFault, rfl, rfl⟩ := getUserByEmail_ok.mp hFind
    obtain ⟨failed, w₂, hCheck, hRun⟩ := (run_bind_ok _).mp hRun
    cases failed with
    | true =>
      obtain ⟨_, w₃, _, hThrow⟩ := (run_bind_ok _).mp hRun
      cases hThrow
    | false =>
      cases hRun
      cases hEmail : w.db.users.byEmail loginModel.email with
      | none =>
        rw [hEmail] at hCheck
        cases hCheck
      | some row =>
        rw [hEmail] at hCheck
        obtain ⟨same, w₃, hCompare, hNot⟩ := (run_bind_ok _).mp hCheck
        cases same with
        | false => cases hNot
        | true =>
          cases hNot
          obtain ⟨hFault₁, hSame, rfl⟩ := comparePasswords_ok.mp hCompare
          exact ⟨hFault, hFault₁, ⟨row, rfl, hSame, by simp⟩, rfl⟩
  · rintro ⟨hFault, hFault₁, ⟨row, hEmail, hSame, rfl⟩, rfl⟩
    refine (run_bind_ok _).mpr ⟨_, _, getUserByEmail_ok.mpr ⟨hFault, rfl, rfl⟩, ?_⟩
    rw [hEmail]
    refine (run_bind_ok _).mpr ⟨false, w.tick.tick, (run_bind_ok _).mpr ⟨true, _,
      comparePasswords_ok.mpr ⟨hFault₁, hSame, rfl⟩, rfl⟩, ?_⟩
    simp

theorem succeeds_unlockAccount {loginModel : LoginModel} :
    Succeeds env (AuthService.unlockAccount loginModel) w ↔ LinksUnlock env loginModel w := by
  simp only [LinksUnlock, quiet_succ]
  constructor
  · intro h
    obtain ⟨user, w₁, hUser, h⟩ := succeeds_bind.mp h
    obtain ⟨hFault, hFault₁, ⟨row, hEmail, hSame, rfl⟩, rfl⟩ := validateUserCredentials_ok.mp hUser
    split at h
    · rename_i hFlags
      simp only [UserRow.entity, Js.truthy_ofOption, Bool.and_eq_true, beq_iff_eq] at hFlags
      obtain ⟨token, w₂, hSign, _⟩ := succeeds_bind.mp h
      have hFault₂ := (signAsync_ok.mp hSign).1
      exact ⟨⟨hFault, hFault₁, hFault₂, quiet_zero _⟩, row, hEmail, hSame, hFlags⟩
    · exact absurd h (not_succeeds_throw _ _)
  · rintro ⟨⟨hFault, hFault₁, hFault₂, -⟩, row, hEmail, hSame, hFlags⟩
    refine succeeds_bind.mpr ⟨row.entity, w.tick.tick, validateUserCredentials_ok.mpr
      ⟨hFault, hFault₁, ⟨row, hEmail, hSame, rfl⟩, rfl⟩, ?_⟩
    rw [if_pos (by simp [UserRow.entity, hFlags])]
    exact succeeds_map.mpr ⟨_, _, signAsync_ok.mpr ⟨hFault₂, _, rfl, rfl, rfl⟩⟩

end Links

section Refresh

def Renews (loginModel : LoginModel) (w : World) : Prop :=
  Quiet 4 w.outside ∧ ∃ row, w.db.users.byEmail loginModel.email = some row ∧
    (Js.ofOption row.refreshToken).truthyText = true

theorem succeeds_renewAccessToken {row : UserRow} (hRow : w.db.users.byId row.id = some row) :
    Succeeds env (AuthService.renewAccessToken row.entity) w ↔ Quiet 3 w.outside := by
  simp only [quiet_succ]
  constructor
  · intro h
    obtain ⟨tokens, w₁, hTokens, h⟩ := succeeds_bind.mp h
    obtain ⟨accessToken, w₂, hAccess, hTokens⟩ := (run_bind_ok _).mp hTokens
    obtain ⟨hFault, _, _, _, rfl⟩ := signAsync_ok.mp hAccess
    obtain ⟨refreshToken, w₃, hRefresh, hPure⟩ := (run_bind_ok _).mp hTokens
    cases hPure
    obtain ⟨hFault₁, _, _, _, rfl⟩ := signAsync_ok.mp hRefresh
    obtain ⟨saved, w₄, hSave, _⟩ := succeeds_bind.mp h
    exact ⟨hFault, hFault₁, (saveUser_ok.mp hSave).1, quiet_zero _⟩
  · rintro ⟨hFault, hFault₁, hFault₂, -⟩
    refine succeeds_bind.mpr ⟨_, _, (run_bind_ok _).mpr ⟨_, _, signAsync_ok.mpr
      ⟨hFault, _, rfl, rfl, rfl⟩, (run_bind_ok _).mpr ⟨_, _, signAsync_ok.mpr
      ⟨hFault₁, _, rfl, rfl, rfl⟩, rfl⟩⟩, ?_⟩
    obtain ⟨users, hTable, _⟩ := save_stored hRow (by rfl) (row.write_accessToken _) rfl
    exact succeeds_map.mpr ⟨_, _, saveUser_ok.mpr ⟨hFault₂, users, hTable, rfl⟩⟩

theorem succeeds_refreshToken {loginModel : LoginModel} :
    Succeeds env (AuthService.refreshToken loginModel) w ↔ Renews loginModel w := by
  rw [Renews, quiet_succ]
  constructor
  · intro h
    obtain ⟨found, w₁, hFind, h⟩ := succeeds_bind.mp h
    obtain ⟨hFault, rfl, rfl⟩ := getUserByEmail_ok.mp hFind
    cases hEmail : w.db.users.byEmail loginModel.email with
    | none =>
      rw [hEmail] at h
      exact absurd h (not_succeeds_throw _ _)
    | some row =>
      rw [hEmail] at h
      simp only [Option.map_some] at h
      split at h
      · exact absurd h (not_succeeds_throw _ _)
      · rename_i hTruthy
        have hRow : w.tick.db.users.byId row.id = some row := byId_of_byEmail hEmail
        have hRenewed := (succeeds_renewAccessToken hRow).mp
          ((succeeds_rethrow fun _ => AuthService.unauthorized).mp h)
        exact ⟨⟨hFault, hRenewed⟩, row, rfl, by simpa [UserRow.entity] using hTruthy⟩
  · rintro ⟨⟨hFault, hQuiet⟩, row, hEmail, hTruthy⟩
    refine succeeds_bind.mpr ⟨_, _, getUserByEmail_ok.mpr ⟨hFault, rfl, rfl⟩, ?_⟩
    rw [hEmail]
    simp only [Option.map_some, UserRow.entity, hTruthy, Bool.not_true, Bool.false_eq_true, if_false]
    have hRow : w.tick.db.users.byId row.id = some row := byId_of_byEmail hEmail
    exact (succeeds_rethrow fun _ => AuthService.unauthorized).mpr
      ((succeeds_renewAccessToken hRow).mpr hQuiet)

/-- Whatever is missing, a renewal fails with one answer once the database has been read. -/
theorem refreshToken_error {loginModel : LoginModel} {e : Exception}
    (h : (run (alone env) (AuthService.refreshToken loginModel) w).1 = .error e) :
    e = if w.choice.fault then .external else AuthService.unauthorized := by
  rcases hRun : run (alone env) (AuthService.refreshToken loginModel) w with ⟨r, w'⟩
  rw [hRun] at h
  cases h
  obtain ⟨e', hError, hFind⟩ | ⟨found, w₁, hFind, hRun⟩ := run_bind_cases _ hRun
  · cases hError
    cases hFault : w.choice.fault with
    | true => exact getUserByEmail_error hFind
    | false =>
      cases hFind.symm.trans (getUserByEmail_ok.mpr ⟨hFault, rfl, rfl⟩)
  · obtain ⟨hFault, rfl, rfl⟩ := getUserByEmail_ok.mp hFind
    rw [hFault]
    cases hEmail : w.db.users.byEmail loginModel.email with
    | none =>
      rw [hEmail] at hRun
      cases hRun
      rfl
    | some row =>
      rw [hEmail] at hRun
      simp only [Option.map_some] at hRun
      split at hRun
      · cases hRun
        rfl
      · obtain ⟨_, hOk, _⟩ | ⟨_, w₂, _, hThrow⟩ := run_catching_cases _ hRun
        · cases hOk
        · cases hThrow
          rfl

end Refresh

section Roles

def AssignsRole (env : Env) (assignRoleModel : AssignRoleModel) (w : World) : Prop :=
  Quiet 3 w.outside ∧ env.uuid assignRoleModel.userId = some assignRoleModel.userId ∧
    (∃ row, w.db.users.byId assignRoleModel.userId = some row) ∧
    ∃ roles, w.db.activeRoles env.uuid assignRoleModel.rolesId = some roles ∧
      roles.length = assignRoleModel.rolesId.length

theorem findOne_byId {t : UserTable} {uuid : String → Option String} {id : String}
    (hUuid : uuid id = some id) : t.findOne uuid { id := some (.val id) } = some (t.byId id) := by
  simp [UserTable.findOne, UserTable.idCondition, UserTable.emailCondition, hUuid, UserTable.byId]

theorem succeeds_assignRole {assignRoleModel : AssignRoleModel} :
    Succeeds env (AuthService.assignRole assignRoleModel) w ↔ AssignsRole env assignRoleModel w := by
  simp only [AssignsRole, quiet_succ]
  constructor
  · intro h
    obtain ⟨roles, w₁, hRoles, h⟩ := succeeds_bind.mp h
    obtain ⟨hFault, hActive, rfl⟩ := findRoles_ok.mp hRoles
    obtain ⟨found, w₂, hFind, h⟩ := succeeds_bind.mp h
    obtain ⟨hFault₁, ⟨user, hUser, rfl⟩, rfl⟩ := findUser_ok.mp hFind
    split at h
    · exact absurd h (not_succeeds_throw _ _)
    · rename_i hLength
      cases user with
      | none => exact absurd h (not_succeeds_throw _ _)
      | some row =>
        obtain ⟨saved, w₃, hSave⟩ := succeeds_map.mp h
        obtain ⟨hFault₂, users, hTable, _⟩ := saveUser_ok.mp hSave
        obtain ⟨hUuid, hRow⟩ := findOne_id hUser
        have hId := save_named hRow hUuid (by rfl) (by rfl) hTable
        rw [← hId] at hUuid hRow
        exact ⟨⟨hFault, hFault₁, hFault₂, quiet_zero _⟩, hUuid, ⟨row, hRow⟩, roles, hActive,
          not_not.mp hLength⟩
  · rintro ⟨⟨hFault, hFault₁, hFault₂, -⟩, hUuid, ⟨row, hRow⟩, roles, hActive, hLength⟩
    have hId := (UserTable.byId_eq_some.mp hRow).2
    refine succeeds_bind.mpr ⟨_, _, findRoles_ok.mpr ⟨hFault, hActive, rfl⟩, ?_⟩
    refine succeeds_bind.mpr ⟨_, _, findUser_ok.mpr ⟨hFault₁, ⟨_, findOne_byId hUuid, rfl⟩, rfl⟩, ?_⟩
    have hFound : w.tick.db.users.byId assignRoleModel.userId = some row := hRow
    rw [if_neg (not_not.mpr hLength), hFound]
    apply succeeds_map.mpr
    have hRow' : w.db.users.byId row.id = some row := by rwa [hId]
    obtain ⟨users, hTable, _⟩ := save_stored hRow' (by exact congrArg Js.val hId.symm)
      (row.write_roles assignRoleModel.userId _) rfl
    exact ⟨_, _, saveUser_ok.mpr ⟨hFault₂, users, hTable, rfl⟩⟩

theorem mem_replaced {t t' : UserTable} {row new : UserRow} (hRow : t.byId row.id = some row)
    (hId : new.id = row.id) (hRows : t'.rows = UserTable.replace new t.rows) : new ∈ t'.rows := by
  rw [hRows]
  exact List.mem_map.mpr ⟨row, (UserTable.byId_eq_some.mp hRow).1, if_pos hId.symm⟩

theorem assignRole_returns {assignRoleModel : AssignRoleModel} {user : UserModel}
    (hRun : run (alone env) (AuthService.assignRole assignRoleModel) w = (.ok user, w')) :
    ∃ row ∈ w'.db.users.rows, user.password = .val row.password := by
  obtain ⟨roles, w₁, hRoles, hRun⟩ := (run_bind_ok _).mp hRun
  obtain ⟨hFault, hActive, rfl⟩ := findRoles_ok.mp hRoles
  obtain ⟨found, w₂, hFind, hRun⟩ := (run_bind_ok _).mp hRun
  obtain ⟨hFault₁, ⟨user, hUser, rfl⟩, rfl⟩ := findUser_ok.mp hFind
  split at hRun
  · cases hRun
  · cases user with
    | none => cases hRun
    | some row =>
      obtain ⟨saved, w₃, hSave, hPure⟩ := (run_bind_ok _).mp hRun
      cases hPure
      obtain ⟨hFault₂, users, hTable, rfl⟩ := saveUser_ok.mp hSave
      obtain ⟨hUuid, hRow⟩ := findOne_id hUser
      have hId := save_named hRow hUuid (by rfl) (by rfl) hTable
      obtain ⟨users', hTable', hRows⟩ := save_stored hRow (by exact congrArg Js.val hId)
        (row.write_roles assignRoleModel.userId _) rfl
      cases hTable.symm.trans hTable'
      rw [SqlGlobalMapper.mapClass_default]
      refine ⟨_, mem_replaced hRow (UserTable.touch_id _ _ _ (by rfl)) hRows, ?_⟩
      unfold UserTable.touch
      split <;> rfl

end Roles

end Manejaplus
