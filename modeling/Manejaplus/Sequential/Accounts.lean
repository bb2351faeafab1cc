import Manejaplus.Sequential.Operations

/-! # Rows under the repositories, with nobody else around

Each function of the services has one lemma that lists how it can end. Whatever
a save does to a row is said on the row, past the entity and the model.
-/
namespace Manejaplus
open Effect Prog
set_option autoImplicit false

namespace UserRow

/-- The row after a failed credential check. -/
def recordFailure (row : UserRow) : UserRow :=
  let attemptsFailed := row.attemptsFailed.getD 0 + 1
  { row with
    attemptsFailed := some attemptsFailed
    isBlocked := if USER_CONSTANTS.NUMBER_ATTEMPS_TO_BLOCk_USER ≤ attemptsFailed then some true
      else row.isBlocked }

/-- The row after a login. -/
def session (accessToken refreshToken : String) (now : Time) (row : UserRow) : UserRow :=
  { row with
    accessToken := some accessToken
    refreshToken := some refreshToken
    lastConnection := some now }

/-- What a save that is not refused leaves. -/
theorem write_eq_some {row row' : UserRow} {e : UserEntity} (h : row.write e = some row') :
    ∃ name email password status maintainSession createdAt,
      e.name.writeNotNull row.name = some name ∧ e.email.writeNotNull row.email = some email ∧
      e.password.writeNotNull row.password = some password ∧
      e.status.writeNotNull row.status = some status ∧
      e.maintainSession.writeNotNull row.maintainSession = some maintainSession ∧
      e.createdAt.writeNotNull row.createdAt = some createdAt ∧
      row' = { row with
        name, email, password, status, maintainSession, createdAt
        phone := e.phone.write row.phone
        otp := e.otp.write row.otp
        origin := e.origin.write row.origin
        attemptsFailed := e.attemptsFailed.write row.attemptsFailed
        isVerified := e.isVerified.write row.isVerified
        isBlocked := e.isBlocked.write row.isBlocked
        accessToken := e.accessToken.write row.accessToken
        refreshToken := e.refreshToken.write row.refreshToken
        lastConnection := e.lastConnection.write row.lastConnection
        roles := ((roleIds e.roles).write (some row.roles)).getD [] } := by
  unfold write at h
  simp only [Option.bind_eq_bind, Option.bind_eq_some_iff] at h
  obtain ⟨name, hName, email, hEmail, password, hPassword, status, hStatus, maintainSession, hMaintain,
    createdAt, hCreated, hRow⟩ := h
  exact ⟨name, email, password, status, maintainSession, createdAt, hName, hEmail, hPassword, hStatus,
    hMaintain, hCreated, (Option.some.inj hRow).symm⟩

theorem write_id {row row' : UserRow} {e : UserEntity} (h : row.write e = some row') :
    row'.id = row.id ∧ row'.organization = row.organization := by
  obtain ⟨_, _, _, _, _, _, _, _, _, _, _, _, rfl⟩ := write_eq_some h
  exact ⟨rfl, rfl⟩

theorem write_email {row row' : UserRow} {e : UserEntity} {email : String}
    (h : row.write e = some row') (hEmail : e.email = .val email) : row'.email = email := by
  obtain ⟨_, _, _, _, _, _, _, hWritten, _, _, _, _, rfl⟩ := write_eq_some h
  rw [hEmail] at hWritten
  exact (Option.some.inj hWritten).symm

theorem write_accessToken (row : UserRow) (accessToken : String) :
    row.write { row.entity with accessToken := .val accessToken } =
      some { row with accessToken := some accessToken } := by
  simp [write, entity, roleIds]

theorem write_roles (row : UserRow) (id : String) (roles : List RoleRow) :
    row.write { row.entity with roles := .val roles, id := .val id } =
      some { row with roles := roles.map (·.id) } := by
  simp [write, entity, roleIds]

theorem ofEntity_id {id : String} {now : Time} {e : UserEntity} {row : UserRow}
    (h : ofEntity id now e = some row) : row.id = id := by
  unfold ofEntity at h
  simp only [Option.bind_eq_bind, Option.bind_eq_some_iff] at h
  obtain ⟨_, _, _, _, _, _, _, _, _, _, hRow⟩ := h
  cases hRow
  rfl

/-- What a request saves that has found this row and then failed its credential check. -/
def recorded (row : UserRow) : UserEntity :=
  SqlGlobalMapper.mapClass
    (UserModel.incrementFailedAttempts (SqlGlobalMapper.mapClassMethod row.entity))

/-- The columns that a save of a loaded object never writes stay the stored row's. -/
def under (seen current : UserRow) : UserRow :=
  { seen with
    id := current.id
    organization := current.organization
    roles := current.roles
    updatedAt := current.updatedAt }

theorem recorded_id (row : UserRow) : row.recorded.id = .val row.id := by
  rw [recorded, SqlGlobalMapper.mapClass_default, SqlGlobalMapper.mapClassMethod_entity]
  rfl

theorem write_recorded (seen current : UserRow) :
    current.write seen.recorded = some (seen.recordFailure.under current) := by
  have hCount : UserModel.increment (Js.ofOption seen.attemptsFailed) =
      .val (seen.attemptsFailed.getD 0 + 1) := by
    cases seen.attemptsFailed <;> rfl
  rw [recorded, SqlGlobalMapper.mapClass_default, SqlGlobalMapper.mapClassMethod_entity]
  by_cases hLimit : USER_CONSTANTS.NUMBER_ATTEMPS_TO_BLOCk_USER ≤ seen.attemptsFailed.getD 0 + 1 <;>
    simp [write, entity, roleIds, UserModel.incrementFailedAttempts, hCount,
      UserModel.reachesLimit, recordFailure, hLimit, under]

theorem write_recordFailure (row : UserRow) : row.write row.recorded = some row.recordFailure :=
  write_recorded row row

theorem write_session (row : UserRow) (accessToken refreshToken : String) (now : Time) :
    row.write { row.entity with
      accessToken := .val accessToken
      refreshToken := .val refreshToken
      lastConnection := .val now } = some (row.session accessToken refreshToken now) := by
  simp [write, entity, roleIds, session]

end UserRow

/-- The row `row` is now `row'`, up to `updatedAt`; no other row has changed. -/
def UserTable.Updated (t t' : UserTable) (row row' : UserRow) : Prop :=
  ∃ now, t'.rows = replace (touch now row row') t.rows

variable {env : Env} {w w' : World}

def World.Reads (w : World) (now : Time) : Prop := ∀ t, w.ClockAt t → now = t

theorem World.reads_choice (w : World) : w.Reads w.choice.now := fun _ h => h 0

theorem World.Reads.of_rest {now : Time} (h : w'.Reads now) (hRest : w.Rest w') : w.Reads now :=
  fun t hClock => h t (hClock.rest hRest)

theorem Fails.of_rest {α : Type} {r : Except Exception α} (h : Fails w' r) (hRest : w.Rest w') :
    Fails w r := ⟨h.1, fun hCalm => h.2 (hCalm.rest hRest)⟩

theorem Fails.map {α β : Type} {e : Exception} (h : Fails w (.error e : Except Exception α)) :
    Fails w (.error e : Except Exception β) := ⟨by cases h.1; rfl, h.2⟩

theorem byId_of_byEmail {t : UserTable} {email : String} {row : UserRow}
    (h : t.byEmail email = some row) : t.byId row.id = some row :=
  UserTable.byId_eq_some.mpr ⟨(UserTable.byEmail_eq_some.mp h).1, rfl⟩

theorem getUserByEmail_cases {email : String} {r : Except Exception (Option UserEntity)}
    (hRun : run (alone env)
      (UserRepositoryImpl.getUserByField { email := some (.val email) }) w = (r, w')) :
    w'.state = w.state ∧
      (Fails w r ∨ r = .ok ((w.db.users.byEmail email).map UserRow.entity)) := by
  have hFind : UserRepositoryImpl.getUserByField { email := some (.val email) } =
      Async.findUser { email := some (.val email) } := by
    simp [UserRepositoryImpl.getUserByField, UserRepositoryImpl.conditions]
  rw [hFind] at hRun
  have h := findUser_cases hRun
  rwa [UserTable.findOne_email] at h

theorem save_stored {t : UserTable} {uuid : String → Option String} {fresh : String} {now : Time}
    {e : UserEntity} {row row' : UserRow} (hRow : t.byId row.id = some row)
    (hId : e.id = .val row.id) (hWrite : row.write e = some row') (hEmail : row'.email = row.email) :
    ∃ t', t.save uuid fresh now e =
        some (UserTable.answer now row row' e, t') ∧
      t'.rows = UserTable.replace (UserTable.touch now row row') t.rows := by
  obtain ⟨t', hRows, hUpdated⟩ := UserTable.ofRows?_replace hRow
    (UserTable.touch_id now row row' (UserRow.write_id hWrite).1)
    (UserTable.touch_email now row row' hEmail)
  refine ⟨t', ?_, hUpdated⟩
  simp only [UserTable.save, hId, hRow, hWrite, hRows, Option.bind_eq_bind, Option.bind_some]

theorem save_cases {e : UserEntity} {row row' : UserRow} {r : Except Exception UserEntity}
    (hRow : w.db.users.byId row.id = some row) (hId : e.id = .val row.id)
    (hWrite : row.write e = some row') (hEmail : row'.email = row.email)
    (hRun : run (alone env) (UserRepositoryImpl.save e) w = (r, w')) :
    (w'.state = w.state ∧ Fails w r) ∨
    ∃ now users, r = .ok (UserTable.answer now row row' e) ∧ w.db.users.Updated users row row' ∧
      w'.state = { w.state with db := { w.db with users } } := by
  obtain hFails | hSave := saveUser_cases hRun
  · exact .inl hFails
  · obtain ⟨users, hTable, hUsers⟩ := @save_stored w.db.users env.uuid w.choice.uuid w.choice.now
      e row row' hRow hId hWrite hEmail
    rw [hTable] at hSave
    exact .inr ⟨_, users, hSave.1, ⟨_, hUsers⟩, hSave.2⟩

theorem save_new_cases {e : UserEntity} {r : Except Exception UserEntity} (hId : e.id = .undefined)
    (hRun : run (alone env) (UserRepositoryImpl.save e) w = (r, w')) :
    (w'.state = w.state ∧ r = .error .external) ∨
    ∃ id now row users, UserRow.ofEntity id now e = some row ∧
      users.rows = w.db.users.rows ++ [row] ∧ r = .ok (row.returning e) ∧
      w'.state = { w.state with db := { w.db with users } } := by
  obtain ⟨hState, hFails⟩ | hSave := saveUser_cases hRun
  · exact .inl ⟨hState, hFails.1⟩
  · simp only [UserTable.save, hId, UserTable.insert] at hSave
    cases hRow : UserRow.ofEntity w.choice.uuid w.choice.now e with
    | none =>
      rw [hRow] at hSave
      exact .inl ⟨hSave.2, hSave.1⟩
    | some row =>
      cases hRows : UserTable.ofRows? (w.db.users.rows ++ [row]) with
      | none =>
        simp only [hRow, hRows, Option.bind_eq_bind, Option.bind_some, Option.bind_none] at hSave
        exact .inl ⟨hSave.2, hSave.1⟩
      | some users =>
        simp only [hRow, hRows, Option.bind_eq_bind, Option.bind_some] at hSave
        exact .inr ⟨_, _, row, users, hRow, UserTable.ofRows?_rows hRows, hSave.1, hSave.2⟩

theorem handleFailedLoginAttempt_cases {row : UserRow} {r : Except Exception Unit}
    (hRow : w.db.users.byId row.id = some row)
    (hRun : run (alone env) (AuthService.handleFailedLoginAttempt (some row.entity)) w = (r, w')) :
    (w'.state = w.state ∧ Fails w r) ∨
    ∃ users, r = .ok () ∧ w.db.users.Updated users row row.recordFailure ∧
      w'.state = { w.state with db := { w.db with users } } := by
  obtain ⟨e, rfl, hSave⟩ | ⟨saved, w₁, hSave, hRest⟩ := run_bind_cases _ hRun <;>
    obtain ⟨hState, hFails⟩ | ⟨now, users, hOk, hUsers, hState⟩ :=
      save_cases hRow row.recorded_id row.write_recordFailure rfl hSave
  · exact .inl ⟨hState, hFails.map⟩
  · cases hOk
  · exact absurd hFails.1 nofun
  · cases hRest
    exact .inr ⟨users, rfl, hUsers, hState⟩

inductive Credentials (env : Env) (loginModel : LoginModel) (w : World) :
    Except Exception UserModel → State → Prop
  | fails : ¬ w.Calm → Credentials env loginModel w (.error .external) w.state
  | unknown : w.db.users.byEmail loginModel.email = none →
      Credentials env loginModel w (.error AuthService.invalidCredentials) w.state
  | wrong {row : UserRow} {users : UserTable} :
      w.db.users.byEmail loginModel.email = some row →
      (w.Calm → env.compare loginModel.password row.password = false) →
      w.db.users.Updated users row row.recordFailure →
      Credentials env loginModel w (.error AuthService.invalidCredentials)
        { w.state with db := { w.db with users } }
  | right {row : UserRow} : w.db.users.byEmail loginModel.email = some row →
      env.compare loginModel.password row.password = true →
      Credentials env loginModel w (.ok row.entity) w.state

theorem credentialsFail_cases {loginModel : LoginModel} {row : UserRow} {r : Except Exception Bool}
    (hRun : run (alone env) (AuthService.credentialsFail loginModel (some row.entity)) w = (r, w')) :
    w'.state = w.state ∧ ∃ same, r = .ok !same ∧
      (same = true → env.compare loginModel.password row.password = true) ∧
      (w.Calm → same = env.compare loginModel.password row.password) := by
  obtain ⟨e, rfl, hCompare⟩ | ⟨a, w₁, hCompare, hRest⟩ := run_bind_cases _ hRun <;>
    obtain ⟨hState, same, hSame, hTrue, hCalm⟩ := comparePasswords_cases hCompare
  · cases hSame
  · cases hSame
    cases hRest
    exact ⟨hState, _, rfl, hTrue, hCalm⟩

theorem World.state_db {w w' : World} (h : w'.state = w.state) : w'.db = w.db :=
  congrArg State.db h

theorem validateUserCredentials_cases {loginModel : LoginModel} {r : Except Exception UserModel}
    (hRun : run (alone env) (AuthService.validateUserCredentials loginModel) w = (r, w')) :
    Credentials env loginModel w r w'.state := by
  obtain ⟨e, rfl, hFind⟩ | ⟨found, w₁, hFind, hCheck⟩ := run_bind_cases _ hRun <;>
    obtain ⟨hState₁, hFound⟩ := getUserByEmail_cases hFind
  · obtain hFails | hOk := hFound
    · cases hFails.1
      exact hState₁ ▸ .fails hFails.2
    · cases hOk
  have hRest₁ := rest_run hFind
  obtain hFails | hOk := hFound
  · cases hFails.1
  cases hOk
  cases hEmail : w.db.users.byEmail loginModel.email with
  | none =>
    rw [hEmail] at hCheck
    cases hCheck
    exact hState₁ ▸ .unknown hEmail
  | some row =>
    rw [hEmail] at hCheck
    obtain ⟨e, rfl, hCompare⟩ | ⟨failed, w₂, hCompare, hEnd⟩ := run_bind_cases _ hCheck <;>
      obtain ⟨hState₂, same, hSame, hTrue, hCalm⟩ := credentialsFail_cases hCompare
    · cases hSame
    cases hSame
    have hRest₂ := hRest₁.trans (rest_run hCompare)
    have hState : w₂.state = w.state := hState₂.trans hState₁
    cases same with
    | true =>
      cases hEnd
      rw [hState]
      simpa using Credentials.right hEmail (hTrue rfl)
    | false =>
      have hRow : w₂.db.users.byId row.id = some row := by
        rw [World.state_db hState]
        exact byId_of_byEmail hEmail
      obtain ⟨e, rfl, hSave⟩ | ⟨_, w₃, hSave, hThrow⟩ := run_bind_cases _ hEnd <;>
        obtain ⟨hState₃, hFails⟩ | ⟨users, hOk, hUsers, hState₃⟩ :=
            handleFailedLoginAttempt_cases hRow hSave
      · cases hFails.1
        rw [hState₃, hState]
        exact .fails (hFails.of_rest hRest₂).2
      · cases hOk
      · cases hFails.1
      · cases hThrow
        rw [World.state_db hState] at hUsers
        rw [hState₃, hState, World.state_db hState]
        exact .wrong hEmail (fun h => (hCalm (h.rest hRest₁)).symm) hUsers

end Manejaplus
