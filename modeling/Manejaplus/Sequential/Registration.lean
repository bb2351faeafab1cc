import Manejaplus.Sequential.Login

/-! # How an account comes to exist -/
namespace Manejaplus
open Effect Prog
set_option autoImplicit false

variable {env : Env} {w w' : World}

def CreateUserDto.model (dto : CreateUserDto) (password : String) : UserModel where
  name := .val dto.name
  email := .val dto.email
  password := .val password
  phone := .val dto.phone
  origin := .val "web"
  attemptsFailed := .val 0
  isVerified := .val false
  isBlocked := .val false

def CreateUserDto.row (dto : CreateUserDto) (id password : String) (now : Time) : UserRow where
  id := id
  name := dto.name
  email := dto.email
  password := password
  phone := some dto.phone
  otp := none
  origin := some "web"
  attemptsFailed := some 0
  isVerified := some false
  isBlocked := some false
  accessToken := none
  refreshToken := none
  status := true
  maintainSession := false
  organization := none
  lastConnection := none
  roles := []
  createdAt := now
  updatedAt := now

theorem ofEntity_model (dto : CreateUserDto) (id password : String) (now : Time) :
    UserRow.ofEntity id now (dto.model password) = some (dto.row id password now) := rfl

def verifyLink (token : String) : String :=
  "https://maicoldev.tech:3001/manejaplusback/auth/verify-email/" ++ token

inductive RegistrationEnds (env : Env) (dto : CreateUserDto) (w : World) :
    Except Exception UserModel → State → Prop
  | refused {e : Exception} : RegistrationEnds env dto w (.error e) w.state
  | undone {e : Exception} {id password : String} {now : Time} (c : Choice) (payload : Payload) :
      payload = Outside.payload c ((dto.row id password now).returning (dto.model password))
        AUTH.TIME_VERIFY_ACCOUNT →
      RegistrationEnds env dto w (.error e) (w.state.sign [⟨env.sign payload, payload⟩])
  | registered {id password : String} {now : Time} {users : UserTable} {saved : UserModel}
      (c : Choice) (payload : Payload) :
      w.db.users.byEmail dto.email = none →
      users.rows = w.db.users.rows ++ [dto.row id password now] →
      saved = (dto.row id password now).returning (dto.model password) →
      payload = Outside.payload c saved AUTH.TIME_VERIFY_ACCOUNT →
      RegistrationEnds env dto w (.ok { name := .val dto.name, email := .val dto.email })
        { w.state.sign [⟨env.sign payload, payload⟩] with
          db := { w.db with users }
          mails := w.state.mails ++ [⟨.val dto.email, "VERIFY_ACCOUNT",
            { user := saved, callbackUrl := some (verifyLink (env.sign payload)) }⟩] }

theorem encriptPassword_cases {user : UserModel} {r : Except Exception UserModel}
    (hRun : run (alone env) (UserModel.encriptPassword user) w = (r, w')) :
    w'.state = w.state ∧ ((∃ e, r = .error e) ∨
      ∃ password, r = .ok { user with password := .val password }) := by
  obtain ⟨e, rfl, hHash⟩ | ⟨password, w₁, hHash, hEnd⟩ := run_bind_cases _ hRun
  · exact ⟨(hashPassword_cases hHash).1, .inl ⟨e, rfl⟩⟩
  · cases hEnd
    exact ⟨(hashPassword_cases hHash).1, .inr ⟨password, rfl⟩⟩

theorem generateLink_cases {data : UserObject} {r : Except Exception String}
    (hRun : run (alone env) (UserService.generateLinkJwtToVerifyEmail data) w = (r, w')) :
    (w'.state = w.state ∧ ∃ e, r = .error e) ∨
    ∃ payload, payload = Outside.payload w.choice data AUTH.TIME_VERIFY_ACCOUNT ∧
      r = .ok (verifyLink (env.sign payload)) ∧
      w'.state = w.state.sign [⟨env.sign payload, payload⟩] := by
  obtain ⟨url, rfl, hTry⟩ | ⟨e, w₁, hTry, hCatch⟩ := run_catching_cases _ hRun
  · obtain ⟨e, hErr, _⟩ | ⟨token, w₁, hSign, hEnd⟩ := run_bind_cases _ hTry
    · cases hErr
    · cases hEnd
      obtain ⟨_, hFails⟩ | ⟨payload, hPayload, hOk, hState⟩ := signAsync_cases hSign
      · cases hFails.1
      · cases hOk
        exact .inr ⟨payload, hPayload, rfl, hState⟩
  · cases hCatch
    obtain ⟨e', _, hSign⟩ | ⟨token, w₂, hSign, hEnd⟩ := run_bind_cases _ hTry
    · obtain ⟨hState, _⟩ | ⟨payload, _, hOk, _⟩ := signAsync_cases hSign
      · exact .inl ⟨hState, _, rfl⟩
      · cases hOk
    · cases hEnd

/-- The rest of a registration, once the row is there: its link is signed and mailed. -/
theorem mailsLink_cases {saved : UserObject} {r : Except Exception UserModel}
    (hRun : run (alone env) (do
      let callbackUrl ← UserService.generateLinkJwtToVerifyEmail saved
      Async.sendEmail
        ⟨saved.email, "VERIFY_ACCOUNT", { user := saved, callbackUrl := some callbackUrl }⟩
      return SqlGlobalMapper.mapClass saved { get := some ["name", "email"] }) w = (r, w')) :
    (w'.state = w.state ∧ ∃ e, r = .error e) ∨
    ∃ payload, payload = Outside.payload w.choice saved AUTH.TIME_VERIFY_ACCOUNT ∧
      ((w'.state = w.state.sign [⟨env.sign payload, payload⟩] ∧ ∃ e, r = .error e) ∨
        (r = .ok (SqlGlobalMapper.mapClass saved { get := some ["name", "email"] }) ∧
          w'.state = { w.state.sign [⟨env.sign payload, payload⟩] with
            mails := w.state.mails ++ [⟨saved.email, "VERIFY_ACCOUNT",
              { user := saved, callbackUrl := some (verifyLink (env.sign payload)) }⟩] })) := by
  obtain ⟨e, rfl, hLink⟩ | ⟨url, w₁, hLink, hRest⟩ := run_bind_cases _ hRun <;>
    obtain ⟨hState₁, e, hErr⟩ | ⟨payload, hPayload, hOk, hState₁⟩ := generateLink_cases hLink
  · exact .inl ⟨hState₁, _, rfl⟩
  · cases hOk
  · cases hErr
  · cases hOk
    refine .inr ⟨payload, hPayload, ?_⟩
    obtain ⟨e, rfl, hMail⟩ | ⟨_, w₂, hMail, hEnd⟩ := run_bind_cases _ hRest <;>
      obtain ⟨hState₂, hFails⟩ | ⟨hOk, hState₂⟩ := sendEmail_cases hMail
    · exact .inl ⟨hState₂.trans hState₁, _, rfl⟩
    · cases hOk
    · cases hFails.1
    · cases hEnd
      rw [hState₂, hState₁]
      exact .inr ⟨rfl, rfl⟩

theorem createUser_cases {dto : CreateUserDto} {r : Except Exception UserModel}
    (hRun : run (alone env) (UserController.createUser dto) w = (r, w')) :
    RegistrationEnds env dto w r w'.state := by
  unfold UserController.createUser UserService.createUser at hRun
  obtain ⟨hState, hFails⟩ | ⟨w₁, w₂, hState₁, hRest₁, hBody, hState⟩ :=
      transactional_cases (plain_of_among (performs_createUser _) (by decide)) hRun
  · cases hFails.1
    exact hState ▸ .refused
  rw [hState]
  have hDb₁ := World.state_db hState₁
  obtain ⟨e, rfl, hFind⟩ | ⟨found, w₃, hFind, hBody₁⟩ := run_bind_cases _ hBody <;>
    obtain ⟨hState₃, hFound⟩ := getUserByEmail_cases hFind
  · rw [hState₃, hState₁]
    exact .refused
  obtain hFails | hOk := hFound
  · cases hFails.1
  cases hOk
  rw [hDb₁] at hBody₁
  cases hEmail : w.db.users.byEmail dto.email with
  | some row =>
    rw [hEmail] at hBody₁
    cases hBody₁
    rw [hState₃, hState₁]
    exact .refused
  | none =>
    rw [hEmail] at hBody₁
    obtain ⟨e, rfl, hHash⟩ | ⟨model, w₄, hHash, hBody₂⟩ := run_bind_cases _ hBody₁ <;>
      obtain ⟨hState₄, hHashed⟩ := encriptPassword_cases hHash
    · rw [hState₄, hState₃, hState₁]
      exact .refused
    obtain ⟨e, hErr⟩ | ⟨password, hOk⟩ := hHashed
    · cases hErr
    cases hOk
    have hState' : w₄.state = w.state := hState₄.trans (hState₃.trans hState₁)
    obtain ⟨e, rfl, hSave⟩ | ⟨saved, w₅, hSave, hBody₃⟩ := run_bind_cases _ hBody₂ <;>
      obtain ⟨hState₅, hFails⟩ | ⟨id, now, row, users, hNew, hUsers, hOk, hState₅⟩ :=
          save_new_cases (by rfl) hSave
    · rw [hState₅, hState']
      exact .refused
    · cases hOk
    · cases hFails
    cases (ofEntity_model dto id password now).symm.trans hNew
    cases hOk
    rw [hState', World.state_db hState'] at hState₅
    rw [World.state_db hState'] at hUsers
    obtain ⟨hState₆, e, rfl⟩ | ⟨payload, hPayload, ⟨hState₆, e, rfl⟩ | ⟨rfl, hState₆⟩⟩ :=
        mailsLink_cases hBody₃
    · rw [hState₆, hState₅]
      exact .refused
    · rw [hState₆, hState₅]
      exact .undone _ payload hPayload
    · rw [hState₆, hState₅]
      exact .registered _ payload hEmail hUsers rfl hPayload

section Google

variable {profile : GoogleProfile}

def GoogleProfile.model (cases : CaseMapping) (profile : GoogleProfile) (password : String) :
    UserModel where
  name := .val (cases.toUpperCase profile.name)
  email := .val (cases.toLowerCase profile.email)
  password := .val password
  maintainSession := .val true
  origin := .val profile.provider

/-- The row that it becomes: what the model leaves out takes the defaults of the columns. -/
def GoogleProfile.row (cases : CaseMapping) (profile : GoogleProfile) (id password : String)
    (now : Time) : UserRow where
  id := id
  name := cases.toUpperCase profile.name
  email := cases.toLowerCase profile.email
  password := password
  phone := none
  otp := none
  origin := some profile.provider
  attemptsFailed := some 0
  isVerified := some false
  isBlocked := some true
  accessToken := none
  refreshToken := none
  status := true
  maintainSession := true
  organization := none
  lastConnection := none
  roles := []
  createdAt := now
  updatedAt := now

theorem ofEntity_googleModel (cases : CaseMapping) (id password : String) (now : Time) :
    UserRow.ofEntity id now (profile.model cases password) =
      some (profile.row cases id password now) := rfl

theorem stands_google (cases : CaseMapping) (id password : String) (now : Time) :
    Stands ((profile.row cases id password now).returning (profile.model cases password))
      (profile.row cases id password now) where
  id := rfl
  email := rfl
  write _ _ _ := rfl

inductive GoogleEnds (env : Env) (profile : GoogleProfile) (w : World) :
    Except Exception JWTTokens → State → Prop
  | refused {e : Exception} : GoogleEnds env profile w (.error e) w.state
  | known {row : UserRow} {w₁ : World} {r : Except Exception JWTTokens} {s : State} :
      w.db.users.byEmail profile.email = some row → w₁.state = w.state → w.Rest w₁ →
      Session env row w₁ r s → GoogleEnds env profile w r s
  | created {id password : String} {now : Time} {users : UserTable} {w₁ : World}
      {r : Except Exception JWTTokens} {s : State} :
      w.db.users.byEmail profile.email = none →
      users.rows = w.db.users.rows ++ [profile.row env.cases id password now] →
      w₁.state = { w.state with db := { w.db with users } } → w.Rest w₁ →
      Session env (profile.row env.cases id password now) w₁ r s → GoogleEnds env profile w r s

theorem byId_append {t t' : UserTable} {row : UserRow} (hRows : t'.rows = t.rows ++ [row]) :
    t'.byId row.id = some row :=
  UserTable.byId_eq_some.mpr ⟨by simp [hRows], rfl⟩

theorem createGoogleUser_cases {r : Except Exception UserEntity}
    (hRun : run (alone env) (AuthService.createGoogleUser env.cases profile) w = (r, w')) :
    (w'.state = w.state ∧ ∃ e, r = .error e) ∨
    ∃ id password now users,
      users.rows = w.db.users.rows ++ [profile.row env.cases id password now] ∧
      r = .ok ((profile.row env.cases id password now).returning
        (profile.model env.cases password)) ∧
      w'.state = { w.state with db := { w.db with users } } := by
  obtain ⟨e, rfl, hHash⟩ | ⟨password, w₁, hHash, hSave⟩ := run_bind_cases _ hRun <;>
    obtain ⟨hState₁, hHashed⟩ := hashPassword_cases hHash
  · exact .inl ⟨hState₁, e, rfl⟩
  obtain ⟨hState₂, hFails⟩ | ⟨id, now, row, users, hNew, hUsers, hOk, hState₂⟩ :=
      save_new_cases (by rfl) hSave
  · exact .inl ⟨hState₂.trans hState₁, _, hFails⟩
  · cases (ofEntity_googleModel env.cases id password now).symm.trans hNew
    rw [World.state_db hState₁] at hUsers hState₂
    rw [hState₁] at hState₂
    exact .inr ⟨id, password, now, users, hUsers, hOk, hState₂⟩

theorem googleLoginUser_cases {r : Except Exception JWTTokens}
    (hRun : run (alone env) (AuthService.googleLoginUser env.cases (some profile)) w = (r, w')) :
    GoogleEnds env profile w r w'.state := by
  obtain ⟨e, rfl, hUser⟩ | ⟨user, w₁, hUser, hLogin⟩ := run_bind_cases _ hRun <;>
    obtain ⟨e, hErr, hFind⟩ | ⟨found, w₂, hFind, hCreate⟩ := run_bind_cases _ hUser <;>
    obtain ⟨hState₂, hFound⟩ := getUserByEmail_cases hFind
  · rw [hState₂]
    exact .refused
  · obtain hFails | hOk := hFound
    · cases hFails.1
    cases hOk
    cases hEmail : w.db.users.byEmail profile.email with
    | some row =>
      rw [hEmail] at hCreate
      cases hCreate
    | none =>
      rw [hEmail] at hCreate
      obtain ⟨hState₃, _⟩ | ⟨_, _, _, _, _, hOk, _⟩ := createGoogleUser_cases hCreate
      · rw [hState₃, hState₂]
        exact .refused
      · cases hOk
  · cases hErr
  · obtain hFails | hOk := hFound
    · cases hFails.1
    cases hOk
    rw [SqlGlobalMapper.mapClass_default] at hLogin
    cases hEmail : w.db.users.byEmail profile.email with
    | some row =>
      rw [hEmail] at hCreate
      cases hCreate
      have hRow : w₁.db.users.byId row.id = some row := by
        rw [World.state_db hState₂]
        exact byId_of_byEmail hEmail
      exact .known hEmail hState₂ (rest_run hFind)
        (handleUserLogin_cases hRow (stands_entity row) hLogin)
    | none =>
      rw [hEmail] at hCreate
      obtain ⟨_, e, hErr⟩ | ⟨id, password, now, users, hUsers, hOk, hState₃⟩ :=
          createGoogleUser_cases hCreate
      · cases hErr
      cases hOk
      rw [World.state_db hState₂] at hUsers hState₃
      rw [hState₂] at hState₃
      have hRow : w₁.db.users.byId id = some (profile.row env.cases id password now) := by
        rw [show w₁.db.users = users from congrArg (fun s => s.db.users) hState₃]
        exact byId_append hUsers
      exact .created hEmail hUsers hState₃ (rest_run hUser)
        (handleUserLogin_cases hRow (stands_google env.cases id password now) hLogin)

end Google

end Manejaplus
