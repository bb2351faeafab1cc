import Manejaplus.Sequential.LoginErrors
import Manejaplus.Users.CreateUserBody

/-! # Whether an account is found again by its e-mail -/
namespace Manejaplus
open Effect Prog
set_option autoImplicit false

variable {env : Env} {w w' : World} {row : UserRow}

section Kept

theorem Change.keepsCredentials {q : Request} {out : Outcome} {row row' : UserRow}
    (h : Change q out row row') : row'.email = row.email ∧ row'.password = row.password := by
  cases h <;> exact ⟨rfl, rfl⟩

variable (env) in
/-- No run of requests changes the e-mail or the password hash of an account. -/
theorem credentials_kept (rs : List Request) (hRow : w.db.users.byId row.id = some row) :
    ∃ row', (reach (serveAlone env) w rs).db.users.byId row.id = some row' ∧
      row'.email = row.email ∧ row'.password = row.password := by
  induction rs with
  | nil => exact ⟨row, hRow, rfl, rfl⟩
  | cons q rs ih =>
    obtain ⟨stored, hStored, hEmail, hPassword⟩ := ih
    have hId : stored.id = row.id := (UserTable.byId_eq_some.mp hStored).2
    rw [← hId] at hStored ⊢
    obtain ⟨row', updatedAt, hAfter, ⟨_, hChange⟩ | ⟨_, rfl⟩⟩ :=
        (served_event env q (reach (serveAlone env) w rs)).stored hStored
    · obtain ⟨hEmail', hPassword'⟩ := hChange.keepsCredentials
      exact ⟨_, hAfter, hEmail'.trans hEmail, hPassword'.trans hPassword⟩
    · exact ⟨_, hAfter, hEmail, hPassword⟩

end Kept

section Registered

/-- The password of the new row is the hash of the one that was sent. -/
theorem createUser_password {dto : CreateUserDto} {user : UserModel}
    (hRun : run (alone env) (UserController.createUser dto) w = (.ok user, w')) :
    ∃ row salt, w'.db.users.byId row.id = some row ∧ row.email = dto.email ∧
      row.password = env.hash salt dto.password := by
  unfold UserController.createUser UserService.createUser at hRun
  obtain ⟨_, hFails⟩ | ⟨w₁, w₂, _, _, hBody, hState⟩ :=
    transactional_cases (plain_of_among (performs_createUser _) (by decide)) hRun
  · cases hFails.1
  obtain ⟨found, w₃, hFind, hBody₁⟩ := (run_bind_ok _).mp hBody
  cases found with
  | some user => cases hBody₁
  | none =>
    obtain ⟨model, w₄, hHash, hBody₂⟩ := (run_bind_ok _).mp hBody₁
    obtain ⟨password, w₅, hHash, hPure⟩ := (run_bind_ok _).mp hHash
    cases hPure
    obtain ⟨_, rfl, rfl⟩ := hashPassword_ok.mp hHash
    obtain ⟨saved, w₆, hSave, hBody₃⟩ := (run_bind_ok _).mp hBody₂
    obtain ⟨_, hError⟩ | ⟨id, now, row, users, hNew, hUsers, _, hState₆⟩ :=
        save_new_cases (by rfl) hSave
    · cases hError
    cases (ofEntity_model dto id _ now).symm.trans hNew
    obtain ⟨url, w₇, hLink, hBody₄⟩ := (run_bind_ok _).mp hBody₃
    obtain ⟨_, e, hError⟩ | ⟨payload, _, _, hState₇⟩ := generateLink_cases hLink
    · cases hError
    obtain ⟨_, w₈, hMail, hPure⟩ := (run_bind_ok _).mp hBody₄
    cases hPure
    obtain ⟨_, hFails⟩ | ⟨_, hState₈⟩ := sendEmail_cases hMail
    · cases hFails.1
    have hStored : w'.db.users = users := by
      change w'.state.db.users = users
      rw [hState, State.settle, hState₈, hState₇, hState₆]
      rfl
    refine ⟨dto.row id (env.hash w₃.choice.salt dto.password) now, _, ?_, rfl, rfl⟩
    rw [hStored]
    exact byId_append hUsers

end Registered

section Answers

variable {loginModel : LoginModel}

theorem afterCredentials_ne {e : Exception} (hRow : w.db.users.byId row.id = some row)
    (hRun : run (alone env) (do
      AuthService.checkUserStatus row.entity
      AuthService.handleOtpIfRequired row.entity loginModel
      AuthService.handleUserLogin row.entity) w = (.error e, w')) :
    e ≠ AuthService.invalidCredentials := by
  obtain ⟨e', hError, hStatus⟩ | ⟨_, w₁, hStatus, hRun₁⟩ := run_bind_cases _ hRun
  · cases hError
    obtain ⟨_, hChecked⟩ := checkUserStatus_cases hStatus
    cases hChecked <;> exact nofun
  obtain ⟨rfl, _⟩ := checkUserStatus_cases hStatus
  obtain ⟨e', hError, hOtp⟩ | ⟨_, w₂, hOtp, hLogin⟩ := run_bind_cases _ hRun₁ <;>
    have hHandled := handleOtpIfRequired_cases hRow hOtp
  · cases hError
    exact hHandled.error_ne
  have hRow₂ : w₂.db.users.byId row.id = some row := by
    rw [show w₂.db.users = w₁.db.users from hHandled.keeps.1]
    exact hRow
  have hSession := handleUserLogin_cases hRow₂ (stands_entity row) hLogin
  generalize w'.state = s at hSession
  cases hSession
  exact nofun

theorem loginUser_invalid : (serveAlone env (.loginUser loginModel) w).1 =
    .error AuthService.invalidCredentials ↔
      credentialsAnswer env loginModel w = .error AuthService.invalidCredentials := by
  rw [← validateUserCredentials_answer]
  rcases hServe : serveAlone env (.loginUser loginModel) w with ⟨out, w'⟩
  obtain ⟨r, hRun, rfl⟩ := run_map_cases _ hServe
  obtain ⟨e, rfl, hCheck⟩ | ⟨user, w₁, hCheck, hRun₁⟩ := run_bind_cases _ hRun <;> rw [hCheck]
  · simp [Except.map]
  · obtain ⟨row, rfl, hState, hEmail, _⟩ := (validateUserCredentials_cases hCheck).ok
    have hRow : w₁.db.users.byId row.id = some row := by
      rw [World.state_db hState]
      exact byId_of_byEmail hEmail
    refine iff_of_false (fun hInvalid => ?_) (fun h => nomatch h)
    cases r with
    | ok tokens => cases hInvalid
    | error e => exact afterCredentials_ne hRow hRun₁ (Except.error.inj hInvalid)

/-- The database fails, or some account is stored under the e-mail just as it was sent. -/
def AnsweredOtherwise (env : Env) (loginModel : LoginModel) (w : World) : Prop :=
  (w.outside.tape 0).fault = true ∨ ∃ row, w.db.users.byEmail loginModel.email = some row ∧
    (env.compare loginModel.password row.password = true ∨ (w.outside.tape 2).fault = true)

theorem loginUser_valid (hBcrypt : (w.outside.tape 1).fault = false) :
    (serveAlone env (.loginUser loginModel) w).1 ≠ .error AuthService.invalidCredentials ↔
      AnsweredOtherwise env loginModel w := by
  rw [ne_eq, loginUser_invalid, credentialsAnswer, AnsweredOtherwise, hBcrypt]
  cases (w.outside.tape 0).fault with
  | true => simp [AuthService.invalidCredentials]
  | false =>
    cases hEmail : w.db.users.byEmail loginModel.email with
    | none => simp
    | some row =>
      cases hCompare : env.compare loginModel.password row.password <;>
        cases (w.outside.tape 2).fault <;> simp [hCompare, AuthService.invalidCredentials]

end Answers

section Google

variable {profile : GoogleProfile} {id : String}

/-- The lookup of a Google login leads to this account, and no other gets created. -/
def FindsAgain (env : Env) (profile : GoogleProfile) (id : String) (w : World) : Prop :=
  w.choice.fault = false →
    ∃ user w', run (alone env) (AuthService.findOrCreateGoogleUser env.cases profile) w =
      (.ok user, w') ∧ user.id = .val id ∧ w'.db = w.db

theorem findsAgain_iff (hFault : w.choice.fault = false) : FindsAgain env profile id w ↔
    ∃ row, w.db.users.byEmail profile.email = some row ∧ row.id = id := by
  rw [FindsAgain, AuthService.findOrCreateGoogleUser, bind_eq, run_bind,
    getUserByEmail_ok.mpr ⟨hFault, rfl, rfl⟩]
  cases hEmail : w.db.users.byEmail profile.email with
  | some row =>
    simp only [hFault, Option.map_some, pure_eq, run_pure, Prod.mk.injEq, Except.ok.injEq,
      Option.some.injEq, forall_const, exists_eq_left']
    constructor
    · rintro ⟨_, _, ⟨rfl, _⟩, hId, _⟩
      exact Js.val.inj hId
    · rintro rfl
      exact ⟨_, _, ⟨rfl, rfl⟩, rfl, rfl⟩
  | none =>
    refine iff_of_false (fun h => ?_) (fun h => by obtain ⟨_, hNone, _⟩ := h; cases hNone)
    obtain ⟨user, w', hCreate, _, hDb⟩ := h hFault
    obtain ⟨_, e, hError⟩ | ⟨id, password, now, users, hUsers, _, hState⟩ :=
        createGoogleUser_cases hCreate
    · cases hError
    · have hRows : w'.db.users.rows = w.tick.db.users.rows := by rw [hDb]; rfl
      rw [show w'.db.users = users from congrArg (fun s => s.db.users) hState, hUsers] at hRows
      simpa using congrArg List.length hRows

theorem signsIn_profile {tokens : JWTTokens}
    (hServe : serveAlone env (.googleLoginUser (some profile)) w = (.ok (.tokens tokens), w')) :
    ∃ row w₁, SignsIn env w row w₁ w'.state ∧
      (w.db.users.byEmail profile.email = some row ∨
        (w.db.users.byEmail profile.email = none ∧
          row.email = env.cases.toLowerCase profile.email)) := by
  obtain ⟨r, hRun, hTokens⟩ := run_map_cases _ hServe
  cases r <;> cases hTokens
  exact signsIn_googleLoginUser hRun

/-- An account keeps its e-mail, so a profile leads to it always or never. -/
theorem findsAgain_later {rs : List Request} (hRow : w.db.users.byId row.id = some row)
    (hFault : (reach (serveAlone env) w rs).choice.fault = false) :
    FindsAgain env profile row.id (reach (serveAlone env) w rs) ↔ row.email = profile.email := by
  obtain ⟨kept, hKept, hEmail, _⟩ := credentials_kept env rs hRow
  obtain ⟨hMem, hId⟩ := UserTable.byId_eq_some.mp hKept
  rw [findsAgain_iff hFault]
  constructor
  · rintro ⟨found, hFound, hSame⟩
    obtain ⟨hFoundMem, hFoundEmail⟩ := UserTable.byEmail_eq_some.mp hFound
    rw [← hEmail, ← hFoundEmail, UserTable.eq_of_nodup (UserTable.nodupId _) hFoundMem hMem
      (hSame.trans hId.symm)]
  · intro hProfile
    exact ⟨kept, UserTable.byEmail_eq_some.mpr ⟨hMem, hEmail.trans hProfile⟩, hId⟩

/-- From the first login of a profile on, every later one finds the same account exactly when the
e-mail was stored as the profile spells it. -/
theorem googleLoginUser_again {tokens : JWTTokens}
    (hServe : (serveAlone env (.googleLoginUser (some profile)) w).1 = .ok (.tokens tokens)) :
    ∃ id, logsIn id (serveEvent (serveAlone env) (.googleLoginUser (some profile)) w) = true ∧
      ∀ later, FindsAgain env profile id
          (reach (serveAlone env) (serveAlone env (.googleLoginUser (some profile)) w).2 later) ↔
        (reach (serveAlone env) (serveAlone env (.googleLoginUser (some profile)) w).2
            later).choice.fault = true ∨
          (∃ row, w.db.users.byEmail profile.email = some row) ∨
          env.cases.toLowerCase profile.email = profile.email := by
  obtain ⟨row, w₁, hSigns, hAccount⟩ := signsIn_profile (Prod.ext hServe rfl)
  obtain ⟨stored, hStored, hId, hEmail⟩ := hSigns.stored
  rw [← hId] at hStored
  have hLogs : logsIn row.id (serveEvent (serveAlone env) (.googleLoginUser (some profile)) w) =
      true := (SignsIn.logsIn_iff (by exact hSigns) hServe).mpr rfl
  refine ⟨row.id, hLogs, fun later => ?_⟩
  cases hFault : (reach (serveAlone env)
      (serveAlone env (.googleLoginUser (some profile)) w).2 later).choice.fault with
  | true => exact iff_of_true (fun h => by rw [hFault] at h; cases h) (.inl rfl)
  | false =>
    rw [← hId]
    apply (findsAgain_later hStored hFault).trans
    simp only [hEmail, Bool.false_eq_true, false_or]
    obtain hKnown | ⟨hNone, hLower⟩ := hAccount
    · exact iff_of_true (UserTable.byEmail_eq_some.mp hKnown).2 (.inl ⟨row, hKnown⟩)
    · simp [hNone, hLower]

end Google

theorem loginUser_registered {dto : CreateUserDto} {user : Response} {later : List Request}
    {email : String} {otpCode : Option String}
    (hBcrypt : ∀ salt password, env.compare password (env.hash salt password) = true)
    (hDto : dto.email = env.cases.toLowerCase email)
    (hServe : (serveAlone env (.createUser dto) w).1 = .ok user)
    (hCompares : ((reach (serveAlone env) (serveAlone env (.createUser dto) w).2
      later).outside.tape 1).fault = false) :
    (serveAlone env (.loginUser ⟨email, dto.password, otpCode⟩)
        (reach (serveAlone env) (serveAlone env (.createUser dto) w).2 later)).1 ≠
      .error AuthService.invalidCredentials ↔
    env.cases.toLowerCase email = email ∨
      AnsweredOtherwise env ⟨email, dto.password, otpCode⟩
        (reach (serveAlone env) (serveAlone env (.createUser dto) w).2 later) := by
  rw [loginUser_valid hCompares, iff_or_self]
  intro hLower
  obtain ⟨r, hRun, hOut⟩ := run_map_cases _ (Prod.ext hServe rfl :
    serveAlone env (.createUser dto) w = (.ok user, (serveAlone env (.createUser dto) w).2))
  cases r with
  | error e => cases hOut
  | ok saved =>
    obtain ⟨row, salt, hRow, hEmail, hPassword⟩ := createUser_password hRun
    obtain ⟨kept, hKept, hKeptEmail, hKeptPassword⟩ := credentials_kept env later hRow
    refine .inr ⟨kept, UserTable.byEmail_eq_some.mpr ⟨(UserTable.byId_eq_some.mp hKept).1, ?_⟩, .inl ?_⟩
    · rw [hKeptEmail, hEmail, hDto, hLower]
    · rw [hKeptPassword, hPassword]
      exact hBcrypt salt dto.password

/-- Whoever registered can log in, and whoever came from Google comes back to the same account,
exactly when the e-mail is spelled as it is stored. -/
theorem same_account (env : Env)
    (hBcrypt : ∀ salt password, env.compare password (env.hash salt password) = true) :
    (∀ v body dto w user later otpCode, CreateUserBody.admitted v env.cases body = some dto →
      (serveAlone env (.createUser dto) w).1 = .ok user →
      ((reach (serveAlone env) (serveAlone env (.createUser dto) w).2
        later).outside.tape 1).fault = false →
      ((serveAlone env (.loginUser ⟨body.email, body.password, otpCode⟩)
          (reach (serveAlone env) (serveAlone env (.createUser dto) w).2 later)).1 ≠
        .error AuthService.invalidCredentials ↔
      env.cases.toLowerCase body.email = body.email ∨
        AnsweredOtherwise env ⟨body.email, body.password, otpCode⟩
          (reach (serveAlone env) (serveAlone env (.createUser dto) w).2 later))) ∧
    ∀ profile w tokens,
      (serveAlone env (.googleLoginUser (some profile)) w).1 = .ok (.tokens tokens) →
      ∃ id, logsIn id (serveEvent (serveAlone env) (.googleLoginUser (some profile)) w) = true ∧
        ∀ later, FindsAgain env profile id
            (reach (serveAlone env) (serveAlone env (.googleLoginUser (some profile)) w).2 later) ↔
          (reach (serveAlone env) (serveAlone env (.googleLoginUser (some profile)) w).2
              later).choice.fault = true ∨
            (∃ row, w.db.users.byEmail profile.email = some row) ∨
            env.cases.toLowerCase profile.email = profile.email := by
  refine ⟨fun v body dto w user later otpCode hDto hServe hCompares => ?_,
    fun profile w tokens hServe => googleLoginUser_again hServe⟩
  obtain ⟨hEmail, hPassword⟩ := CreateUserBody.admitted_fields hDto
  rw [← hPassword]
  exact loginUser_registered hBcrypt hEmail hServe hCompares

namespace Sample

def caseEnv : Env :=
  { tokenEnv with cases := ⟨id, fun str => String.ofList (str.toList.map Char.toLower)⟩ }

/-- E-mails like `user@host.io`, of letters. -/
def mails : Validator where
  isEmail str :=
    let user := str.toList.takeWhile (· != '@')
    let domain := str.toList.drop (user.length + 1)
    let host := domain.takeWhile (· != '.')
    let top := domain.drop (host.length + 1)
    !user.isEmpty && !host.isEmpty && 2 ≤ top.length && (user ++ host ++ top).all Char.isAlpha
  length := String.length

def capital : CreateUserBody := ⟨"ANA", "Ana@x.io", "Passw0rd!", "1"⟩

def capitalDto : CreateUserDto := ⟨"ANA", "ana@x.io", "Passw0rd!", "1"⟩

def capitalProfile : GoogleProfile := ⟨"Ana@x.io", "ANA", "gid", "google"⟩

end Sample

theorem same_account_sample :
    ((serveAlone Sample.caseEnv (.loginUser ⟨"Ana@x.io", "Passw0rd!", none⟩)
        (reach (serveAlone Sample.caseEnv) (serveAlone Sample.caseEnv
          (.createUser Sample.capitalDto) (Sample.world Sample.noUsers)).2 [])).1 ≠
        .error AuthService.invalidCredentials ↔
      Sample.caseEnv.cases.toLowerCase "Ana@x.io" = "Ana@x.io" ∨
        AnsweredOtherwise Sample.caseEnv ⟨"Ana@x.io", "Passw0rd!", none⟩
          (reach (serveAlone Sample.caseEnv) (serveAlone Sample.caseEnv
            (.createUser Sample.capitalDto) (Sample.world Sample.noUsers)).2 [])) ∧
    ∃ id, logsIn id (serveEvent (serveAlone Sample.caseEnv)
      (.googleLoginUser (some Sample.capitalProfile)) (Sample.world Sample.noUsers)) = true := by
  have hBcrypt : ∀ salt password, Sample.caseEnv.compare password
      (Sample.caseEnv.hash salt password) = true := fun salt password => beq_self_eq_true _
  obtain ⟨hLogin, hGoogle⟩ := same_account Sample.caseEnv hBcrypt
  have hUser : ∃ user, (serveAlone Sample.caseEnv (.createUser Sample.capitalDto)
      (Sample.world Sample.noUsers)).1 = .ok user :=
    ⟨.user { name := .val "ANA", email := .val "ana@x.io" }, by decide⟩
  obtain ⟨user, hServe⟩ := hUser
  refine ⟨hLogin Sample.mails Sample.capital Sample.capitalDto (Sample.world Sample.noUsers) user []
    none (by decide) hServe (by decide), ?_⟩
  obtain ⟨id, hLogs, _⟩ := hGoogle Sample.capitalProfile (Sample.world Sample.noUsers)
    ⟨"aes:jwt:ana@x.io:u2:2403", "aes:jwt:ana@x.io:u2:604804"⟩ (by decide)
  exact ⟨id, hLogs⟩

/-- A capital letter in the e-mail is enough: the login fails, and Google's user is not found. -/
theorem accounts_missed :
    Sample.capital.admitted Sample.mails Sample.caseEnv.cases = some Sample.capitalDto ∧
    (history (serveAlone Sample.caseEnv) (Sample.world Sample.noUsers)
      [.loginUser ⟨"Ana@x.io", "Passw0rd!", none⟩, .verifyAccount Sample.verifyToken,
        .createUser Sample.capitalDto]).map (·.outcome) =
      [.error AuthService.invalidCredentials, .ok (.account ⟨.val "ana@x.io", .val "ANA"⟩),
        .ok (.user { name := .val "ANA", email := .val "ana@x.io" })] ∧
    (serveAlone Sample.caseEnv (.googleLoginUser (some Sample.capitalProfile))
      (Sample.world Sample.noUsers)).1.isOk = true ∧
    ¬ FindsAgain Sample.caseEnv Sample.capitalProfile "u2" (serveAlone Sample.caseEnv
      (.googleLoginUser (some Sample.capitalProfile)) (Sample.world Sample.noUsers)).2 := by
  refine ⟨by decide, by decide, by decide, ?_⟩
  rw [findsAgain_iff (by decide)]
  rintro ⟨row, hRow, _⟩
  have hNone : ((serveAlone Sample.caseEnv (.googleLoginUser (some Sample.capitalProfile))
      (Sample.world Sample.noUsers)).2.db.users.byEmail Sample.capitalProfile.email).isNone = true := by
    decide
  rw [hRow] at hNone
  cases hNone

end Manejaplus
