import Manejaplus.Sequential.OtpAsked

/-! # How a login can fail -/
namespace Manejaplus
open Effect Prog
set_option autoImplicit false

variable {env : Env} {w w' : World} {loginModel : LoginModel} {row : UserRow}

/-- The exceptions of the authentication module, and Nest's `UnauthorizedException`. -/
def Exception.declared : Exception → Bool
  | .unauthorized _ => true
  | .accountNotVerified => true
  | .accountBlocked => true
  | .otpRequired => true
  | .otpWrong => true
  | _ => false

def EndsAsDeclared {α : Type} (r : Except Exception α) : Prop :=
  ∀ e, r = .error e → e.declared = true

/-- Nothing fails outside but perhaps the comparison of the passwords, the second call. -/
def World.CalmButBcrypt (w : World) : Prop := ∀ n, n ≠ 1 → (w.outside.tape n).fault = false

/-- The code in the request is compared with a one-time password that does not exist. -/
def ChecksMissingOtp (env : Env) (loginModel : LoginModel) (w : World) : Prop :=
  ∃ row, w.db.users.byEmail loginModel.email = some row ∧ (w.outside.tape 1).fault = false ∧
    env.compare loginModel.password row.password = true ∧ row.Open ∧
    AuthService.hasOtpCode loginModel = true ∧ row.needsOtp (w.outside.tape 3).now = true ∧
    w.db.otps.findByType .LOGIN_OTP (.val row.id) = none

theorem World.CalmButBcrypt.later (h : w.CalmButBcrypt) : w.tick.tick.Calm :=
  fun n => h (n + 2) (by omega)

theorem validateNeedOtpToLogin_entity (env : Env) (row : UserRow) (w : World) :
    ∃ w₁, run (alone env) (UserModel.validateNeedOtpToLogin row.entity) w =
        (.ok (row.needsOtp w.choice.now), w₁) ∧ w₁.state = w.state ∧ w.Rest w₁ ∧
      row.needsOtp w₁.choice.now = row.needsOtp w.tick.choice.now := by
  cases hLast : row.lastConnection with
  | none =>
    refine ⟨w, ?_, rfl, .refl w, by simp [UserRow.needsOtp, hLast]⟩
    simp [UserModel.validateNeedOtpToLogin, UserRow.entity, UserRow.needsOtp, hLast, Js.ofOption]
  | some lastConnection =>
    have hVal : row.entity.lastConnection = .val lastConnection := by
      rw [UserRow.entity, hLast]
      rfl
    refine ⟨w.tick, ?_, rfl, .tick _ _ rfl, rfl⟩
    rw [validateNeedOtpToLogin_val hVal, UserRow.needsOtp, hLast]
    rfl

theorem OtpChecked.calm_cases {typeOtp : TypeOtp} {code : String} {userId : Js String}
    {r : Except Exception Bool} {s : State} (hCalm : w.Calm)
    (h : OtpChecked typeOtp code userId w r s) :
    (r = .error .typeError ∧ w.db.otps.findByType typeOtp userId = none) ∨
    (∃ isValid, r = .ok isValid) ∧ w.db.otps.findByType typeOtp userId ≠ none := by
  cases h with
  | fails hFails => exact absurd hCalm hFails
  | missing hNone => exact .inl ⟨rfl, hNone⟩
  | refused hRow => exact .inr ⟨⟨_, rfl⟩, by simp [hRow]⟩
  | accepted now hRow => exact .inr ⟨⟨_, rfl⟩, by simp [hRow]⟩

theorem declared_ok {α : Type} (a : α) : EndsAsDeclared (.ok a : Except Exception α) :=
  fun _ h => nomatch h

theorem declared_error {α : Type} {e : Exception} :
    EndsAsDeclared (.error e : Except Exception α) ↔ e.declared = true := by
  constructor
  · exact fun h => h e rfl
  · intro h e' hError
    cases hError
    exact h

theorem handleOtpIfRequired_codeless (hCalm : w.Calm) (hRow : w.db.users.byId row.id = some row)
    (hCode : AuthService.hasOtpCode loginModel = false) :
    EndsAsDeclared (run (alone env) (AuthService.handleOtpIfRequired row.entity loginModel) w).1 := by
  rcases hRun : run (alone env) (AuthService.handleOtpIfRequired row.entity loginModel) w with ⟨r, w'⟩
  have hHandled := handleOtpIfRequired_cases hRow hRun
  generalize w'.state = s at hHandled
  cases hHandled with
  | skipped => exact declared_ok ()
  | unsent _ _ _ hSent =>
    cases hSent with
    | fails hFails => exact absurd hCalm hFails
  | required => exact declared_error.mpr rfl
  | unchecked _ _ hHas => simp [hCode] at hHas
  | wrong => exact declared_error.mpr rfl
  | right => exact declared_ok ()

theorem handleOtpIfRequired_declared (hCalm : w.Calm) (hRow : w.db.users.byId row.id = some row) :
    EndsAsDeclared (run (alone env) (AuthService.handleOtpIfRequired row.entity loginModel) w).1 ↔
      ¬ (AuthService.hasOtpCode loginModel = true ∧ row.needsOtp w.tick.choice.now = true ∧
        w.db.otps.findByType .LOGIN_OTP (.val row.id) = none) := by
  cases hCode : AuthService.hasOtpCode loginModel with
  | false => simpa using handleOtpIfRequired_codeless hCalm hRow hCode
  | true =>
    obtain ⟨w₁, hNeed, hState₁, hRest₁, hLater⟩ := validateNeedOtpToLogin_entity env row w
    obtain ⟨w₂, hNeed', hState₂, hRest₂, _⟩ := validateNeedOtpToLogin_entity env row w₁
    have hState : w₂.state = w.state := hState₂.trans hState₁
    rw [← hLater, AuthService.handleOtpIfRequired, bind_eq, run_bind, hNeed]
    simp only [hCode, Bool.not_true, Bool.and_false, Bool.false_eq_true, if_false, bind_eq, run_bind,
      hNeed', Bool.and_true, true_and]
    cases hNeeds : row.needsOtp w₁.choice.now with
    | false => simpa using declared_ok ()
    | true =>
      rcases hCheck : run (alone env) (OtpService.checkOtpCodeIsValid .LOGIN_OTP
        (loginModel.otpCode.getD "") row.entity.id) w₂ with ⟨r, w₃⟩
      have hChecked := (checkOtpCodeIsValid_cases hCheck).calm_cases (hCalm.rest (hRest₁.trans hRest₂))
      rw [World.state_db hState] at hChecked
      simp only [if_true, run_bind, hCheck, true_and]
      obtain ⟨rfl, hNone⟩ | ⟨⟨isValid, rfl⟩, hFound⟩ := hChecked
      · exact iff_of_false (fun h => Bool.false_ne_true (declared_error.mp h)) (not_not.mpr hNone)
      · refine iff_of_true ?_ hFound
        cases isValid with
        | true => exact declared_ok ()
        | false => exact declared_error.mpr rfl

theorem declared_bind {α β : Type} {p : Async α} {f : α → Async β}
    (hRest : ∀ a w', run (alone env) p w = (.ok a, w') → EndsAsDeclared (run (alone env) (f a) w').1) :
    EndsAsDeclared (run (alone env) (p.bind f) w).1 ↔ EndsAsDeclared (run (alone env) p w).1 := by
  rw [run_bind]
  rcases hp : run (alone env) p w with ⟨r, w'⟩
  cases r with
  | ok a => exact iff_of_true (hRest a w' hp) (declared_ok a)
  | error e => exact declared_error.trans declared_error.symm

section Login

theorem comparePasswords_run (passwordTry original : String) :
    run (alone env) (EncryptionUtil.comparePasswords passwordTry (.val original)) w =
      (.ok (!w.choice.fault && env.compare passwordTry original), w.tick) := by
  rw [EncryptionUtil.comparePasswords, catching, run_bind, run_attempt, Async.comparePasswords,
    run_outside, World.execOutside, Outside.exec]
  cases hFault : w.choice.fault <;> simp [World.tick]

variable (env) in
theorem handleFailedLoginAttempt_answer (hRow : w.db.users.byId row.id = some row) :
    (run (alone env) (AuthService.handleFailedLoginAttempt (some row.entity)) w).1 =
      if w.choice.fault then .error .external else .ok () := by
  change (run (alone env) ((Async.saveUser row.recorded).bind fun _ => .pure ()) w).1 = _
  rw [run_bind]
  cases hFault : w.choice.fault with
  | true =>
    rw [Async.saveUser, run_store, World.execStore, Database.exec, if_pos hFault]
    rfl
  | false =>
    obtain ⟨users, hTable, _⟩ := save_stored hRow row.recorded_id row.write_recordFailure rfl
    rw [saveUser_ok.mpr ⟨hFault, users, hTable, rfl⟩]
    rfl

/-- What the check of the credentials comes to: a failed comparison counts as a wrong password. -/
def credentialsAnswer (env : Env) (loginModel : LoginModel) (w : World) :
    Except Exception UserModel :=
  if (w.outside.tape 0).fault then .error .external
  else match w.db.users.byEmail loginModel.email with
    | none => .error AuthService.invalidCredentials
    | some row =>
      if !(w.outside.tape 1).fault && env.compare loginModel.password row.password then .ok row.entity
      else if (w.outside.tape 2).fault then .error .external
      else .error AuthService.invalidCredentials

theorem validateUserCredentials_answer :
    (run (alone env) (AuthService.validateUserCredentials loginModel) w).1 =
      credentialsAnswer env loginModel w := by
  rcases hFind : run (alone env)
    (UserRepositoryImpl.getUserByField { email := some (.val loginModel.email) }) w with ⟨r, w₁⟩
  rw [AuthService.validateUserCredentials, bind_eq, run_bind, hFind]
  cases r with
  | error e =>
    have hFault : (w.outside.tape 0).fault = true := by
      by_contra hNot
      cases hFind.symm.trans (getUserByEmail_ok.mpr ⟨Bool.not_eq_true _ ▸ hNot, rfl, rfl⟩)
    rw [credentialsAnswer, if_pos hFault, getUserByEmail_error hFind]
  | ok found =>
    obtain ⟨hFault, rfl, rfl⟩ := getUserByEmail_ok.mp hFind
    rw [World.choice] at hFault
    simp only [credentialsAnswer, hFault, Bool.false_eq_true, if_false]
    cases hEmail : w.db.users.byEmail loginModel.email with
    | none => rfl
    | some row =>
      have hCompare : run (alone env) (AuthService.credentialsFail loginModel (some row.entity))
          w.tick = (.ok !(!w.tick.choice.fault && env.compare loginModel.password row.password),
            w.tick.tick) := by
        rw [AuthService.credentialsFail, bind_eq, run_bind]
        simp only [UserRow.entity, comparePasswords_run, run_pure, pure_eq]
      have hRow : w.tick.tick.db.users.byId row.id = some row := byId_of_byEmail hEmail
      have hRecord := handleFailedLoginAttempt_answer env hRow
      simp only [Option.map_some, bind_eq]
      rw [run_bind, hCompare]
      change _ = if !w.tick.choice.fault && env.compare loginModel.password row.password then _ else _
      cases !w.tick.choice.fault && env.compare loginModel.password row.password with
      | true => simp
      | false =>
        simp only [Bool.not_false, if_true, Bool.false_eq_true, if_false]
        rw [run_bind]
        change _ = if w.tick.tick.choice.fault then _ else _
        generalize run (alone env) (AuthService.handleFailedLoginAttempt (some row.entity)) w.tick.tick =
          answer at hRecord ⊢
        obtain ⟨r, w₃⟩ := answer
        cases hFault₂ : w.tick.tick.choice.fault <;> rw [hFault₂] at hRecord <;> cases hRecord <;> rfl

theorem validateUserCredentials_error {e : Exception} (hCalm : w.CalmButBcrypt)
    (hRun : run (alone env) (AuthService.validateUserCredentials loginModel) w = (.error e, w')) :
    e = AuthService.invalidCredentials := by
  have hAnswer : (run (alone env) (AuthService.validateUserCredentials loginModel) w).1 =
    credentialsAnswer env loginModel w := validateUserCredentials_answer
  rw [hRun, credentialsAnswer, hCalm 0 (by decide), hCalm 2 (by decide)] at hAnswer
  simp only [Bool.false_eq_true, if_false] at hAnswer
  split at hAnswer
  · exact Except.error.inj hAnswer
  · split at hAnswer
    · cases hAnswer
    · exact Except.error.inj hAnswer

theorem handleUserLogin_declared (hCalm : w.Calm) (hRow : w.db.users.byId row.id = some row) :
    EndsAsDeclared (run (alone env) (AuthService.handleUserLogin row.entity) w).1 := by
  rcases hRun : run (alone env) (AuthService.handleUserLogin row.entity) w with ⟨r, w'⟩
  have hSession := handleUserLogin_cases hRow (stands_entity row) hRun
  generalize w'.state = s at hSession
  cases hSession with
  | fails _ hFails => exact absurd hCalm hFails
  | stored => exact declared_ok _

/-- A login ends with tokens or as declared, unless it has a code to check and nothing to check it
against. -/
theorem loginUser_declared (hCalm : w.CalmButBcrypt) :
    EndsAsDeclared (run (alone env) (AuthService.loginUser loginModel) w).1 ↔
      ¬ ChecksMissingOtp env loginModel w := by
  rcases hCheck : run (alone env) (AuthService.validateUserCredentials loginModel) w with ⟨r, w₁⟩
  cases r with
  | error e =>
    refine iff_of_true ?_ ?_
    · rw [AuthService.loginUser, bind_eq, run_bind, hCheck, declared_error,
        validateUserCredentials_error hCalm hCheck]
      rfl
    · rintro ⟨row, hEmail, hFault, hCompare, _⟩
      have hOk := validateUserCredentials_ok.mpr
        ⟨hCalm 0 (by decide), hFault, ⟨row, hEmail, hCompare, rfl⟩, rfl⟩
      cases hCheck.symm.trans hOk
  | ok user =>
    obtain ⟨_, hFault, ⟨row, hEmail, hCompare, rfl⟩, rfl⟩ := validateUserCredentials_ok.mp hCheck
    have hRow : w.tick.tick.db.users.byId row.id = some row := byId_of_byEmail hEmail
    have hMissing : ChecksMissingOtp env loginModel w ↔ row.Open ∧
        AuthService.hasOtpCode loginModel = true ∧ row.needsOtp (w.outside.tape 3).now = true ∧
        w.db.otps.findByType .LOGIN_OTP (.val row.id) = none := by
      constructor
      · rintro ⟨other, hOther, _, _, hRest⟩
        cases hEmail.symm.trans hOther
        exact hRest
      · exact fun hRest => ⟨row, hEmail, hFault, hCompare, hRest⟩
    rw [hMissing, AuthService.loginUser, bind_eq, run_bind, hCheck]
    rcases hStatus : run (alone env) (AuthService.checkUserStatus row.entity) w.tick.tick with ⟨r, w₂⟩
    obtain ⟨rfl, hChecked⟩ := checkUserStatus_cases hStatus
    simp only [bind_eq]
    rw [run_bind, hStatus]
    cases hChecked with
    | notVerified hVerified =>
      exact iff_of_true (declared_error.mpr rfl) fun h => hVerified h.1.1
    | blocked _ hBlocked => exact iff_of_true (declared_error.mpr rfl) fun h => h.1.2 hBlocked
    | passes hOpen =>
      simp only [hOpen, true_and]
      refine (declared_bind fun _ w₃ hOtp => ?_).trans (handleOtpIfRequired_declared hCalm.later hRow)
      have hUsers := (handleOtpIfRequired_cases hRow hOtp).keeps.1
      apply handleUserLogin_declared (hCalm.later.rest (rest_run hOtp))
      rw [show w₃.db.users = w.db.users from hUsers]
      exact byId_of_byEmail hEmail

end Login

namespace Sample

def codeLogin : LoginModel := ⟨"ana@x.io", "pw", some "123456"⟩

/-- An account that has never logged in and was never sent a code. -/
def newcomer : World := world (oneUser { Sample.row with lastConnection := none })

/-- The same account once a code has been sent to it. -/
def sentCode : World := (serveAlone (Sample.env []) (.loginUser rightLogin) newcomer).2

end Sample

theorem loginUser_declared_sample :
    EndsAsDeclared (run (alone (Sample.env [])) (AuthService.loginUser Sample.codeLogin)
      Sample.sentCode).1 := by
  refine (loginUser_declared fun _ _ => rfl).mpr ?_
  rintro ⟨row, hEmail, _, _, _, _, _, hNone⟩
  have hSent : ((Sample.sentCode.db.users.byEmail "ana@x.io").bind fun row =>
      Sample.sentCode.db.otps.findByType .LOGIN_OTP (.val row.id)).isSome = true := by decide
  rw [show Sample.sentCode.db.users.byEmail "ana@x.io" = some row from hEmail, Option.bind_some,
    hNone] at hSent
  cases hSent

/-- A code from a user who never got one ends in a `TypeError`. -/
theorem loginUser_undeclared :
    ¬ EndsAsDeclared (run (alone (Sample.env [])) (AuthService.loginUser Sample.codeLogin)
      Sample.newcomer).1 := by
  have hError : (run (alone (Sample.env [])) (AuthService.loginUser Sample.codeLogin)
      Sample.newcomer).1 = .error .typeError := by decide
  rw [hError, declared_error]
  decide

end Manejaplus
