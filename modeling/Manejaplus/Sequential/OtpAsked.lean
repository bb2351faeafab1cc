import Manejaplus.Sequential.Logins

/-! # When a login is asked for a code -/
namespace Manejaplus
open Effect Prog
set_option autoImplicit false

variable {env : Env} {w w' : World}

namespace UserModel

/-- A code is due after the window of the user's mode, and at a first login. -/
def OtpDue (user : UserModel) (now : Time) : Prop :=
  match user.lastConnection with
  | .val lastConnection =>
    (if user.maintainSession = .val true then AUTH_CONSTANTS.TIME_TO_ASK_OTP_MAINTEIN_SESSION
      else AUTH_CONSTANTS.TIME_TO_ASK_OTP) < (now : Int) - lastConnection
  | _ => True

/-- The short window is over and the long one, which is the user's, is not. -/
def BetweenWindows (user : UserModel) (now : Time) : Prop :=
  user.maintainSession = .val true ∧ ∃ lastConnection, user.lastConnection = .val lastConnection ∧
    AUTH_CONSTANTS.TIME_TO_ASK_OTP < (now : Int) - lastConnection ∧
    (now : Int) - lastConnection ≤ AUTH_CONSTANTS.TIME_TO_ASK_OTP_MAINTEIN_SESSION

/-- The test of the long window decides nothing: whatever passes it passes the next one as well. -/
theorem needsOtpAt_iff {maintainSession : Js Bool} {lastConnection now : Time} :
    needsOtpAt maintainSession lastConnection now = true ↔
      AUTH_CONSTANTS.TIME_TO_ASK_OTP < (now : Int) - lastConnection := by
  unfold needsOtpAt
  cases maintainSession.truthy <;>
    simp [AUTH_CONSTANTS.TIME_TO_ASK_OTP, AUTH_CONSTANTS.TIME_TO_ASK_OTP_MAINTEIN_SESSION]
  omega

end UserModel

def AsksAsDue (env : Env) (user : UserModel) (w : World) : Prop :=
  ∃ asked, (run (alone env) (UserModel.validateNeedOtpToLogin user) w).1 = .ok asked ∧
    (asked = true ↔ user.OtpDue w.choice.now)

theorem validateNeedOtpToLogin_val {user : UserModel} {lastConnection : Time}
    (hLast : user.lastConnection = .val lastConnection) :
    run (alone env) (UserModel.validateNeedOtpToLogin user) w =
      (.ok (UserModel.needsOtpAt user.maintainSession lastConnection w.choice.now), w.tick) := by
  simp only [UserModel.validateNeedOtpToLogin, hLast, bind_eq, run_bind, newDate_ok.mpr ⟨rfl, rfl⟩]
  rfl

theorem asksAsDue_iff {user : UserModel} :
    AsksAsDue env user w ↔ ¬ user.BetweenWindows w.choice.now := by
  cases hLast : user.lastConnection with
  | val lastConnection =>
    simp only [AsksAsDue, validateNeedOtpToLogin_val hLast, Except.ok.injEq, exists_eq_left',
      UserModel.needsOtpAt_iff, UserModel.OtpDue, UserModel.BetweenWindows, hLast, Js.val.injEq]
    by_cases hKeeps : user.maintainSession = .val true
    · simp only [hKeeps, if_true, true_and, AUTH_CONSTANTS.TIME_TO_ASK_OTP,
        AUTH_CONSTANTS.TIME_TO_ASK_OTP_MAINTEIN_SESSION]
      omega
    · simp only [hKeeps, if_false, false_and, not_false_iff]
  | _ => simp [AsksAsDue, UserModel.validateNeedOtpToLogin, UserModel.OtpDue,
      UserModel.BetweenWindows, hLast]

section Handling

variable {loginModel : LoginModel} {row : UserRow}

/-- The login goes on, unless it is a code in the request that holds it up. -/
def AsksNoCode (env : Env) (row : UserRow) (loginModel : LoginModel) (w : World) : Prop :=
  if AuthService.hasOtpCode loginModel then
    (run (alone env) (AuthService.handleOtpIfRequired row.entity loginModel) w).1 ≠
      .error .otpRequired
  else (run (alone env) (AuthService.handleOtpIfRequired row.entity loginModel) w).1 = .ok ()

theorem not_otpRequired (hCode : AuthService.hasOtpCode loginModel = true)
    (hRow : w.db.users.byId row.id = some row) :
    (run (alone env) (AuthService.handleOtpIfRequired row.entity loginModel) w).1 ≠
      .error .otpRequired := by
  intro hAsked
  have hRun : run (alone env) (AuthService.handleOtpIfRequired row.entity loginModel) w =
    (.error .otpRequired, _) := Prod.ext hAsked rfl
  have hHandled := handleOtpIfRequired_cases hRow hRun
  cases hHandled with
  | unsent _ _ hNone => simp [hCode] at hNone
  | required _ _ hNone => simp [hCode] at hNone
  | unchecked _ _ _ hChecked => cases hChecked

theorem handleOtpIfRequired_ok {lastConnection : Time}
    (hCode : AuthService.hasOtpCode loginModel = false)
    (hLast : row.lastConnection = some lastConnection) :
    (run (alone env) (AuthService.handleOtpIfRequired row.entity loginModel) w).1 = .ok () ↔
      (w.choice.now : Int) - lastConnection ≤ AUTH_CONSTANTS.TIME_TO_ASK_OTP := by
  have hVal : row.entity.lastConnection = .val lastConnection := by
    rw [UserRow.entity, hLast]
    rfl
  rw [← Int.not_lt, ← UserModel.needsOtpAt_iff, Bool.not_eq_true, AuthService.handleOtpIfRequired,
    bind_eq, run_bind, validateNeedOtpToLogin_val hVal]
  cases hNeeds : UserModel.needsOtpAt row.entity.maintainSession lastConnection w.choice.now with
  | true =>
    simp only [hCode, Bool.not_false, Bool.and_self, if_true, Bool.true_eq_false, iff_false]
    intro hOk
    obtain ⟨_, _, _, hThrow⟩ := (run_bind_ok _).mp (Prod.ext hOk rfl)
    cases hThrow
  | false =>
    simp only [hCode, Bool.not_false, Bool.false_and, Bool.false_eq_true, if_false, bind_eq, run_bind,
      validateNeedOtpToLogin_val hVal, Bool.and_false, iff_true]
    rfl

theorem asksNoCode_iff {lastConnection : Time} (hRow : w.db.users.byId row.id = some row)
    (hLast : row.lastConnection = some lastConnection) :
    AsksNoCode env row loginModel w ↔ AuthService.hasOtpCode loginModel = true ∨
      (w.choice.now : Int) - lastConnection ≤ AUTH_CONSTANTS.TIME_TO_ASK_OTP := by
  unfold AsksNoCode
  cases hCode : AuthService.hasOtpCode loginModel with
  | true => simpa using not_otpRequired hCode hRow
  | false => simpa using handleOtpIfRequired_ok hCode hLast

end Handling

/-- The long window, wherever a run has come to: from the latest login on, an account that keeps its
session is let pass for as long as the short window lasts, and then asked. -/
theorem otp_asked (env : Env) :
    (∀ user w, AsksAsDue env user w ↔ ¬ user.BetweenWindows w.choice.now) ∧
    ∀ start rs id login, latestLogin id (history (serveAlone env) start rs) = some login →
      ∃ row t, (reach (serveAlone env) start rs).db.users.byId id = some row ∧
        ReadsClock login t ∧ row.lastConnection = some t ∧ ∀ w loginModel, w.db = (reach (serveAlone env) start rs).db →
          row.maintainSession = true →
          (w.choice.now : Int) - t ≤ AUTH_CONSTANTS.TIME_TO_ASK_OTP_MAINTEIN_SESSION →
          (AsksNoCode env row loginModel w ↔ AuthService.hasOtpCode loginModel = true ∨
            (w.choice.now : Int) - t ≤ AUTH_CONSTANTS.TIME_TO_ASK_OTP) := by
  refine ⟨fun user w => asksAsDue_iff, fun start rs id login hLatest => ?_⟩
  obtain ⟨row, hRow, hHolds⟩ := session_held env start rs hLatest
  obtain ⟨t, hReads, hSince⟩ := hHolds.since
  refine ⟨row, t, hRow, hReads, hSince, fun w loginModel hDb _ _ => asksNoCode_iff ?_ hSince⟩
  cases (UserTable.byId_eq_some.mp hRow).2
  rw [hDb]
  exact hRow

namespace Sample

def keeper : UserRow := { row with maintainSession := true }

def keeperStart : World := world (oneUser keeper)

def keeperLogin : Served.Event :=
  serveEvent (serveAlone (Sample.env [])) (.loginUser rightLogin) keeperStart

/-- The same database, two days later. -/
def twoDaysOn (w : World) : World := { w with outside := ⟨fun _ => { now := 172806000 }, [], []⟩ }

theorem twoDaysOn_db (w : World) : (twoDaysOn w).db = w.db := rfl

theorem keeperLogin_logsIn : logsIn "u" keeperLogin = true := by decide

theorem keeperLogin_latest :
    latestLogin "u" (history (serveAlone (Sample.env [])) keeperStart [.loginUser rightLogin]) =
      some keeperLogin := by
  have hHistory : history (serveAlone (Sample.env [])) keeperStart [.loginUser rightLogin] =
      [keeperLogin] := rfl
  rw [hHistory, latestLogin, List.find?_cons_of_pos keeperLogin_logsIn]

theorem keeper_stored : ∃ row,
    (reach (serveAlone (Sample.env [])) keeperStart [.loginUser rightLogin]).db.users.byId "u" =
      some row ∧ row.maintainSession = true ∧ row.lastConnection = some 6000 := by
  have hRow : ((reach (serveAlone (Sample.env [])) keeperStart
      [.loginUser rightLogin]).db.users.byId "u").any
        (fun row => row.maintainSession && row.lastConnection == some 6000) = true := by decide
  simpa [Option.any_eq_true] using hRow

end Sample

theorem otp_asked_sample : ∃ row, ∃ t : Time, row.lastConnection = some t ∧
    (AsksNoCode (Sample.env []) row Sample.rightLogin (Sample.twoDaysOn
        (reach (serveAlone (Sample.env [])) Sample.keeperStart [.loginUser Sample.rightLogin])) ↔
      AuthService.hasOtpCode Sample.rightLogin = true ∨
        (172806000 : Int) - t ≤ AUTH_CONSTANTS.TIME_TO_ASK_OTP) := by
  obtain ⟨row, t, hRow, _, hSince, hAsked⟩ := (otp_asked (Sample.env [])).2
    Sample.keeperStart [.loginUser Sample.rightLogin] "u" Sample.keeperLogin
    Sample.keeperLogin_latest
  obtain ⟨stored, hStored, hKeeps, hLast⟩ := Sample.keeper_stored
  cases hRow.symm.trans hStored
  cases hSince.symm.trans hLast
  exact ⟨row, 6000, hSince, hAsked _ Sample.rightLogin (Sample.twoDaysOn_db _) hKeeps (by decide)⟩

/-- A user who keeps the session is asked for a code two days after logging in. -/
theorem otp_asked_early :
    ¬ AsksAsDue (Sample.env []) Sample.keeper.entity (Sample.twoDaysOn Sample.keeperStart) ∧
    ∃ row, row.maintainSession = true ∧ row.lastConnection = some 6000 ∧
      (reach (serveAlone (Sample.env [])) Sample.keeperStart
        [.loginUser Sample.rightLogin]).db.users.byId "u" = some row ∧
      ¬ AsksNoCode (Sample.env []) row Sample.rightLogin (Sample.twoDaysOn
        (reach (serveAlone (Sample.env [])) Sample.keeperStart [.loginUser Sample.rightLogin])) := by
  constructor
  · rw [asksAsDue_iff, not_not]
    exact ⟨rfl, 1000, rfl, by decide, by decide⟩
  · obtain ⟨row, hRow, hKeeps, hLast⟩ := Sample.keeper_stored
    refine ⟨row, hKeeps, hLast, hRow, ?_⟩
    have hId : row.id = "u" := (UserTable.byId_eq_some.mp hRow).2
    have hStored : (Sample.twoDaysOn (reach (serveAlone (Sample.env [])) Sample.keeperStart
        [.loginUser Sample.rightLogin])).db.users.byId row.id = some row := by
      rw [Sample.twoDaysOn_db, hId]
      exact hRow
    rw [asksNoCode_iff hStored hLast]
    decide

end Manejaplus
