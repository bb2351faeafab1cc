import Manejaplus.Sequential.Otp

/-! # The login as one transition -/
namespace Manejaplus
open Effect Prog
set_option autoImplicit false

variable {env : Env} {w w' : World}

def UserRow.Open (row : UserRow) : Prop := row.isVerified = some true ∧ row.isBlocked ≠ some true

instance (row : UserRow) : Decidable row.Open := inferInstanceAs (Decidable (_ ∧ _))

inductive StatusChecked (row : UserRow) : Except Exception Unit → Prop
  | notVerified : row.isVerified ≠ some true → StatusChecked row (.error .accountNotVerified)
  | blocked : row.isVerified = some true → row.isBlocked = some true →
      StatusChecked row (.error .accountBlocked)
  | passes : row.Open → StatusChecked row (.ok ())

theorem checkUserStatus_cases {row : UserRow} {r : Except Exception Unit}
    (hRun : run (alone env) (AuthService.checkUserStatus row.entity) w = (r, w')) :
    w' = w ∧ StatusChecked row r := by
  simp only [AuthService.checkUserStatus, UserRow.entity, Js.truthy_ofOption] at hRun
  by_cases hVerified : row.isVerified = some true
  · by_cases hBlocked : row.isBlocked = some true
    · simp only [hVerified, hBlocked, beq_self_eq_true, Bool.not_true, Bool.false_eq_true, if_false,
        if_true] at hRun
      cases hRun
      exact ⟨rfl, .blocked hVerified hBlocked⟩
    · simp only [hVerified, beq_eq_false_iff_ne.mpr hBlocked, beq_self_eq_true, Bool.not_true,
        Bool.false_eq_true, if_false] at hRun
      cases hRun
      exact ⟨rfl, .passes ⟨hVerified, hBlocked⟩⟩
  · simp only [beq_eq_false_iff_ne.mpr hVerified, Bool.not_false, if_true] at hRun
    cases hRun
    exact ⟨rfl, .notVerified hVerified⟩

theorem OtpHandled.keeps {loginModel : LoginModel} {row : UserRow} {r : Except Exception Unit}
    {s : State} (h : OtpHandled loginModel row w r s) :
    s.db.users = w.db.users ∧ s.db.roles = w.db.roles ∧ s.issued = w.state.issued := by
  have hSent : ∀ {r s}, OtpSent .LOGIN_OTP row w r s →
      s.db.users = w.db.users ∧ s.db.roles = w.db.roles ∧ s.issued = w.state.issued := by
    rintro r s (_ | _) <;> exact ⟨rfl, rfl, rfl⟩
  have hChecked : ∀ {code userId r s}, OtpChecked .LOGIN_OTP code userId w r s →
      s.db.users = w.db.users ∧ s.db.roles = w.db.roles ∧ s.issued = w.state.issued := by
    rintro code userId r s (_ | _ | _ | _) <;> exact ⟨rfl, rfl, rfl⟩
  cases h with
  | skipped => exact ⟨rfl, rfl, rfl⟩
  | unsent _ _ _ h => exact hSent h
  | required _ _ _ h => exact hSent h
  | unchecked _ _ _ h => exact hChecked h
  | wrong _ _ _ h => exact hChecked h
  | right _ _ _ h => exact hChecked h

inductive LoginEnds (env : Env) (loginModel : LoginModel) (w : World) :
    Except Exception JWTTokens → State → Prop
  | rejected {e : Exception} {s : State} : Credentials env loginModel w (.error e) s →
      LoginEnds env loginModel w (.error e) s
  | closed {row : UserRow} {e : Exception} : w.db.users.byEmail loginModel.email = some row →
      env.compare loginModel.password row.password = true → StatusChecked row (.error e) →
      LoginEnds env loginModel w (.error e) w.state
  | held {row : UserRow} {e : Exception} {s : State} :
      w.db.users.byEmail loginModel.email = some row →
      env.compare loginModel.password row.password = true → row.Open →
      OtpHandled loginModel row w (.error e) s → LoginEnds env loginModel w (.error e) s
  | session {row : UserRow} {w₁ : World} {r : Except Exception JWTTokens} {s : State} :
      w.db.users.byEmail loginModel.email = some row →
      env.compare loginModel.password row.password = true → row.Open →
      OtpHandled loginModel row w (.ok ()) w₁.state → w.Rest w₁ → Session env row w₁ r s →
      LoginEnds env loginModel w r s

theorem Credentials.ok {loginModel : LoginModel} {user : UserModel} {s : State}
    (h : Credentials env loginModel w (.ok user) s) :
    ∃ row, user = row.entity ∧ s = w.state ∧ w.db.users.byEmail loginModel.email = some row ∧
      env.compare loginModel.password row.password = true := by
  cases h with
  | right hEmail hCompare => exact ⟨_, rfl, rfl, hEmail, hCompare⟩

theorem StatusChecked.ok {row : UserRow} (h : StatusChecked row (.ok ())) : row.Open := by
  cases h with
  | passes hOpen => exact hOpen

theorem OtpHandled.of_rest {loginModel : LoginModel} {row : UserRow} {w₁ : World}
    {r : Except Exception Unit} {s : State} (hState : w₁.state = w.state) (hRest : w.Rest w₁)
    (h : OtpHandled loginModel row w₁ r s) : OtpHandled loginModel row w r s := by
  cases h with
  | skipped hReads hNeeds => exact hState ▸ .skipped (hReads.of_rest hRest) hNeeds
  | unsent hReads hNeeds hCode h =>
    exact .unsent (hReads.of_rest hRest) hNeeds hCode (h.of_rest hState hRest)
  | required hReads hNeeds hCode h =>
    exact .required (hReads.of_rest hRest) hNeeds hCode (h.of_rest hState hRest)
  | unchecked hReads hNeeds hCode h =>
    exact .unchecked (hReads.of_rest hRest) hNeeds hCode (h.of_rest hState hRest)
  | wrong hReads hNeeds hCode h =>
    exact .wrong (hReads.of_rest hRest) hNeeds hCode (h.of_rest hState hRest)
  | right hReads hNeeds hCode h =>
    exact .right (hReads.of_rest hRest) hNeeds hCode (h.of_rest hState hRest)

theorem loginUser_cases {loginModel : LoginModel} {r : Except Exception JWTTokens}
    (hRun : run (alone env) (AuthService.loginUser loginModel) w = (r, w')) :
    LoginEnds env loginModel w r w'.state := by
  obtain ⟨e, rfl, hCheck⟩ | ⟨user, w₁, hCheck, hRun₁⟩ := run_bind_cases _ hRun
  · exact .rejected (validateUserCredentials_cases hCheck)
  obtain ⟨row, rfl, hState₁, hEmail, hCompare⟩ := (validateUserCredentials_cases hCheck).ok
  have hRest₁ := rest_run hCheck
  obtain ⟨e, rfl, hStatus⟩ | ⟨_, w₂, hStatus, hRun₂⟩ := run_bind_cases _ hRun₁ <;>
    obtain ⟨rfl, hChecked⟩ := checkUserStatus_cases hStatus
  · rw [hState₁]
    exact .closed hEmail hCompare hChecked
  have hRow : w₂.db.users.byId row.id = some row := by
    rw [World.state_db hState₁]
    exact byId_of_byEmail hEmail
  obtain ⟨e, rfl, hOtp⟩ | ⟨_, w₃, hOtp, hLogin⟩ := run_bind_cases _ hRun₂ <;>
    have hHandled := (handleOtpIfRequired_cases hRow hOtp).of_rest hState₁ hRest₁
  · exact .held hEmail hCompare hChecked.ok hHandled
  · have hRow₃ : w₃.db.users.byId row.id = some row := by
      rw [show w₃.db.users = w.db.users from hHandled.keeps.1]
      exact byId_of_byEmail hEmail
    exact .session hEmail hCompare hChecked.ok hHandled (hRest₁.trans (rest_run hOtp))
      (handleUserLogin_cases hRow₃ (stands_entity row) hLogin)

section Transition

def UserRow.undated (row : UserRow) : UserRow := { row with updatedAt := 0 }

def OtpRow.undated (row : OtpRow) : OtpRow := { row with updatedAt := 0 }

/-- Everything stored or mailed, the `updatedAt` columns put aside. -/
structure View where
  users : List UserRow
  otps : List OtpRow
  roles : List RoleRow
  mails : List Mail

def State.view (s : State) : View where
  users := s.db.users.rows.map UserRow.undated
  otps := s.db.otps.rows.map OtpRow.undated
  roles := s.db.roles
  mails := s.mails

def View.update (v : View) (row : UserRow) : View :=
  { v with users := UserTable.replace row.undated v.users }

theorem undated_touch (now : Time) (row row' : UserRow) :
    (UserTable.touch now row row').undated = row'.undated := by
  unfold UserTable.touch
  split <;> rfl

theorem view_updated {s : State} {users : UserTable} {row row' : UserRow} (hId : row'.id = row.id)
    (h : s.db.users.Updated users row row') :
    ({ s with db := { s.db with users } } : State).view = s.view.update row' := by
  obtain ⟨now, hRows⟩ := h
  have hUsers : users.rows.map UserRow.undated =
      UserTable.replace row'.undated (s.db.users.rows.map UserRow.undated) := by
    rw [hRows, UserTable.replace, UserTable.replace, List.map_map, List.map_map]
    apply List.map_congr_left
    intro r _
    simp only [Function.comp, UserTable.touch_id now row row' hId]
    split
    · rename_i hr
      rw [undated_touch]
      exact (if_pos (hr.trans hId.symm)).symm
    · rename_i hr
      exact (if_neg fun h => hr (h.trans hId)).symm
  simp [State.view, View.update, hUsers]

def otpAccepted (db : Database) (row : UserRow) (code : String) : Option OtpRow :=
  (db.otps.findByType .LOGIN_OTP (.val row.id)).filter fun otp =>
    OtpService.acceptsOtp code otp.entity

/-- What a login with right credentials is to do for an account that is open. -/
def SessionTransition (env : Env) (t : Time) (row : UserRow) (v : View)
    (r : Except Exception JWTTokens) (v' : View) : Prop :=
  let access := env.sign (Outside.payload { now := t } row.subject AUTH.TIME_ACCESS_TOKEN)
  let refresh := env.sign (Outside.payload { now := t } row.subject AUTH.TIME_REFRESH_TOKEN)
  (∃ salt₁ salt₂, r = .ok ⟨env.encrypt salt₁ access, env.encrypt salt₂ refresh⟩) ∧
    v' = v.update (row.session access refresh t)

/-- The transition a login request is to make at clock reading `t`. -/
def LoginTransition (env : Env) (t : Time) (loginModel : LoginModel) (db : Database) (v : View)
    (r : Except Exception JWTTokens) (v' : View) : Prop :=
  match db.users.byEmail loginModel.email with
  | none => r = .error AuthService.invalidCredentials ∧ v' = v
  | some row =>
    if env.compare loginModel.password row.password = false then
      r = .error AuthService.invalidCredentials ∧ v' = v.update row.recordFailure
    else if row.isVerified ≠ some true then r = .error .accountNotVerified ∧ v' = v
    else if row.isBlocked = some true then r = .error .accountBlocked ∧ v' = v
    else if row.needsOtp t then
      match loginModel.otpCode with
      | none => r = .error .otpRequired ∧ ∃ code now,
          v' = { v with
            otps := v.otps ++ [(db.otps.newRow .LOGIN_OTP code row.id now).undated]
            mails := v.mails ++ [⟨.val row.email, "LOGIN_OTP",
              { user := row.entity, otpCode := some code }⟩] }
      | some code =>
        match otpAccepted db row code with
        | none => r = .error .otpWrong ∧ v' = v
        | some otp => SessionTransition env t row { v with
            otps := OtpTable.replace { otp with wasUsed := true }.undated v.otps } r v'
    else SessionTransition env t row v r v'

theorem map_replace_undated {rows : List OtpRow} {row : OtpRow} :
    (OtpTable.replace row rows).map OtpRow.undated =
      OtpTable.replace row.undated (rows.map OtpRow.undated) := by
  rw [OtpTable.replace, OtpTable.replace, List.map_map, List.map_map]
  apply List.map_congr_left
  intro r _
  simp only [Function.comp, apply_ite OtpRow.undated]
  rfl

variable {t : Time} {loginModel : LoginModel} {row : UserRow} {r : Except Exception JWTTokens}
  {s : State}

theorem Session.transition (hCalm : w.Calm) (hClock : w.ClockAt t) (h : Session env row w r s) :
    SessionTransition env t row w.state.view r s.view := by
  cases h with
  | fails new hFails => exact absurd hCalm hFails
  | stored c₁ c₂ access refresh now salt₁ salt₂ users hAccess hRefresh hReads₁ hReads₂ hReads hUsers =>
    have hAt₁ := hReads₁ t hClock
    have hAt₂ := hReads₂ t hClock
    have hAt := hReads t hClock
    subst hAccess hRefresh hAt
    refine ⟨⟨salt₁, salt₂, ?_⟩, ?_⟩
    · simp [Outside.payload, hAt₁, hAt₂]
    · have hView := @view_updated w.state users row (row.session _ _ now) rfl hUsers
      simp only [Outside.payload, hAt₁, hAt₂] at hView ⊢
      exact hView

theorem OtpChecked.wrong_eq {code : String}
    (h : OtpChecked .LOGIN_OTP code (.val row.id) w (.ok false) s) :
    otpAccepted w.db row code = none ∧ s = w.state := by
  cases h with
  | refused hRow hRefuses => exact ⟨by simp [otpAccepted, hRow, hRefuses], rfl⟩

theorem OtpChecked.right_view {code : String}
    (h : OtpChecked .LOGIN_OTP code (.val row.id) w (.ok true) s) :
    ∃ otp, otpAccepted w.db row code = some otp ∧ s.view = { w.state.view with
      otps := OtpTable.replace { otp with wasUsed := true }.undated w.state.view.otps } := by
  cases h with
  | @accepted otp otps now hRow hAccepts hOtps =>
    refine ⟨otp, by simp [otpAccepted, hRow, hAccepts], ?_⟩
    have hView : otps.rows.map OtpRow.undated =
        OtpTable.replace { otp with wasUsed := true }.undated
          (w.db.otps.rows.map OtpRow.undated) := by
      rw [hOtps, map_replace_undated]
      rfl
    simp only [State.view, World.state, hView]

theorem otpCode_of_hasOtpCode (h : AuthService.hasOtpCode loginModel = true) :
    ∃ code, loginModel.otpCode = some code := by
  cases hCode : loginModel.otpCode with
  | none => simp [AuthService.hasOtpCode, hCode] at h
  | some code => exact ⟨code, rfl⟩

theorem otpCode_of_not_hasOtpCode (hCode : loginModel.otpCode ≠ some "")
    (h : AuthService.hasOtpCode loginModel = false) : loginModel.otpCode = none := by
  cases hSome : loginModel.otpCode with
  | none => rfl
  | some code =>
    rw [hSome] at hCode
    simp only [AuthService.hasOtpCode, hSome, Option.any_some, bne_eq_false_iff_eq] at h
    exact absurd (congrArg some h) hCode

theorem Credentials.transition {e : Exception} (hCalm : w.Calm)
    (h : Credentials env loginModel w (.error e) s) :
    LoginTransition env t loginModel w.db w.state.view (.error e) s.view := by
  cases h with
  | fails hFails => exact absurd hCalm hFails
  | unknown hEmail => simp [LoginTransition, hEmail]
  | @wrong row users hEmail hCompare hUsers =>
    simp only [LoginTransition, hEmail, hCompare hCalm, if_true, true_and]
    exact @view_updated w.state users row row.recordFailure rfl hUsers

theorem StatusChecked.transition {e : Exception}
    (hEmail : w.db.users.byEmail loginModel.email = some row)
    (hCompare : env.compare loginModel.password row.password = true)
    (h : StatusChecked row (.error e)) :
    LoginTransition env t loginModel w.db w.state.view (.error e) w.state.view := by
  cases h with
  | notVerified hVerified => simp [LoginTransition, hEmail, hCompare, hVerified]
  | blocked hVerified hBlocked => simp [LoginTransition, hEmail, hCompare, hVerified, hBlocked]

theorem OtpHandled.transition {e : Exception} (hCalm : w.Calm) (hClock : w.ClockAt t)
    (hCode : loginModel.otpCode ≠ some "")
    (hEmail : w.db.users.byEmail loginModel.email = some row)
    (hCompare : env.compare loginModel.password row.password = true) (hOpen : row.Open)
    (hRecord : row.needsOtp t = true → ∀ code, loginModel.otpCode = some code →
      w.db.otps.findByType .LOGIN_OTP (.val row.id) ≠ none)
    (h : OtpHandled loginModel row w (.error e) s) :
    LoginTransition env t loginModel w.db w.state.view (.error e) s.view := by
  simp only [LoginTransition, hEmail, hCompare, hOpen.1, hOpen.2, Bool.true_eq_false, ne_eq,
    not_true_eq_false, if_false]
  cases h with
  | unsent _ _ _ hSent =>
    cases hSent with
    | fails hFails => exact absurd hCalm hFails
  | required hReads hNeeds hHas hSent =>
    rw [hReads t hClock] at hNeeds
    rw [otpCode_of_not_hasOtpCode hCode hHas, if_pos hNeeds]
    cases hSent with
    | sent code now hOtps =>
      refine ⟨rfl, code, now, ?_⟩
      simp only [State.view, World.state, hOtps, List.map_append]
      rfl
  | unchecked hReads hNeeds hHas hChecked =>
    rw [hReads t hClock] at hNeeds
    obtain ⟨code, hSome⟩ := otpCode_of_hasOtpCode hHas
    cases hChecked with
    | fails hFails => exact absurd hCalm hFails
    | missing hNone => exact absurd hNone (hRecord hNeeds code hSome)
  | wrong hReads hNeeds hHas hChecked =>
    rw [hReads t hClock] at hNeeds
    obtain ⟨code, hSome⟩ := otpCode_of_hasOtpCode hHas
    rw [hSome] at hChecked
    obtain ⟨hNone, rfl⟩ := hChecked.wrong_eq
    simp only [Option.getD_some] at hNone
    simp only [hSome, if_pos hNeeds, hNone, and_self]

theorem OtpHandled.then_transition {s₁ : State} (hClock : w.ClockAt t)
    (hEmail : w.db.users.byEmail loginModel.email = some row)
    (hCompare : env.compare loginModel.password row.password = true) (hOpen : row.Open)
    (h : OtpHandled loginModel row w (.ok ()) s₁)
    (hTransition : SessionTransition env t row s₁.view r s.view) :
    LoginTransition env t loginModel w.db w.state.view r s.view := by
  simp only [LoginTransition, hEmail, hCompare, hOpen.1, hOpen.2, Bool.true_eq_false, ne_eq,
    not_true_eq_false, if_false]
  cases h with
  | skipped hReads hNeeds =>
    rw [hReads t hClock] at hNeeds
    rwa [if_neg (by simp [hNeeds])]
  | right hReads hNeeds hHas hChecked =>
    rw [hReads t hClock] at hNeeds
    obtain ⟨code, hSome⟩ := otpCode_of_hasOtpCode hHas
    rw [hSome] at hChecked
    obtain ⟨otp, hAccepted, hView⟩ := hChecked.right_view
    rw [hView] at hTransition
    simp only [Option.getD_some] at hAccepted
    simpa only [hSome, if_pos hNeeds, hAccepted] using hTransition

theorem loginUser_transition (hCalm : w.Calm) (hClock : w.ClockAt t)
    (hCode : loginModel.otpCode ≠ some "")
    (hRecord : ∀ row code, w.db.users.byEmail loginModel.email = some row →
      env.compare loginModel.password row.password = true → row.Open → row.needsOtp t = true →
      loginModel.otpCode = some code → w.db.otps.findByType .LOGIN_OTP (.val row.id) ≠ none) :
    LoginTransition env t loginModel w.db w.state.view
      (run (alone env) (AuthService.loginUser loginModel) w).1
      (run (alone env) (AuthService.loginUser loginModel) w).2.state.view := by
  rcases hRun : run (alone env) (AuthService.loginUser loginModel) w with ⟨r, w'⟩
  have hEnds := loginUser_cases hRun
  simp only
  generalize w'.state = s at hEnds ⊢
  cases hEnds with
  | rejected hRejected => exact hRejected.transition hCalm
  | closed hEmail hCompare hStatus => exact hStatus.transition hEmail hCompare
  | held hEmail hCompare hOpen hHandled =>
    exact hHandled.transition hCalm hClock hCode hEmail hCompare hOpen
      fun hNeeds code => hRecord _ code hEmail hCompare hOpen hNeeds
  | session hEmail hCompare hOpen hHandled hRest hSession =>
    exact hHandled.then_transition hClock hEmail hCompare hOpen
      (hSession.transition (hCalm.rest hRest) (hClock.rest hRest))

/-- One account, and a clock that stands still. -/
def Sample.still : World :=
  { Sample.world (Sample.oneUser Sample.row) with
    outside := ⟨fun _ => { now := 2000 }, [], []⟩ }

theorem loginUser_transition_sample :
    LoginTransition (Sample.env []) 2000 Sample.rightLogin Sample.still.db
      Sample.still.state.view
      (run (alone (Sample.env [])) (AuthService.loginUser Sample.rightLogin) Sample.still).1
      (run (alone (Sample.env [])) (AuthService.loginUser Sample.rightLogin)
        Sample.still).2.state.view :=
  loginUser_transition (fun _ => rfl) (fun _ => rfl) nofun (fun _ _ _ _ _ _ => nofun)

end Transition

end Manejaplus
