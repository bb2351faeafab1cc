import Manejaplus.Sequential.Transactional

/-! # One-time passwords during a login -/
namespace Manejaplus
open Effect Prog
set_option autoImplicit false

variable {env : Env} {w w' : World}

theorem OtpRow.write_used {row : OtpRow} (users : UserTable) (now : Time)
    (hUsed : row.wasUsed = false) :
    OtpTable.write users now { row.entity with wasUsed := .val true } row =
      some { row with wasUsed := true, updatedAt := now } := by
  have hNe : ({ row with wasUsed := true } : OtpRow) ≠ row := by
    intro h
    have := congrArg OtpRow.wasUsed h
    rw [hUsed] at this
    cases this
  simp [OtpTable.write, OtpRow.entity, OtpTable.userKey, hNe]

inductive OtpChecked (typeOtp : TypeOtp) (code : String) (userId : Js String) (w : World) :
    Except Exception Bool → State → Prop
  | fails : ¬ w.Calm → OtpChecked typeOtp code userId w (.error .external) w.state
  | missing : w.db.otps.findByType typeOtp userId = none →
      OtpChecked typeOtp code userId w (.error .typeError) w.state
  | refused {row : OtpRow} : w.db.otps.findByType typeOtp userId = some row →
      OtpService.acceptsOtp code row.entity = false →
      OtpChecked typeOtp code userId w (.ok false) w.state
  | accepted {row : OtpRow} {otps : OtpTable} (now : Time) :
      w.db.otps.findByType typeOtp userId = some row →
      OtpService.acceptsOtp code row.entity = true →
      otps.rows = OtpTable.replace { row with wasUsed := true, updatedAt := now } w.db.otps.rows →
      OtpChecked typeOtp code userId w (.ok true) { w.state with db := { w.db with otps } }

theorem wasUsed_of_accepts {code : String} {row : OtpRow}
    (h : OtpService.acceptsOtp code row.entity = true) : row.wasUsed = false := by
  simp [OtpService.acceptsOtp, OtpRow.entity, Js.truthy] at h
  exact h.2

theorem checkOtpCodeIsValid_cases {typeOtp : TypeOtp} {code : String} {userId : Js String}
    {r : Except Exception Bool}
    (hRun : run (alone env) (OtpService.checkOtpCodeIsValid typeOtp code userId) w = (r, w')) :
    OtpChecked typeOtp code userId w r w'.state := by
  obtain ⟨e, rfl, hFind⟩ | ⟨found, w₁, hFind, hRun₁⟩ := run_bind_cases _ hRun <;>
    obtain ⟨hState₁, hFound⟩ := findOtp_cases hFind
  · obtain hFails | hOk := hFound
    · cases hFails.1
      exact hState₁ ▸ .fails hFails.2
    · cases hOk
  obtain hFails | hOk := hFound
  · cases hFails.1
  cases hOk
  have hDb : w₁.db = w.db := World.state_db hState₁
  cases hRow : w.db.otps.findByType typeOtp userId with
  | none =>
    rw [hRow] at hRun₁
    cases hRun₁
    exact hState₁ ▸ .missing hRow
  | some row =>
    simp only [hRow, Option.map_some] at hRun₁
    split at hRun₁
    · rename_i hAccepts
      have hTable : ∃ otps, w₁.db.otps.save w₁.db.users w₁.choice.now
            { row.entity with wasUsed := .val true } =
            some ({ row.entity with wasUsed := .val true, updatedAt := .val w₁.choice.now }, otps) ∧
          otps.rows = OtpTable.replace
            { row with wasUsed := true, updatedAt := w₁.choice.now } w.db.otps.rows := by
        obtain ⟨otps, hRows, hOtps⟩ := @OtpTable.ofRows?_replace w.db.otps
          { row with wasUsed := true, updatedAt := w₁.choice.now }
        have hMem := (OtpTable.findByType_mem hRow).1
        refine ⟨otps, ?_, hOtps⟩
        rw [hDb]
        simp only [OtpTable.save, OtpRow.entity, OtpTable.byId_of_mem hMem]
        have hWrite := @OtpRow.write_used row w.db.users w₁.choice.now
          (wasUsed_of_accepts hAccepts)
        rw [OtpRow.entity] at hWrite
        simp only [hWrite, hRows, Option.bind_eq_bind, Option.bind_some]
      obtain ⟨otps, hSaved, hOtps⟩ := hTable
      obtain ⟨e, rfl, hSave⟩ | ⟨saved, w₂, hSave, hEnd⟩ := run_bind_cases _ hRun₁ <;>
        obtain ⟨hState₂, hFails⟩ | hOk := saveOtp_cases hSave
      · cases hFails.1
        rw [hState₂, hState₁]
        exact .fails (hFails.of_rest (rest_run hFind)).2
      · rw [hSaved] at hOk
        cases hOk.1
      · cases hFails.1
      · cases hEnd
        rw [hSaved] at hOk
        rw [hOk.2, hState₁, hDb]
        exact .accepted _ hRow hAccepts hOtps
    · rename_i hRefuses
      cases hRun₁
      exact hState₁ ▸ .refused hRow (by simpa using hRefuses)

def OtpTable.newRow (t : OtpTable) (typeOtp : TypeOtp) (code : String) (user : String)
    (now : Time) : OtpRow where
  id := t.nextId
  otp := code
  typeOtp := typeOtp
  user := some user
  wasUsed := false
  createdAt := now
  updatedAt := now

inductive OtpSent (typeOtp : TypeOtp) (row : UserRow) (w : World) :
    Except Exception UserModel → State → Prop
  | fails : ¬ w.Calm → OtpSent typeOtp row w (.error .external) w.state
  | sent {user : UserModel} {otps : OtpTable} (code : String) (now : Time) :
      otps.rows = w.db.otps.rows ++ [w.db.otps.newRow typeOtp code row.id now] →
      OtpSent typeOtp row w (.ok user) { w.state with
        db := { w.db with otps }
        mails := w.state.mails ++
          [⟨.val row.email, typeOtp.text, { user := row.entity, otpCode := some code }⟩] }

theorem saveNewOtp_cases {typeOtp : TypeOtp} {code : String} {row : UserRow}
    {r : Except Exception OtpObject} (hRow : w.db.users.byId row.id = some row)
    (hRun : run (alone env) (OtpRepositoryImpl.save
      { typeOtp := .val typeOtp, otp := .val code, user := .val row.entity }) w = (r, w')) :
    (w'.state = w.state ∧ Fails w r) ∨
    ∃ saved otps now, r = .ok saved ∧
      otps.rows = w.db.otps.rows ++ [w.db.otps.newRow typeOtp code row.id now] ∧
      w'.state = { w.state with db := { w.db with otps } } := by
  obtain hFails | hSave := saveOtp_cases hRun
  · exact .inl hFails
  · obtain ⟨otps, hRows, hOtps⟩ := @OtpTable.ofRows?_append w.db.otps
      (w.db.otps.newRow typeOtp code row.id w.choice.now) rfl
    have hNew : OtpTable.ofEntity w.db.users w.db.otps.nextId w.choice.now
        { typeOtp := .val typeOtp, otp := .val code, user := .val row.entity } =
        some (w.db.otps.newRow typeOtp code row.id w.choice.now) := by
      simp [OtpTable.ofEntity, OtpTable.userKey, Js.required, UserRow.entity, hRow, OtpTable.newRow]
    simp only [OtpTable.save, hNew, hRows, Option.bind_eq_bind, Option.bind_some] at hSave
    exact .inr ⟨_, otps, _, hSave.1, hOtps, hSave.2⟩

theorem generateOtp_run {r : Except Exception String}
    (hRun : run (alone env) OtpService.generateOtp w = (r, w')) :
    w'.state = w.state ∧ ∃ code, r = .ok code := by
  obtain ⟨e, rfl, hRandom⟩ | ⟨n, w₁, hRandom, hEnd⟩ := run_bind_cases _ hRun <;>
    obtain ⟨hState, hOk⟩ := random_run hRandom
  · cases hOk
  · cases hEnd
    exact ⟨hState, _, rfl⟩

theorem sendOtpCode_cases {typeOtp : TypeOtp} {row : UserRow} {r : Except Exception UserModel}
    (hRow : w.db.users.byId row.id = some row)
    (hRun : run (alone env) (OtpService.sendOtpCode typeOtp row.entity) w = (r, w')) :
    OtpSent typeOtp row w r w'.state := by
  unfold OtpService.sendOtpCode at hRun
  obtain ⟨hState, hFails⟩ | ⟨w₁, w₂, hState₁, hRest₁, hBody, hState⟩ :=
      transactional_cases (plain_of_among (performs_sendOtpCode _ _) (by decide)) hRun
  · cases hFails.1
    exact hState ▸ .fails hFails.2
  rw [hState]
  obtain ⟨e, rfl, hCode⟩ | ⟨code, w₃, hCode, hBody₁⟩ := run_bind_cases _ hBody <;>
    obtain ⟨hCodeState, _, hCodeOk⟩ := generateOtp_run hCode
  · cases hCodeOk
  have hState₃ : w₃.state = w.state := hCodeState.trans hState₁
  have hRest₃ := hRest₁.trans (rest_run hCode)
  have hRow₃ : w₃.db.users.byId row.id = some row := by rwa [World.state_db hState₃]
  rw [SqlGlobalMapper.mapClass_default] at hBody₁
  obtain ⟨e, rfl, hSave⟩ | ⟨saved, w₅, hSave, hBody₂⟩ := run_bind_cases _ hBody₁ <;>
    obtain ⟨hState₅, hFails⟩ | ⟨_, otps, now, hOk, hOtps, hState₅⟩ := saveNewOtp_cases hRow₃ hSave
  · cases hFails.1
    rw [hState₅, hState₃]
    exact .fails (hFails.of_rest hRest₃).2
  · cases hOk
  · cases hFails.1
  rw [hState₃, World.state_db hState₃] at hState₅
  rw [World.state_db hState₃] at hOtps
  have hRest₅ := hRest₃.trans (rest_run hSave)
  obtain ⟨e, rfl, hMail⟩ | ⟨_, w₆, hMail, hEnd⟩ := run_bind_cases _ hBody₂ <;>
    obtain ⟨hState₆, hFails⟩ | ⟨hOk, hState₆⟩ := sendEmail_cases hMail
  · cases hFails.1
    rw [hState₆, hState₅]
    exact .fails (hFails.of_rest hRest₅).2
  · cases hOk
  · cases hFails.1
  · cases hEnd
    rw [hState₆, hState₅]
    exact .sent _ now hOtps

def UserRow.needsOtp (row : UserRow) (now : Time) : Bool :=
  match row.lastConnection with
  | some lastConnection => UserModel.needsOtpAt (.val row.maintainSession) lastConnection now
  | none => true

theorem validateNeedOtpToLogin_run {row : UserRow} {r : Except Exception Bool}
    (hRun : run (alone env) (UserModel.validateNeedOtpToLogin row.entity) w = (r, w')) :
    w'.state = w.state ∧ ∃ now, w.Reads now ∧ r = .ok (row.needsOtp now) := by
  cases hLast : row.lastConnection with
  | none =>
    simp only [UserModel.validateNeedOtpToLogin, UserRow.entity, hLast, Js.ofOption] at hRun
    cases hRun
    exact ⟨rfl, _, w.reads_choice, by simp [UserRow.needsOtp, hLast]⟩
  | some lastConnection =>
    simp only [UserModel.validateNeedOtpToLogin, UserRow.entity, hLast, Js.ofOption] at hRun
    obtain ⟨e, rfl, hNow⟩ | ⟨now, w₁, hNow, hEnd⟩ := run_bind_cases _ hRun <;>
      obtain ⟨hState, hClock⟩ := newDate_run hNow
    · cases hClock
    · cases hClock
      cases hEnd
      exact ⟨hState, _, w.reads_choice, by simp [UserRow.needsOtp, hLast]⟩

theorem OtpSent.of_rest {typeOtp : TypeOtp} {row : UserRow} {w₁ : World}
    {r : Except Exception UserModel} {s : State} (hState : w₁.state = w.state)
    (hRest : w.Rest w₁) (h : OtpSent typeOtp row w₁ r s) : OtpSent typeOtp row w r s := by
  cases h with
  | fails hCalm => exact hState ▸ .fails fun h => hCalm (h.rest hRest)
  | sent code now hOtps =>
    rw [hState, World.state_db hState]
    rw [World.state_db hState] at hOtps
    exact .sent code now hOtps

theorem OtpChecked.of_rest {typeOtp : TypeOtp} {code : String} {userId : Js String} {w₁ : World}
    {r : Except Exception Bool} {s : State} (hState : w₁.state = w.state) (hRest : w.Rest w₁)
    (h : OtpChecked typeOtp code userId w₁ r s) : OtpChecked typeOtp code userId w r s := by
  have hDb := World.state_db hState
  cases h with
  | fails hCalm => exact hState ▸ .fails fun h => hCalm (h.rest hRest)
  | missing hRow => exact hState ▸ .missing (hDb ▸ hRow)
  | refused hRow hRefuses => exact hState ▸ .refused (hDb ▸ hRow) hRefuses
  | accepted now hRow hAccepts hOtps =>
    rw [hState, hDb]
    exact .accepted now (hDb ▸ hRow) hAccepts (hDb ▸ hOtps)

inductive OtpHandled (loginModel : LoginModel) (row : UserRow) (w : World) :
    Except Exception Unit → State → Prop
  | skipped {now : Time} : w.Reads now → row.needsOtp now = false →
      OtpHandled loginModel row w (.ok ()) w.state
  | unsent {now : Time} {s : State} {e : Exception} : w.Reads now → row.needsOtp now = true →
      AuthService.hasOtpCode loginModel = false → OtpSent .LOGIN_OTP row w (.error e) s →
      OtpHandled loginModel row w (.error e) s
  | required {now : Time} {s : State} {user : UserModel} : w.Reads now →
      row.needsOtp now = true → AuthService.hasOtpCode loginModel = false →
      OtpSent .LOGIN_OTP row w (.ok user) s → OtpHandled loginModel row w (.error .otpRequired) s
  | unchecked {now : Time} {s : State} {e : Exception} : w.Reads now → row.needsOtp now = true →
      AuthService.hasOtpCode loginModel = true →
      OtpChecked .LOGIN_OTP (loginModel.otpCode.getD "") (.val row.id) w (.error e) s →
      OtpHandled loginModel row w (.error e) s
  | wrong {now : Time} {s : State} : w.Reads now → row.needsOtp now = true →
      AuthService.hasOtpCode loginModel = true →
      OtpChecked .LOGIN_OTP (loginModel.otpCode.getD "") (.val row.id) w (.ok false) s →
      OtpHandled loginModel row w (.error .otpWrong) s
  | right {now : Time} {s : State} : w.Reads now → row.needsOtp now = true →
      AuthService.hasOtpCode loginModel = true →
      OtpChecked .LOGIN_OTP (loginModel.otpCode.getD "") (.val row.id) w (.ok true) s →
      OtpHandled loginModel row w (.ok ()) s

theorem handleOtpIfRequired_cases {loginModel : LoginModel} {row : UserRow}
    {r : Except Exception Unit} (hRow : w.db.users.byId row.id = some row)
    (hRun : run (alone env) (AuthService.handleOtpIfRequired row.entity loginModel) w = (r, w')) :
    OtpHandled loginModel row w r w'.state := by
  obtain ⟨e, rfl, hNeed⟩ | ⟨needed, w₁, hNeed, hRun₁⟩ := run_bind_cases _ hRun <;>
    obtain ⟨hState₁, now, hReads, hOk⟩ := validateNeedOtpToLogin_run hNeed <;> cases hOk
  have hRest₁ := rest_run hNeed
  cases hCode : AuthService.hasOtpCode loginModel with
  | false =>
    cases hNeeded : row.needsOtp now with
    | true =>
      simp only [hNeeded, hCode, Bool.not_false, Bool.and_self, if_true] at hRun₁
      have hRow₁ : w₁.db.users.byId row.id = some row := by rwa [World.state_db hState₁]
      obtain ⟨e, rfl, hSend⟩ | ⟨user, w₂, hSend, hEnd⟩ := run_bind_cases _ hRun₁ <;>
        have hSent := (sendOtpCode_cases hRow₁ hSend).of_rest hState₁ hRest₁
      · exact .unsent hReads hNeeded hCode hSent
      · cases hEnd
        exact .required hReads hNeeded hCode hSent
    | false =>
      simp only [hNeeded, hCode, Bool.not_false, Bool.false_and, Bool.false_eq_true, if_false] at hRun₁
      obtain ⟨e, rfl, hNeed'⟩ | ⟨needed, w₂, hNeed', hEnd⟩ := run_bind_cases _ hRun₁ <;>
        obtain ⟨hState₂, now', hReads', hOk⟩ := validateNeedOtpToLogin_run hNeed' <;> cases hOk
      simp only [Bool.and_false, Bool.false_eq_true, if_false] at hEnd
      cases hEnd
      rw [hState₂, hState₁]
      exact .skipped hReads hNeeded
  | true =>
    simp only [hCode, Bool.not_true, Bool.and_false, Bool.false_eq_true, if_false, Bool.and_true]
      at hRun₁
    obtain ⟨e, rfl, hNeed'⟩ | ⟨needed, w₂, hNeed', hRun₂⟩ := run_bind_cases _ hRun₁ <;>
      obtain ⟨hState₂, now', hReads', hOk⟩ := validateNeedOtpToLogin_run hNeed' <;> cases hOk
    have hState : w₂.state = w.state := hState₂.trans hState₁
    have hRest₂ := hRest₁.trans (rest_run hNeed')
    cases hNeeded : row.needsOtp now' with
    | false =>
      simp only [hNeeded, Bool.false_eq_true, if_false] at hRun₂
      cases hRun₂
      rw [hState]
      exact .skipped (hReads'.of_rest hRest₁) hNeeded
    | true =>
      simp only [hNeeded, if_true] at hRun₂
      have hReads₂ := hReads'.of_rest hRest₁
      obtain ⟨e, rfl, hCheck⟩ | ⟨isValid, w₃, hCheck, hEnd⟩ := run_bind_cases _ hRun₂ <;>
        have hChecked := (checkOtpCodeIsValid_cases hCheck).of_rest hState hRest₂
      · exact .unchecked hReads₂ hNeeded hCode hChecked
      · cases isValid with
        | true =>
          cases hEnd
          exact .right hReads₂ hNeeded hCode hChecked
        | false =>
          cases hEnd
          exact .wrong hReads₂ hNeeded hCode hChecked

end Manejaplus
