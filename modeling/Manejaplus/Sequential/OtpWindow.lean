import Manejaplus.Sequential.Login
import Manejaplus.Sequential.OneTimeUse

/-! # For how long a one-time password is accepted

Each call is made at a time of its own, at which its clock stands still.
-/
namespace Manejaplus
open Effect Prog
set_option autoImplicit false

/-- The calls that send or check a code. -/
inductive CodeCall where
  | loginUser (loginModel : LoginModel)
  | otp (c : OtpCall)
  deriving DecidableEq, Repr

inductive CodeAnswer where
  | tokens (tokens : JWTTokens)
  | otp (answer : OtpAnswer)
  deriving DecidableEq, Repr

def CodeCall.otpCode : CodeCall → Option String
  | .loginUser loginModel => loginModel.otpCode
  | .otp (.checkOtpCodeIsValid _ otpCode _) => some otpCode
  | .otp (.sendOtpCode _ _) => none

structure TimedCall where
  now : Time
  call : CodeCall
  deriving DecidableEq, Repr

def CodeCall.prog : CodeCall → Async CodeAnswer
  | .loginUser loginModel => do return .tokens (← AuthService.loginUser loginModel)
  | .otp c => do return .otp (← c.prog)

def World.setClock (now : Time) (w : World) : World :=
  { w with outside := { w.outside with tape := fun n => { w.outside.tape n with now } } }

def callAt (env : Env) (c : TimedCall) (w : World) : Except Exception CodeAnswer × World :=
  run (alone env) c.call.prog (w.setClock c.now)

namespace OtpWindow

abbrev Event := Effect.Event World TimedCall (Except Exception CodeAnswer)

/-- The call comes to `checkOtpCodeIsValid` with these arguments. -/
def Checks (env : Env) (now : Time) (db : Database) (typeOtp : TypeOtp) (otpCode userId : String) :
    CodeCall → Prop
  | .loginUser loginModel => typeOtp = .LOGIN_OTP ∧ loginModel.otpCode = some otpCode ∧
      otpCode ≠ "" ∧ ∃ user, db.users.byEmail loginModel.email = some user ∧ user.id = userId ∧
        env.compare loginModel.password user.password = true ∧ user.Open ∧ user.needsOtp now = true
  | .otp (.checkOtpCodeIsValid type code user) => type = typeOtp ∧ code = otpCode ∧ user = userId
  | .otp (.sendOtpCode _ _) => False

/-- The row has gone from unused to used. -/
def Accepted (t t' : OtpTable) (row : OtpRow) : Prop :=
  row ∈ t.rows ∧ row.wasUsed = false ∧ ∃ used ∈ t'.rows, used.id = row.id ∧ used.wasUsed = true

/-- A check that says yes, or a login that gets through where a code is asked for. -/
def Passes (now : Time) (db : Database) : CodeCall → Except Exception CodeAnswer → Prop
  | .loginUser loginModel, .ok _ =>
    ∃ user, db.users.byEmail loginModel.email = some user ∧ user.needsOtp now = true
  | .otp _, out => out = .ok (.otp (.valid true))
  | _, _ => False

/-- Whatever has been accepted was created at most `TIME_OTP_VALID` before. -/
structure InTime (ev : Event) : Prop where
  accepted : ∀ row, Accepted ev.before.db.otps ev.after.db.otps row →
    ev.request.now ≤ row.createdAt + AUTH.TIME_OTP_VALID
  passes : Passes ev.request.now ev.before.db ev.request.call ev.outcome →
    ∃ row, Accepted ev.before.db.otps ev.after.db.otps row ∧
      ev.request.call.otpCode = some row.otp

/-- A code that is checked is still valid, unless it is refused anyway. -/
def Timely (env : Env) (w : World) (c : TimedCall) : Prop :=
  ∀ typeOtp otpCode userId row, Checks env c.now w.db typeOtp otpCode userId c.call →
    w.db.otps.findByType typeOtp (.val userId) = some row → row.otp = otpCode →
    row.wasUsed = false → AUTH.TIME_OTP_VALID < row.createdAt →
    c.now ≤ row.createdAt + AUTH.TIME_OTP_VALID

variable {env : Env} {w w' : World}

theorem not_accepted {t t' : OtpTable} (hKept : ∀ row ∈ t.rows, row ∈ t'.rows) (row : OtpRow) :
    ¬ Accepted t t' row := by
  rintro ⟨hRow, hUnused, used, hUsed, hId, hWasUsed⟩
  have hSame : used = row := List.inj_on_of_nodup_map t'.nodupId hUsed (hKept row hRow) hId
  rw [hSame, hUnused] at hWasUsed
  cases hWasUsed

/-- The only way to accept a row, or to pass, is a check that finds it newest and matching. -/
inductive CodeServed (env : Env) (now : Time) (w : World) :
    CodeCall → Except Exception CodeAnswer → OtpTable → Prop
  | kept {c : CodeCall} {out : Except Exception CodeAnswer} {t : OtpTable} :
      (∀ row ∈ w.db.otps.rows, row ∈ t.rows) → ¬ Passes now w.db c out →
      CodeServed env now w c out t
  | accepted {c : CodeCall} {out : Except Exception CodeAnswer} {t : OtpTable} {row : OtpRow}
      (typeOtp : TypeOtp) (otpCode userId : String) (updatedAt : Time) :
      Checks env now w.db typeOtp otpCode userId c →
      w.db.otps.findByType typeOtp (.val userId) = some row →
      OtpService.acceptsOtp otpCode row.entity = true →
      t.rows = OtpTable.replace { row with wasUsed := true, updatedAt } w.db.otps.rows →
      CodeServed env now w c out t

theorem served_otp {now : Time} {c : OtpCall} {out : Except Exception OtpAnswer} {db : Database}
    (h : OtpServed w c out db) : CodeServed env now w (.otp c) (out.map .otp) db.otps := by
  cases h with
  | failed => exact .kept (fun _ h => h) nofun
  | sent userId code now _ hRows =>
    refine .kept (fun row hRow => ?_) nofun
    rw [hRows]
    exact List.mem_append_left _ hRow
  | refused => exact .kept (fun _ h => h) nofun
  | accepted updatedAt hRow hAccepts hRows =>
    exact .accepted _ _ _ updatedAt ⟨rfl, rfl, rfl⟩ hRow hAccepts hRows

theorem served_login {now : Time} {loginModel : LoginModel} {r : Except Exception JWTTokens}
    {s : State} (hClock : w.ClockAt now) (h : LoginEnds env loginModel w r s) :
    CodeServed env now w (.loginUser loginModel) (r.map .tokens) s.db.otps := by
  cases h with
  | rejected hRejected => cases hRejected <;> exact .kept (fun _ h => h) nofun
  | closed => exact .kept (fun _ h => h) nofun
  | held _ _ _ hHandled =>
    cases hHandled with
    | unsent _ _ _ hSent =>
      cases hSent
      exact .kept (fun _ h => h) nofun
    | required _ _ _ hSent =>
      cases hSent with
      | sent code sentAt hRows =>
        refine .kept (fun row hRow => ?_) nofun
        rw [hRows]
        exact List.mem_append_left _ hRow
    | unchecked _ _ _ hChecked => cases hChecked <;> exact .kept (fun _ h => h) nofun
    | wrong _ _ _ hChecked =>
      cases hChecked
      exact .kept (fun _ h => h) nofun
  | @session user w₁ r s hEmail hCompare hOpen hHandled _ hSession =>
    have hOtps : s.db.otps = w₁.db.otps := by cases hSession <;> rfl
    rw [hOtps]
    generalize hState₁ : w₁.state = s₁ at hHandled
    have hOtps₁ : w₁.db.otps = s₁.db.otps := congrArg (fun s => s.db.otps) hState₁
    rw [hOtps₁]
    cases hHandled with
    | skipped hReads hNeeds =>
      rw [hReads now hClock] at hNeeds
      refine .kept (fun _ h => h) ?_
      cases r with
      | error e => exact nofun
      | ok tokens =>
        rintro ⟨other, hOther, hOtherNeeds⟩
        cases hEmail.symm.trans hOther
        rw [hNeeds] at hOtherNeeds
        cases hOtherNeeds
    | right hReads hNeeds hHas hChecked =>
      rw [hReads now hClock] at hNeeds
      cases hChecked with
      | accepted updatedAt hRow hAccepts hRows =>
        refine .accepted .LOGIN_OTP _ user.id updatedAt ?_ hRow hAccepts hRows
        cases hCode : loginModel.otpCode with
        | none => simp [AuthService.hasOtpCode, hCode] at hHas
        | some code =>
          have hNe : code ≠ "" := by simpa [AuthService.hasOtpCode, hCode] using hHas
          exact ⟨rfl, hCode, hNe, user, hEmail, rfl, hCompare, hOpen, hNeeds⟩

theorem callAt_cases {c : TimedCall} {out : Except Exception CodeAnswer}
    (hCall : callAt env c w = (out, w')) : CodeServed env c.now w c.call out w'.db.otps := by
  obtain ⟨now, call⟩ := c
  have hClock : (w.setClock now).ClockAt now := fun _ => rfl
  have hServed : CodeServed env now (w.setClock now) call out w'.db.otps := by
    cases call with
    | loginUser loginModel =>
      obtain ⟨r, hRun, rfl⟩ := run_map_cases _ hCall
      exact served_login hClock (loginUser_cases hRun)
    | otp c =>
      obtain ⟨r, hRun, rfl⟩ := run_map_cases _ hCall
      exact served_otp (callAlone_cases hRun)
  -- setting the clock leaves the database as it is
  cases hServed with
  | kept hKept hPasses => exact .kept hKept hPasses
  | accepted typeOtp otpCode userId updatedAt hChecks hRow hAccepts hRows =>
    exact .accepted typeOtp otpCode userId updatedAt hChecks hRow hAccepts hRows

theorem mem_marked {t : OtpTable} {row r : OtpRow} {updatedAt : Time} (hRow : row ∈ t.rows) :
    r ∈ OtpTable.replace { row with wasUsed := true, updatedAt } t.rows ↔
      r = { row with wasUsed := true, updatedAt } ∨ (r ∈ t.rows ∧ r ≠ row) :=
  OtpTable.mem_replace hRow (row.keeps_used updatedAt).id

/-- A row is accepted only by a check that matches it, and only then is the table changed. -/
theorem accepted_replace {t : OtpTable} {row accepted : OtpRow} {updatedAt : Time}
    (hRow : row ∈ w.db.otps.rows)
    (hRows : t.rows = OtpTable.replace { row with wasUsed := true, updatedAt } w.db.otps.rows)
    (h : Accepted w.db.otps t accepted) : accepted = row := by
  obtain ⟨hMem, hUnused, used, hUsed, hUsedId, hWasUsed⟩ := h
  by_contra hNe
  have hKept : accepted ∈ t.rows := by
    rw [hRows]
    exact (mem_marked hRow).mpr (.inr ⟨hMem, hNe⟩)
  have hSame : used = accepted := List.inj_on_of_nodup_map t.nodupId hUsed hKept hUsedId
  rw [hSame, hUnused] at hWasUsed
  cases hWasUsed

theorem code_of_checks {now : Time} {typeOtp : TypeOtp} {otpCode userId : String} {c : CodeCall}
    (h : Checks env now w.db typeOtp otpCode userId c) : c.otpCode = some otpCode := by
  cases c with
  | loginUser loginModel => exact h.2.1
  | otp c =>
    cases c with
    | sendOtpCode => cases h
    | checkOtpCodeIsValid => exact congrArg some h.2.1

theorem acceptsOtp_row {otpCode : String} {row : OtpRow}
    (h : OtpService.acceptsOtp otpCode row.entity = true) :
    row.otp = otpCode ∧ AUTH.TIME_OTP_VALID < row.createdAt ∧ row.wasUsed = false := by
  have hUnused := wasUsed_of_accepts h
  simp only [OtpService.acceptsOtp, OtpRow.entity, Bool.and_eq_true, decide_eq_true_eq,
    Js.val.injEq] at h
  exact ⟨h.1.1, h.1.2, hUnused⟩

theorem timely_of_recent {c : TimedCall}
    (h : ∀ row ∈ w.db.otps.rows, c.now ≤ row.createdAt + AUTH.TIME_OTP_VALID) : Timely env w c :=
  fun _ _ _ row _ hRow _ _ _ => h row (OtpTable.findByType_mem hRow).1

theorem inTime_event (env : Env) (c : TimedCall) (w : World) (hTimely : Timely env w c) :
    InTime (serveEvent (callAt env) c w) := by
  have hServed : CodeServed env c.now w c.call (serveEvent (callAt env) c w).outcome
    (serveEvent (callAt env) c w).after.db.otps := callAt_cases rfl
  have hRequest : (serveEvent (callAt env) c w).request = c := rfl
  have hBefore : (serveEvent (callAt env) c w).before = w := rfl
  generalize serveEvent (callAt env) c w = ev at hServed hRequest hBefore ⊢
  subst hRequest hBefore
  cases hServed with
  | kept hKept hPasses =>
    exact ⟨fun row hAccepted => absurd hAccepted (not_accepted hKept row), fun h => absurd h hPasses⟩
  | @accepted row typeOtp otpCode userId updatedAt hChecks hRow hAccepts hRows =>
    obtain ⟨hCode, hCreated, hUnused⟩ := acceptsOtp_row hAccepts
    have hMem := (OtpTable.findByType_mem hRow).1
    constructor
    case accepted =>
      intro accepted hAccepted
      rw [accepted_replace hMem hRows hAccepted]
      exact hTimely typeOtp otpCode userId row hChecks hRow hCode hUnused hCreated
    case passes =>
      intro _
      refine ⟨row, ⟨hMem, hUnused, { row with wasUsed := true, updatedAt }, ?_, rfl, rfl⟩, ?_⟩
      · rw [hRows]
        exact (mem_marked hMem).mpr (.inl rfl)
      · rw [hCode]
        exact code_of_checks hChecks

end OtpWindow

/-- As long as no matching code is checked too late, none is accepted too late. -/
theorem codes_expire (env : Env) (start : World) (calls : List TimedCall)
    (hTimely : Steps (callAt env) start (fun _ w c => OtpWindow.Timely env w c) calls) :
    ∀ ev ∈ history (callAt env) start calls, OtpWindow.InTime ev :=
  history_forall (fun _ w c hc => OtpWindow.inTime_event env c w hc) hTimely

namespace Sample

/-- A login asks for a code at `sent`, and is made again with that code at `checked`. -/
def codeCalls (sent checked : Time) : List TimedCall :=
  [⟨checked, .loginUser ⟨"ana@x.io", "pw", some "100000"⟩⟩, ⟨sent, .loginUser rightLogin⟩]

def codeHistory (sent checked : Time) : List OtpWindow.Event :=
  history (callAt (Sample.env [])) Sample.otpWorld (codeCalls sent checked)

def codeRow (updatedAt : Time) (wasUsed : Bool) : OtpRow where
  id := 1
  otp := "100000"
  typeOtp := .LOGIN_OTP
  user := some "u"
  wasUsed := wasUsed
  createdAt := 100000000
  updatedAt := updatedAt

end Sample

theorem codes_expire_sample :
    (∀ ev ∈ Sample.codeHistory 100000000 100060000, OtpWindow.InTime ev) ∧
      (Sample.codeHistory 100000000 100060000).map (fun ev => ev.outcome.isOk) = [true, false] :=
  ⟨codes_expire _ _ _ ⟨OtpWindow.timely_of_recent (by decide),
    OtpWindow.timely_of_recent (by decide), trivial⟩, by decide⟩

/-- A code of the day before gets its user in. -/
theorem codes_expire_counterexample : ¬ ∀ (env : Env) (start : World) (calls : List TimedCall),
    ∀ ev ∈ history (callAt env) start calls, OtpWindow.InTime ev := by
  intro h
  have hLate := (h (Sample.env []) Sample.otpWorld (Sample.codeCalls 100000000 200000000) _
    List.mem_cons_self).accepted (Sample.codeRow 100000000 false)
    ⟨by decide, rfl, Sample.codeRow 200000000 true, by decide, rfl, rfl⟩
  exact absurd hLate (by decide)

end Manejaplus
