import Manejaplus.Sequential.OtpCalls
import Manejaplus.Sequential.SameAccount
import Manejaplus.Transactions.Alone
import Manejaplus.Transactions.OwnWrites

/-! # A row and its mail, or neither -/
namespace Manejaplus
open Effect Prog
set_option autoImplicit false

variable {env : Env} {tw tw' : TxWorld}

section Requests

theorem simulated_createUser (dto : CreateUserDto) :
    Simulated env (UserController.createUser dto) :=
  simulated_decorated (on_of_among (performs_createUser _) (by decide))

theorem simulated_sendOtpCode (type : TypeOtp) (userModel : UserModel) :
    Simulated env (OtpService.sendOtpCode type userModel) :=
  simulated_decorated (on_of_among (performs_sendOtpCode type userModel) (by decide))

theorem simulated_updateByToken (setFlag : UserEntity → UserEntity) (token : String) :
    Simulated env (AuthService.updateByToken setFlag token) :=
  simulated_decorated (on_of_among (performs_updateByToken setFlag token) (by decide))

theorem simulated_handleOtpIfRequired (user : UserModel) (loginModel : LoginModel) :
    Simulated env (AuthService.handleOtpIfRequired user loginModel) := by
  have hNeeds : Simulated env (UserModel.validateNeedOtpToLogin user) :=
    simulated_plain (plain_of_among (performs_validateNeedOtpToLogin user) (by decide))
  apply simulated_bind hNeeds
  intro needs
  split
  · exact simulated_bind (simulated_sendOtpCode _ _) fun _ => simulated_plain trivial
  · apply simulated_bind hNeeds
    intro needs'
    split
    · refine simulated_plain (uses_bind
        (plain_of_among (performs_checkOtpCodeIsValid _ _ _) (by decide)) fun isValid => ?_)
      split <;> trivial
    · exact simulated_plain trivial

theorem simulated_loginUser (loginModel : LoginModel) :
    Simulated env (AuthService.loginUser loginModel) := by
  apply simulated_bind (simulated_plain
    (plain_of_among (performs_validateUserCredentials loginModel) (by decide)))
  intro user
  refine simulated_bind
    (simulated_plain (plain_of_among (performs_checkUserStatus user) (by decide))) fun _ => ?_
  apply simulated_bind (simulated_handleOtpIfRequired user loginModel)
  intro _
  exact simulated_plain (plain_of_among (performs_handleUserLogin user) (by decide))

/-- One call at a time, the managers in the shared fields come to what `alone` does. -/
theorem simulated_prog (call : Call) : Simulated env (call.prog env.cases) := by
  cases call with
  | sendOtpCode type userModel => exact simulated_map (simulated_sendOtpCode type userModel) _
  | request q =>
    cases q with
    | createUser dto => exact simulated_map (simulated_createUser dto) _
    | loginUser loginModel => exact simulated_map (simulated_loginUser loginModel) _
    | unlockAccount loginModel =>
      exact simulated_map (simulated_plain (plain_of_among (performs_unlockAccount _) (by decide))) _
    | googleLoginUser user =>
      exact simulated_map (simulated_plain (plain_of_among (performs_googleLoginUser _ _) (by decide))) _
    | refreshToken loginModel =>
      exact simulated_map (simulated_plain (plain_of_among (performs_refreshToken _) (by decide))) _
    | assignRole assignRoleModel =>
      exact simulated_map (simulated_plain (plain_of_among (performs_assignRole _) (by decide))) _
    | verifyAccount token => exact simulated_map (simulated_updateByToken _ token) _
    | unlockAccountToken token => exact simulated_map (simulated_updateByToken _ token) _

end Requests

section Delivered

/-- What is committed. -/
def TxWorld.stored (env : Env) (tw : TxWorld) : Database := tw.view env none

/-- One account more, and one mail whose link is signed for it. -/
def Registered (env : Env) (dto : CreateUserDto) (tw tw' : TxWorld) : Prop :=
  ∃ id salt now payload sub users,
    let row := dto.row id (env.hash salt dto.password) now
    users.rows = (tw.stored env).users.rows ++ [row] ∧
    tw'.stored env = { tw.stored env with users } ∧
    payload.sub = .val sub ∧ sub.id = .val row.id ∧ sub.email = .val row.email ∧
    tw'.outside.mails = tw.outside.mails ++ [⟨.val dto.email, "VERIFY_ACCOUNT",
      { user := sub, callbackUrl := some (verifyLink (env.sign payload)) }⟩]

/-- One unused code more for the user, and one mail that carries it. -/
def CodeSent (env : Env) (type : TypeOtp) (userModel : UserModel) (tw tw' : TxWorld) : Prop :=
  ∃ userId code now otps,
    userModel.id = .val userId ∧
    otps.rows = (tw.stored env).otps.rows ++ [(tw.stored env).otps.newRow type code userId now] ∧
    tw'.stored env = { tw.stored env with otps } ∧
    tw'.outside.mails = tw.outside.mails ++
      [⟨userModel.email, type.text, { user := userModel, otpCode := some code }⟩]

/-- The call throws and nothing is committed, or it returns and `done` has come about. -/
def Delivers {α : Type} (env : Env) (p : Async α) (done : TxWorld → TxWorld → Prop) (tw : TxWorld) :
    Prop :=
  ∀ r tw', run (transactional env) p tw = (r, tw') →
    (∀ e, r = .error e → tw'.stored env = tw.stored env) ∧ ∀ a, r = .ok a → done tw tw'

/-- The world that `alone` goes through instead. -/
def TxWorld.quiet (env : Env) (tw : TxWorld) : World where
  db := tw.stored env
  checkpoint := tw.stored env
  outside := tw.outside

theorem TxWorld.Idle.alike (h : tw.Idle) : Alike env (tw.quiet env) tw := ⟨h, rfl, rfl⟩

theorem Simulated.quiet {α : Type} {p : Async α} {r : Except Exception α} (hp : Simulated env p)
    (hIdle : tw.Idle) (hRun : run (transactional env) p tw = (r, tw')) :
    ∃ w', run (alone env) p (tw.quiet env) = (r, w') ∧ tw'.stored env = w'.db ∧
      tw'.outside = w'.outside := by
  obtain ⟨hAnswer, hAfter⟩ := hp _ _ hIdle.alike
  rw [hRun] at hAnswer hAfter
  exact ⟨_, Prod.ext hAnswer rfl, hAfter.db, hAfter.outside⟩

theorem createUser_registered {dto : CreateUserDto} {user : UserModel} {w w' : World}
    (hRun : run (alone env) (UserController.createUser dto) w = (.ok user, w')) :
    ∃ id salt now payload saved users,
      users.rows = w.db.users.rows ++ [dto.row id (env.hash salt dto.password) now] ∧
      saved = (dto.row id (env.hash salt dto.password) now).returning
        (dto.model (env.hash salt dto.password)) ∧
      payload.sub = .val saved ∧ w'.db = { w.db with users } ∧
      w'.outside.mails = w.outside.mails ++ [⟨.val dto.email, "VERIFY_ACCOUNT",
        { user := saved, callbackUrl := some (verifyLink (env.sign payload)) }⟩] := by
  have hEnds := createUser_cases hRun
  obtain ⟨row, salt, hStored, hEmail, hPassword⟩ := createUser_password hRun
  rcases hState : w'.state with ⟨db, mails, issued⟩
  rw [hState] at hEnds
  cases hEnds with
  | registered c payload hNone hUsers hSaved hPayload =>
    rename_i id password now users saved
    -- the row found under the e-mail is the one that was appended
    have hRows : w'.db.users.rows = w.db.users.rows ++ [dto.row id password now] := by
      rw [show w'.db = { w.db with users } from congrArg State.db hState]
      exact hUsers
    have hNew : dto.row id password now ∈ w'.db.users.rows := by simp [hRows]
    have hSame : row = dto.row id password now :=
      UserTable.eq_of_nodup (UserTable.nodupEmail _) (UserTable.byId_eq_some.mp hStored).1 hNew hEmail
    have hHash : password = env.hash salt dto.password := by
      rw [← hPassword, hSame]
      rfl
    subst hHash
    exact ⟨id, salt, now, payload, saved, users, hUsers, hSaved, by rw [hPayload]; rfl,
      congrArg State.db hState, congrArg State.mails hState⟩

theorem delivers_createUser (hIdle : tw.Idle) (dto : CreateUserDto) :
    Delivers env (UserController.createUser dto) (Registered env dto) tw := by
  intro r tw' hRun
  obtain ⟨w', hAlone, hStored, hOutside⟩ := (simulated_createUser dto).quiet hIdle hRun
  constructor
  · rintro e rfl
    have hEnds := createUser_cases hAlone
    rw [hStored]
    change w'.state.db = _
    generalize w'.state = s at hEnds
    cases hEnds <;> rfl
  · rintro user rfl
    obtain ⟨id, salt, now, payload, saved, users, hUsers, rfl, hSub, hDb, hMails⟩ :=
      createUser_registered hAlone
    exact ⟨id, salt, now, payload, _, users, hUsers, hStored.trans hDb, hSub, rfl, rfl, by
      rw [hOutside]
      exact hMails⟩

theorem delivers_sendOtpCode (hIdle : tw.Idle) (type : TypeOtp) (userModel : UserModel) :
    Delivers env (OtpService.sendOtpCode type userModel) (CodeSent env type userModel) tw := by
  intro r tw' hRun
  obtain ⟨w', hAlone, hStored, hOutside⟩ := (simulated_sendOtpCode type userModel).quiet hIdle hRun
  obtain ⟨hDb, e, rfl⟩ | ⟨user, otps, userId, code, now, rfl, hId, hOtps, hState⟩ :=
      sendOtpCodeTo_cases hAlone
  · exact ⟨fun _ _ => hStored.trans hDb, fun _ hOk => (by cases hOk)⟩
  · refine ⟨fun _ hError => (by cases hError), fun _ _ =>
      ⟨userId, code, now, otps, hId, hOtps, hStored.trans (congrArg State.db hState), ?_⟩⟩
    rw [hOutside]
    exact congrArg State.mails hState

/-- Either the row is committed and its mail accepted, or no row is. -/
theorem row_with_mail (hIdle : tw.Idle) :
    (∀ dto, Delivers env (UserController.createUser dto) (Registered env dto) tw) ∧
    ∀ type userModel,
      Delivers env (OtpService.sendOtpCode type userModel) (CodeSent env type userModel) tw :=
  ⟨delivers_createUser hIdle, delivers_sendOtpCode hIdle⟩

theorem row_with_mail_sample :
    (∀ dto, Delivers (Sample.env []) (UserController.createUser dto) (Registered (Sample.env []) dto)
      (Sample.txWorld Sample.noUsers 20)) ∧
    ∀ type userModel, Delivers (Sample.env []) (OtpService.sendOtpCode type userModel)
      (CodeSent (Sample.env []) type userModel) (Sample.txWorld Sample.noUsers 20) :=
  row_with_mail ⟨rfl, rfl, fun _ he => absurd he List.not_mem_nil⟩

end Delivered

end Manejaplus
