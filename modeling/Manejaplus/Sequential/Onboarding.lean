import Manejaplus.Sequential.Recovery

/-! # From a registration to a session

Where nothing fails, an e-mail that is not taken leads from its registration
over the mailed link and the mailed code to a session.
-/
namespace Manejaplus
open Effect Prog
set_option autoImplicit false

namespace Client

/-- The link in the latest mail. -/
def linkOf (mails : List Mail) : Option String := mails.getLast?.bind (·.locals.callbackUrl)

section Statements
variable {env : Env} {w w' : World} {dto : CreateUserDto} {row : UserRow}

/-- What a registration leaves: a row with the hashed password under a fresh id, and its link. -/
structure Registered (env : Env) (dto : CreateUserDto) (id password : String) (now : Time) (c : Choice)
    (w w' : World) : Prop where
  hashed : ∃ salt, password = env.hash salt dto.password
  fresh : ∃ n, id = (w.outside.tape n).uuid
  rows : w'.db.users.rows = w.db.users.rows ++ [dto.row id password now]
  otps : w'.db.otps = w.db.otps
  mailed : linkOf w'.outside.mails = some (verifyLink (env.sign (Outside.payload c
    ((dto.row id password now).returning (dto.model password)) AUTH.TIME_VERIFY_ACCOUNT)))

theorem encriptPassword_ok {user model : UserModel} {passwordTry : String}
    (hPassword : user.password = .val passwordTry)
    (hRun : run (alone env) (UserModel.encriptPassword user) w = (.ok model, w')) :
    w'.state = w.state ∧ ∃ salt, model = { user with password := .val (env.hash salt passwordTry) } := by
  obtain ⟨password, w₁, hHash, hPure⟩ := (run_bind_ok _).mp hRun
  cases hPure
  rw [hPassword] at hHash
  obtain ⟨_, rfl, rfl⟩ := hashPassword_ok.mp hHash
  exact ⟨rfl, _, rfl⟩

theorem saveModel_ok {password : String} {saved : UserEntity}
    (hRun : run (alone env) (UserRepositoryImpl.save (SqlGlobalMapper.mapClass (dto.model password))) w =
      (.ok saved, w')) :
    ∃ users : UserTable,
      users.rows = w.db.users.rows ++ [dto.row w.choice.uuid password w.choice.now] ∧
      saved = (dto.row w.choice.uuid password w.choice.now).returning (dto.model password) ∧
      w'.state = { w.state with db := { w.db with users } } := by
  rw [SqlGlobalMapper.mapClass_default] at hRun
  obtain ⟨_, users, hSave, rfl⟩ := saveUser_ok.mp hRun
  have hInsert : w.db.users.insert w.choice.uuid w.choice.now (dto.model password) =
      some (saved, users) := hSave
  simp only [UserTable.insert, ofEntity_model, Option.bind_eq_bind, Option.bind_some,
    Option.bind_eq_some_iff] at hInsert
  obtain ⟨users', hRows, hPair⟩ := hInsert
  cases hPair
  exact ⟨users, UserTable.ofRows?_rows hRows, rfl, rfl⟩

theorem createUser_registered {user : UserModel}
    (hRun : run (alone env) (UserController.createUser dto) w = (.ok user, w')) :
    ∃ id password now c, Registered env dto id password now c w w' := by
  unfold UserController.createUser UserService.createUser at hRun
  obtain ⟨_, hFails⟩ | ⟨w₁, w₂, hState₁, hRest₁, hBody, hState⟩ :=
      transactional_cases (plain_of_among (performs_createUser _) (by decide)) hRun
  · cases hFails.1
  obtain ⟨found, w₃, hFind, hBody₁⟩ := (run_bind_ok _).mp hBody
  obtain ⟨_, rfl, rfl⟩ := getUserByEmail_ok.mp hFind
  cases hEmail : w₁.db.users.byEmail dto.email with
  | some row =>
    rw [hEmail] at hBody₁
    cases hBody₁
  | none =>
    rw [hEmail] at hBody₁
    obtain ⟨model, w₄, hHash, hBody₂⟩ := (run_bind_ok _).mp hBody₁
    obtain ⟨hState₄, salt, rfl⟩ := encriptPassword_ok (by rfl) hHash
    obtain ⟨saved, w₅, hSave, hBody₃⟩ := (run_bind_ok _).mp hBody₂
    obtain ⟨n, hn⟩ := hRest₁.trans ((rest_run hFind).trans (rest_run hHash))
    have hFresh : w₄.choice.uuid = (w.outside.tape n).uuid := congrArg Choice.uuid (hn 0)
    have hSame : w₄.state = w.state := hState₄.trans hState₁
    obtain ⟨users, hRows, rfl, hState₅⟩ := saveModel_ok hSave
    obtain ⟨_, e, hErr⟩ | ⟨payload, hPayload, ⟨_, e, hErr⟩ | ⟨_, hState₆⟩⟩ := mailsLink_cases hBody₃
    · cases hErr
    · cases hErr
    rw [hState₆, hState₅, hSame] at hState
    rw [World.state_db hSame] at hRows hState
    have hDb : w'.db = { w.db with users } := congrArg State.db hState
    have hMails : w'.outside.mails = _ := congrArg State.mails hState
    refine ⟨_, _, w₄.choice.now, w₅.choice, ⟨salt, rfl⟩, ⟨n, hFresh⟩, ?_, by rw [hDb], ?_⟩
    · rw [hDb]
      exact hRows
    · rw [linkOf, hMails, State.settle, List.getLast?_concat, hPayload]
      rfl

theorem verifies {token : String} (hStored : w.db.users.byId row.id = some row)
    (hCalm : w.Calm) (hAddresses : Addresses env token row) (hUuid : env.uuid row.id = some row.id) :
    ∃ updatedAt, (serveAlone env (.verifyAccount token) w).2.db.users.byId row.id =
      some { row with isVerified := some true, updatedAt } := by
  have hToken := byToken_addressed hAddresses hUuid hStored
  rcases hServe : serveAlone env (.verifyAccount token) w with ⟨out, w'⟩
  obtain ⟨info, w₁, hOk⟩ := (succeeds_updateByToken sets_isVerified).mpr
    ⟨hCalm 0, hCalm 2, hCalm 3, row, hToken⟩
  obtain ⟨r, hRun, rfl⟩ := run_map_cases _ hServe
  cases hOk.symm.trans hRun
  obtain ⟨found, hFound, hUsers⟩ := Replay.verifyAccount_ok hServe
  cases hFound.symm.trans hToken
  exact (hUsers.byId hStored rfl).1

end Statements

end Client

namespace Sample

end Sample

end Manejaplus
