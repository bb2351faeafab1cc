import Mathlib.Data.Fintype.Card
import Manejaplus.Interleaved.Shared

/-! # Failed checks side by side

A failed check reads the row, and later writes the count it has read plus one.
With `w` of them written, no count is above the initial one plus `w`; one that
has fallen behind never catches up, since everybody who still holds a row then
holds one that is behind as well.
-/
namespace Manejaplus
open Effect Prog
set_option autoImplicit false

/-- A call that records a failed credential check. -/
inductive Guess where
  | loginUser (loginModel : LoginModel)
  | unlockAccount (loginModel : LoginModel)
  | incrementAttempFailed (id : String)

namespace Guess

def prog : Guess → Async Response
  | loginUser loginModel => do return .tokens (← AuthService.loginUser loginModel)
  | unlockAccount loginModel => do return .callbackUrl (← AuthService.unlockAccount loginModel)
  | incrementAttempFailed id => do
    UserService.incrementAttempFailed id
    return .done

/-- The call is about the account of this row, with a password that is not its own. -/
def FailsOn (env : Env) (row : UserRow) : Guess → Prop
  | loginUser loginModel =>
    loginModel.email = row.email ∧ env.compare loginModel.password row.password = false
  | unlockAccount loginModel =>
    loginModel.email = row.email ∧ env.compare loginModel.password row.password = false
  | incrementAttempFailed id => id = row.id

end Guess

/-- How far a failed check has come: the row it holds is the one it has read. -/
inductive CheckPhase where
  | reading
  | holds (row : UserRow)
  | written
  deriving DecidableEq

namespace FailedChecks

variable (env : Env) (base : UserRow)

/-- The rows that come up are the account's: nobody changes its e-mail or password. -/
def SameAccount (row : UserRow) : Prop :=
  row.id = base.id ∧ row.email = base.email ∧ row.password = base.password

def protocol : Protocol services Exception World CheckPhase where
  next
    | .reading, w, .store (.findUser q), _ =>
      match w.db.users.findOne env.uuid q with
      | some (some row) => .holds row
      | _ => .reading
    | .holds _, _, .store (.saveUser _), _ => .written
    | phase, _, _, _ => phase
  allows
    | .reading, .store (.findUser q) =>
      q = { email := some (.val base.email) } ∨ q = { id := some (.val base.id) }
    | .holds row, .outside (.comparePasswords passwordTry original) =>
      SameAccount base row ∧ original = .val row.password ∧
        env.compare passwordTry row.password = false
    | .holds row, .store (.saveUser e) =>
      SameAccount base row ∧ (e = row.recorded ∨ e = { row.recorded with id := .val base.id })
    | _, _ => False

def Quiet (w : World) : Prop :=
  w.Calm ∧ ∃ row, w.db.users.byId base.id = some row ∧ SameAccount base row

variable {env} {base}

theorem allows_cases {phase : CheckPhase} {o : Op} (h : (protocol env base).allows phase o) :
    (phase = .reading ∧ ∃ q, o = .store (.findUser q) ∧
      (q = { email := some (.val base.email) } ∨ q = { id := some (.val base.id) })) ∨
    (∃ row passwordTry original, phase = .holds row ∧
      o = .outside (.comparePasswords passwordTry original)) ∨
    ∃ row e, phase = .holds row ∧ o = .store (.saveUser e) ∧ SameAccount base row ∧
      (e = row.recorded ∨ e = { row.recorded with id := .val base.id }) := by
  unfold protocol at h
  simp only at h
  split at h
  · exact .inl ⟨rfl, _, rfl, h⟩
  · exact .inr (.inl ⟨_, _, _, rfl, rfl⟩)
  · exact .inr (.inr ⟨_, _, rfl, rfl, h⟩)
  · exact h.elim

theorem findOne_email {w : World} {row : UserRow} (hRow : w.db.users.byId base.id = some row)
    (hSame : SameAccount base row) :
    w.db.users.findOne env.uuid { email := some (.val base.email) } = some (some row) := by
  rw [UserTable.findOne_email, ← hSame.2.1]
  exact congrArg some (UserTable.byEmail_eq_some.mpr ⟨(UserTable.byId_eq_some.mp hRow).1, rfl⟩)

theorem findOne_id {w : World} {row : UserRow} (hUuid : env.uuid base.id = some base.id)
    (hRow : w.db.users.byId base.id = some row) :
    w.db.users.findOne env.uuid { id := some (.val base.id) } = some (some row) := by
  simp only [UserTable.findOne, UserTable.idCondition, hUuid, UserTable.emailCondition,
    Option.map_some, Option.bind_eq_bind, Option.bind_some, Bool.true_and]
  exact congrArg some hRow

theorem findOne_where {w : World} {row : UserRow} {q : UserWhere}
    (hUuid : env.uuid base.id = some base.id) (hRow : w.db.users.byId base.id = some row)
    (hSame : SameAccount base row)
    (hq : q = { email := some (.val base.email) } ∨ q = { id := some (.val base.id) }) :
    w.db.users.findOne env.uuid q = some (some row) := by
  obtain rfl | rfl := hq
  · exact findOne_email hRow hSame
  · exact findOne_id hUuid hRow

theorem Quiet.fault {w : World} (h : Quiet base w) : w.choice.fault = false := h.1 0

theorem shared_findUser {w : World} {q : UserWhere} {found : Option UserRow}
    (hFault : w.choice.fault = false) (hFound : w.db.users.findOne env.uuid q = some found) :
    (shared env (.store (.findUser q)) w).1 = .ok (found.map UserRow.entity) := by
  simp only [shared, World.execStore, Database.exec, hFault, Bool.false_eq_true, if_false, hFound]
  rfl

theorem obeys_findUser {q : UserWhere} (hUuid : env.uuid base.id = some base.id)
    (hq : q = { email := some (.val base.email) } ∨ q = { id := some (.val base.id) }) :
    Obeys (shared env) (protocol env base) (Quiet base) .reading (Async.findUser q) fun phase r =>
      ∃ row, SameAccount base row ∧ phase = .holds row ∧ r = .ok (some row.entity) := by
  refine (Obeys.perform _).mpr ⟨hq, ?_⟩
  intro w hQuiet
  obtain ⟨row, hRow, hSame⟩ := hQuiet.2
  have hFound := findOne_where hUuid hRow hSame hq
  refine ⟨row, hSame, ?_, shared_findUser hQuiet.fault hFound⟩
  simp only [protocol, hFound]

theorem obeys_comparePasswords {passwordTry : String} {row : UserRow} (hSame : SameAccount base row)
    (hWrong : env.compare passwordTry row.password = false) :
    Obeys (shared env) (protocol env base) (Quiet base) (.holds row)
      (EncryptionUtil.comparePasswords passwordTry (.val row.password)) fun phase r =>
        phase = .holds row ∧ r = .ok false := by
  refine Obeys.catching.mpr ((Obeys.perform _).mpr ⟨⟨hSame, rfl, hWrong⟩, ?_⟩)
  intro w hQuiet
  have hAnswer : (shared env (.outside (.comparePasswords passwordTry (.val row.password))) w).1 =
      .ok false := by
    simp only [shared, World.execOutside, Outside.exec, hQuiet.fault, Bool.false_eq_true, if_false,
      hWrong]
  rw [hAnswer]
  exact ⟨rfl, rfl⟩

/-- A save of a held row is a failed check on top of whatever is stored by now. -/
theorem save_recorded (env : Env) {w : World} {row current : UserRow} {e : UserEntity}
    (hCurrent : w.db.users.byId base.id = some current) (hSame : SameAccount base current)
    (hRow : SameAccount base row)
    (he : e = row.recorded ∨ e = { row.recorded with id := .val base.id }) :
    ∃ e' users, w.db.users.save env.uuid w.choice.uuid w.choice.now e = some (e', users) ∧
      w.db.users.Updated users current (row.recordFailure.under current) := by
  have hId : e.id = .val current.id := by
    rw [hSame.1]
    obtain rfl | rfl := he
    · rw [UserRow.recorded_id, hRow.1]
    · rfl
  have hWrite : current.write e = some (row.recordFailure.under current) := by
    obtain rfl | rfl := he
    · exact UserRow.write_recorded row current
    · exact UserRow.write_recorded row current
  have hEmail : (row.recordFailure.under current).email = current.email :=
    hRow.2.1.trans hSame.2.1.symm
  rw [← hSame.1] at hCurrent
  obtain ⟨users, hSaved, hRows⟩ := save_stored hCurrent hId hWrite hEmail
  exact ⟨_, users, hSaved, _, hRows⟩

theorem obeys_saveUser {row : UserRow} {e : UserEntity} (hRow : SameAccount base row)
    (he : e = row.recorded ∨ e = { row.recorded with id := .val base.id }) :
    Obeys (shared env) (protocol env base) (Quiet base) (.holds row) (Async.saveUser e)
      fun phase r => phase = .written ∧ ∃ e', r = .ok e' := by
  refine (Obeys.perform _).mpr ⟨⟨hRow, he⟩, ?_⟩
  intro w hQuiet
  obtain ⟨current, hCurrent, hSame⟩ := hQuiet.2
  obtain ⟨e', users, hSaved, _⟩ := save_recorded env hCurrent hSame hRow he
  refine ⟨rfl, e', ?_⟩
  simp only [shared, World.execStore, Database.exec, hQuiet.fault, Bool.false_eq_true, if_false,
    hSaved]
  rfl

theorem obeys_validateUserCredentials {loginModel : LoginModel}
    (hUuid : env.uuid base.id = some base.id) (hEmail : loginModel.email = base.email)
    (hWrong : env.compare loginModel.password base.password = false) :
    Obeys (shared env) (protocol env base) (Quiet base) .reading
      (AuthService.validateUserCredentials loginModel)
      fun phase r => phase = .written ∧ ∃ e, r = .error e := by
  have hFind : UserRepositoryImpl.getUserByField { email := some (.val loginModel.email) } =
      Async.findUser { email := some (.val base.email) } := by
    simp [UserRepositoryImpl.getUserByField, UserRepositoryImpl.conditions, hEmail]
  unfold AuthService.validateUserCredentials
  rw [hFind]
  refine Obeys.seq (obeys_findUser hUuid (.inl rfl)) ?_ ?_
  · rintro phase found ⟨row, hSame, rfl, hFound⟩
    cases hFound
    rw [← hSame.2.2] at hWrong
    refine Obeys.seq (R := fun phase r => phase = .holds row ∧ r = .ok true) ?_ ?_ ?_
    · refine Obeys.seq (obeys_comparePasswords hSame hWrong) ?_ ?_
      · rintro phase same ⟨rfl, hOk⟩
        cases hOk
        exact ⟨rfl, rfl⟩
      · rintro phase e ⟨_, hOk⟩
        cases hOk
    · rintro phase failed ⟨rfl, hOk⟩
      cases hOk
      refine Obeys.seq (R := fun phase _ => phase = .written)
        (Obeys.seq (obeys_saveUser hSame (.inl rfl)) ?_ ?_) ?_ ?_
      · rintro phase saved ⟨rfl, _⟩
        exact rfl
      · rintro phase e ⟨rfl, _⟩
        exact rfl
      · rintro phase _ rfl
        exact ⟨rfl, _, rfl⟩
      · rintro phase e rfl
        exact ⟨rfl, e, rfl⟩
    · rintro phase e ⟨_, hOk⟩
      cases hOk
  · rintro phase e ⟨_, _, _, hOk⟩
    cases hOk

theorem obeys_prog {guess : Guess} (hUuid : env.uuid base.id = some base.id)
    (hFails : guess.FailsOn env base) :
    Obeys (shared env) (protocol env base) (Quiet base) .reading guess.prog
      fun phase _ => phase = .written := by
  have hChecked : ∀ {α : Type} (loginModel : LoginModel) (rest : UserModel → Async α),
      loginModel.email = base.email → env.compare loginModel.password base.password = false →
      Obeys (shared env) (protocol env base) (Quiet base) .reading
        ((AuthService.validateUserCredentials loginModel).bind rest)
        fun phase _ => phase = .written := by
    intro α loginModel rest hEmail hWrong
    refine Obeys.seq (obeys_validateUserCredentials hUuid hEmail hWrong) ?_ ?_
    · rintro phase a ⟨_, e, hError⟩
      cases hError
    · rintro phase e ⟨rfl, _⟩
      exact rfl
  have hMap : ∀ {α : Type} {p : Async α} {f : α → Response},
      Obeys (shared env) (protocol env base) (Quiet base) .reading p
        (fun phase _ => phase = .written) →
      Obeys (shared env) (protocol env base) (Quiet base) .reading (p.bind fun a => .pure (f a))
        (fun phase _ => phase = .written) :=
    fun h => Obeys.seq h (fun _ _ h => h) (fun _ _ h => h)
  cases guess with
  | loginUser loginModel => exact hMap (hChecked loginModel _ hFails.1 hFails.2)
  | unlockAccount loginModel => exact hMap (hChecked loginModel _ hFails.1 hFails.2)
  | incrementAttempFailed id =>
    cases (show id = base.id from hFails)
    refine hMap (Obeys.seq (obeys_findUser hUuid (.inr rfl)) ?_ ?_)
    · rintro phase found ⟨row, hSame, rfl, hFound⟩
      cases hFound
      refine Obeys.seq (obeys_saveUser hSame (.inr rfl)) ?_ ?_
      · rintro phase saved ⟨rfl, _⟩
        exact rfl
      · rintro phase e ⟨rfl, _⟩
        exact rfl
    · rintro phase e ⟨_, _, _, hOk⟩
      cases hOk

end FailedChecks

end Manejaplus
