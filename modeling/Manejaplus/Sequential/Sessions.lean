import Manejaplus.Sequential.Accounts

/-! # Signing session tokens and storing them -/
namespace Manejaplus
open Effect Prog
set_option autoImplicit false

variable {env : Env} {w w' : World}

def UserRow.subject (row : UserRow) : UserObject := { email := .val row.email, id := .val row.id }

def State.sign (s : State) (new : List Issued) : State := { s with issued := s.issued ++ new }

@[simp] theorem State.sign_db (s : State) (new : List Issued) : (s.sign new).db = s.db := rfl

@[simp] theorem State.sign_nil (s : State) : s.sign [] = s := by simp [State.sign]

theorem State.sign_sign (s : State) (new new' : List Issued) :
    (s.sign new).sign new' = s.sign (new ++ new') := by simp [State.sign]

inductive Signed (env : Env) (sub : UserObject) (w : World) :
    Except Exception JWTTokens → State → Prop
  | fails (new : List Issued) : ¬ w.Calm → Signed env sub w (.error .external) (w.state.sign new)
  | signed (c₁ c₂ : Choice) (access refresh : Payload) :
      access = Outside.payload c₁ sub AUTH.TIME_ACCESS_TOKEN →
      refresh = Outside.payload c₂ sub AUTH.TIME_REFRESH_TOKEN →
      w.Reads c₁.now → w.Reads c₂.now →
      Signed env sub w (.ok ⟨env.sign access, env.sign refresh⟩)
        (w.state.sign [⟨env.sign access, access⟩, ⟨env.sign refresh, refresh⟩])

theorem generateJWTTokens_cases {sub : UserObject} {r : Except Exception JWTTokens}
    (hRun : run (alone env) (AuthService.generateJWTTokens sub) w = (r, w')) :
    Signed env sub w r w'.state := by
  obtain ⟨e, rfl, hAccess⟩ | ⟨accessToken, w₁, hAccess, hRest⟩ := run_bind_cases _ hRun <;>
    obtain ⟨hState, hFails⟩ | ⟨access, hPayload, hOk, hState⟩ := signAsync_cases hAccess
  · cases hFails.1
    rw [hState, ← State.sign_nil w.state]
    exact .fails [] hFails.2
  · cases hOk
  · cases hFails.1
  · cases hOk
    have hLater := rest_run hAccess
    obtain ⟨e, rfl, hRefresh⟩ | ⟨refreshToken, w₂, hRefresh, hEnd⟩ := run_bind_cases _ hRest <;>
      obtain ⟨hState₂, hFails⟩ | ⟨refresh, hPayload₂, hOk, hState₂⟩ := signAsync_cases hRefresh
    · cases hFails.1
      rw [hState₂, hState]
      exact .fails _ (hFails.of_rest hLater).2
    · cases hOk
    · cases hFails.1
    · cases hOk
      cases hEnd
      rw [hState₂, hState]
      have hBoth : (w.state.sign [⟨env.sign access, access⟩]).sign
          [⟨env.sign refresh, refresh⟩] = _ := State.sign_sign _ _ _
      change Signed env sub w _ ((w.state.sign [⟨env.sign access, access⟩]).sign
        [⟨env.sign refresh, refresh⟩])
      rw [hBoth]
      exact .signed _ _ access refresh hPayload hPayload₂ w.reads_choice
        (w₁.reads_choice.of_rest hLater)

inductive Session (env : Env) (row : UserRow) (w : World) :
    Except Exception JWTTokens → State → Prop
  | fails (new : List Issued) : ¬ w.Calm → Session env row w (.error .external) (w.state.sign new)
  | stored (c₁ c₂ : Choice) (access refresh : Payload) (now : Time) (salt₁ salt₂ : String)
      (users : UserTable) :
      access = Outside.payload c₁ row.subject AUTH.TIME_ACCESS_TOKEN →
      refresh = Outside.payload c₂ row.subject AUTH.TIME_REFRESH_TOKEN →
      w.Reads c₁.now → w.Reads c₂.now → w.Reads now →
      w.db.users.Updated users row (row.session (env.sign access) (env.sign refresh) now) →
      Session env row w
        (.ok ⟨env.encrypt salt₁ (env.sign access), env.encrypt salt₂ (env.sign refresh)⟩)
        { w.state.sign [⟨env.sign access, access⟩, ⟨env.sign refresh, refresh⟩] with
          db := { w.db with users } }

/-- A model that stands for a stored row: a save of it with new tokens changes just these. -/
structure Stands (user : UserModel) (row : UserRow) : Prop where
  id : user.id = .val row.id
  email : user.email = .val row.email
  write : ∀ accessToken refreshToken now, row.write { user with
    accessToken := .val accessToken
    refreshToken := .val refreshToken
    lastConnection := .val now } = some (row.session accessToken refreshToken now)

theorem stands_entity (row : UserRow) : Stands row.entity row :=
  ⟨rfl, rfl, row.write_session⟩

theorem handleUserLogin_cases {user : UserModel} {row : UserRow} {r : Except Exception JWTTokens}
    (hRow : w.db.users.byId row.id = some row) (hUser : Stands user row)
    (hRun : run (alone env) (AuthService.handleUserLogin user) w = (r, w')) :
    Session env row w r w'.state := by
  have hSub : ({ email := user.email, id := user.id } : UserObject) = row.subject := by
    rw [hUser.id, hUser.email]
    rfl
  rw [AuthService.handleUserLogin, hSub] at hRun
  obtain ⟨e, rfl, hSign⟩ | ⟨tokens, w₁, hSign, hRun₁⟩ := run_bind_cases _ hRun
  · have hSigned := generateJWTTokens_cases hSign
    generalize w'.state = s at hSigned
    cases hSigned with
    | fails new hCalm => exact .fails new hCalm
  have hRest₁ := rest_run hSign
  have hSigned := generateJWTTokens_cases hSign
  generalize hState₁ : w₁.state = s at hSigned
  cases hSigned with
  | signed c₁ c₂ access refresh hAccess hRefresh hReads₁ hReads₂ =>
    obtain ⟨e, rfl, hNow⟩ | ⟨now, w₂, hNow, hRun₂⟩ := run_bind_cases _ hRun₁ <;>
      obtain ⟨hState₂, hClock⟩ := newDate_run hNow
    · cases hClock
    cases hClock
    have hRest₂ := hRest₁.trans (rest_run hNow)
    have hState : w₂.state = _ := hState₂.trans hState₁
    have hRow₂ : w₂.db.users.byId row.id = some row := by
      rw [show w₂.db = w.db from congrArg State.db hState]
      exact hRow
    rw [SqlGlobalMapper.mapClass_default] at hRun₂
    have hWrite := hUser.write (env.sign access) (env.sign refresh) w₁.choice.now
    obtain ⟨e, rfl, hSave⟩ | ⟨saved, w₃, hSave, hRun₃⟩ := run_bind_cases _ hRun₂ <;>
      obtain ⟨hState₃, hFails⟩ | ⟨updatedAt, users, hOk, hUsers, hState₃⟩ :=
          save_cases hRow₂ (by exact hUser.id) hWrite rfl hSave
    · cases hFails.1
      rw [hState₃, hState]
      exact .fails _ (hFails.of_rest hRest₂).2
    · cases hOk
    · cases hFails.1
    obtain ⟨e, rfl, hEnc⟩ | ⟨enc₁, w₄, hEnc, hRun₄⟩ := run_bind_cases _ hRun₃ <;>
      obtain ⟨hState₄, hEnc₁⟩ := encryptString_run hEnc
    · cases hEnc₁
    obtain ⟨e, rfl, hEnc'⟩ | ⟨enc₂, w₅, hEnc', hEnd⟩ := run_bind_cases _ hRun₄ <;>
      obtain ⟨hState₅, hEnc₂⟩ := encryptString_run hEnc'
    · cases hEnc₂
    cases hEnc₁
    cases hEnc₂
    cases hEnd
    rw [show w₂.db = w.db from congrArg State.db hState] at hUsers
    rw [hState₅, hState₄, hState₃, hState, show w₂.db = w.db from congrArg State.db hState]
    exact .stored c₁ c₂ access refresh _ _ _ users hAccess hRefresh hReads₁ hReads₂
      (w₁.reads_choice.of_rest hRest₁) hUsers

end Manejaplus
