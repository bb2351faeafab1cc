import Manejaplus.Sequential.Success
import Manejaplus.Sequential.TokenPurpose

/-! # Which login a session comes from -/
namespace Manejaplus
open Effect Prog
set_option autoImplicit false

variable {env : Env} {w w' : World}

section Opening

def accessPayload (row : UserRow) (w : World) : Payload :=
  Outside.payload w.choice row.subject AUTH.TIME_ACCESS_TOKEN

def refreshPayload (row : UserRow) (w : World) : Payload :=
  Outside.payload w.tick.choice row.subject AUTH.TIME_REFRESH_TOKEN

/-- The tokens that a login issues are the ones it stores. -/
structure SessionOpened (env : Env) (row : UserRow) (w : World) (s : State) : Prop where
  issued : s.issued = w.outside.issued ++
    [⟨env.sign (accessPayload row w), accessPayload row w⟩,
      ⟨env.sign (refreshPayload row w), refreshPayload row w⟩]
  stored : w.db.users.Updated s.db.users row (row.session (env.sign (accessPayload row w))
    (env.sign (refreshPayload row w)) w.tick.tick.choice.now)

theorem newDate_ok {now : Time} :
    run (alone env) Async.newDate w = (.ok now, w') ↔ w.choice.now = now ∧ w.tick = w' := by
  rw [Async.newDate, run_outside, World.execOutside, Outside.exec]
  simp [World.tick]

theorem handleUserLogin_ok {user : UserModel} {row : UserRow} {tokens : JWTTokens}
    (hRow : w.db.users.byId row.id = some row) (hUser : Stands user row)
    (hRun : run (alone env) (AuthService.handleUserLogin user) w = (.ok tokens, w')) :
    SessionOpened env row w w'.state := by
  have hSub : ({ email := user.email, id := user.id } : UserObject) = row.subject := by
    rw [hUser.id, hUser.email]
    rfl
  rw [AuthService.handleUserLogin, hSub] at hRun
  obtain ⟨signed, w₁, hSign, hRun⟩ := (run_bind_ok _).mp hRun
  obtain ⟨accessToken, w₂, hAccess, hSign⟩ := (run_bind_ok _).mp hSign
  obtain ⟨_, _, rfl, rfl, rfl⟩ := signAsync_ok.mp hAccess
  obtain ⟨refreshToken, w₃, hRefresh, hPure⟩ := (run_bind_ok _).mp hSign
  cases hPure
  obtain ⟨_, _, rfl, rfl, rfl⟩ := signAsync_ok.mp hRefresh
  obtain ⟨now, w₄, hNow, hRun⟩ := (run_bind_ok _).mp hRun
  obtain ⟨rfl, rfl⟩ := newDate_ok.mp hNow
  obtain ⟨saved, w₅, hSave, hRun⟩ := (run_bind_ok _).mp hRun
  rw [SqlGlobalMapper.mapClass_default] at hSave
  obtain ⟨_, users, hTable, rfl⟩ := saveUser_ok.mp hSave
  obtain ⟨users', hTable', hRows⟩ := save_stored hRow (by exact hUser.id)
    (hUser.write _ _ _) (by rfl)
  cases hTable.symm.trans hTable'
  obtain ⟨_, w₆, hEncrypt, hRun⟩ := (run_bind_ok _).mp hRun
  obtain ⟨_, w₇, hEncrypt', hPure⟩ := (run_bind_ok _).mp hRun
  cases hPure
  rw [(encryptString_run hEncrypt').1, (encryptString_run hEncrypt).1]
  exact ⟨List.append_assoc _ _ _, _, hRows⟩

/-- A login for the account of this row, which it found or made. -/
structure SignsIn (env : Env) (w : World) (row : UserRow) (w₁ : World) (s : State) : Prop where
  rest : w.Rest w₁
  issued : w₁.outside.issued = w.outside.issued
  found : w₁.db.users.byId row.id = some row
  others : ∀ id, id ≠ row.id → w₁.db.users.byId id = w.db.users.byId id
  opened : SessionOpened env row w₁ s

theorem SignsIn.stored {row : UserRow} {w₁ : World} {s : State} (h : SignsIn env w row w₁ s) :
    ∃ stored, s.db.users.byId row.id = some stored ∧ stored.id = row.id ∧
      stored.email = row.email := by
  obtain ⟨updatedAt, hStored⟩ := (h.opened.stored.byId h.found rfl).1
  exact ⟨_, hStored, rfl, rfl⟩

theorem signsIn_loginUser {loginModel : LoginModel} {tokens : JWTTokens}
    (hRun : run (alone env) (AuthService.loginUser loginModel) w = (.ok tokens, w')) :
    ∃ row w₁, SignsIn env w row w₁ w'.state := by
  obtain ⟨user, w₁, hCheck, hRun₁⟩ := (run_bind_ok _).mp hRun
  obtain ⟨row, rfl, hState₁, hEmail, _⟩ := (validateUserCredentials_cases hCheck).ok
  obtain ⟨_, w₂, hStatus, hRun₂⟩ := (run_bind_ok _).mp hRun₁
  obtain ⟨rfl, _⟩ := checkUserStatus_cases hStatus
  have hRow : w₂.db.users.byId row.id = some row := by
    rw [World.state_db hState₁]
    exact byId_of_byEmail hEmail
  obtain ⟨_, w₃, hOtp, hLogin⟩ := (run_bind_ok _).mp hRun₂
  obtain ⟨hUsers, _, hIssued⟩ := (handleOtpIfRequired_cases hRow hOtp).keeps
  rw [World.state_db hState₁] at hUsers
  have hRow₃ : w₃.db.users.byId row.id = some row := by
    rw [show w₃.db.users = w.db.users from hUsers]
    exact byId_of_byEmail hEmail
  refine ⟨row, w₃, (rest_run hCheck).trans (rest_run hOtp), ?_, hRow₃, ?_,
    handleUserLogin_ok hRow₃ (stands_entity row) hLogin⟩
  · exact hIssued.trans (congrArg State.issued hState₁)
  · intro id _
    rw [show w₃.db.users = w.db.users from hUsers]

/-- The account is the one under the e-mail of the profile, or a new one under its lower case. -/
theorem signsIn_googleLoginUser {profile : GoogleProfile} {tokens : JWTTokens}
    (hRun : run (alone env) (AuthService.googleLoginUser env.cases (some profile)) w =
      (.ok tokens, w')) :
    ∃ row w₁, SignsIn env w row w₁ w'.state ∧
      (w.db.users.byEmail profile.email = some row ∨
        (w.db.users.byEmail profile.email = none ∧
          row.email = env.cases.toLowerCase profile.email)) := by
  obtain ⟨user, w₁, hUser, hLogin⟩ := (run_bind_ok _).mp hRun
  rw [SqlGlobalMapper.mapClass_default] at hLogin
  obtain ⟨found, w₂, hFind, hCreate⟩ := (run_bind_ok _).mp hUser
  obtain ⟨_, rfl, rfl⟩ := getUserByEmail_ok.mp hFind
  cases hEmail : w.db.users.byEmail profile.email with
  | some row =>
    rw [hEmail] at hCreate
    cases hCreate
    have hRow : w.tick.db.users.byId row.id = some row := byId_of_byEmail hEmail
    exact ⟨row, w.tick, ⟨.tick _ _ rfl, rfl, hRow, fun _ _ => rfl,
      handleUserLogin_ok hRow (stands_entity row) hLogin⟩, .inl rfl⟩
  | none =>
    rw [hEmail] at hCreate
    obtain ⟨_, e, hErr⟩ | ⟨id, password, now, users, hUsers, hOk, hState⟩ :=
        createGoogleUser_cases hCreate
    · cases hErr
    cases hOk
    have hUsers₁ : w₁.db.users = users := congrArg (fun s => s.db.users) hState
    have hRow : w₁.db.users.byId id = some (profile.row env.cases id password now) := by
      rw [hUsers₁]
      exact byId_append hUsers
    refine ⟨profile.row env.cases id password now, w₁, ⟨rest_run hUser,
      congrArg State.issued hState, hRow, ?_,
      handleUserLogin_ok hRow (stands_google env.cases id password now) hLogin⟩, .inr ⟨rfl, rfl⟩⟩
    intro id' hNe
    rw [hUsers₁]
    exact byId_append_of_ne hUsers hNe

theorem signsIn_of_tokens {q : Request} {tokens : JWTTokens}
    (hServe : serveAlone env q w = (.ok (.tokens tokens), w')) :
    ∃ row w₁, SignsIn env w row w₁ w'.state := by
  cases q with
  | loginUser loginModel =>
    obtain ⟨r, hRun, hTokens⟩ := run_map_cases _ hServe
    cases r <;> cases hTokens
    exact signsIn_loginUser hRun
  | googleLoginUser user =>
    obtain ⟨r, hRun, hTokens⟩ := run_map_cases _ hServe
    cases r <;> cases hTokens
    cases user with
    | none => cases hRun
    | some profile =>
      obtain ⟨row, w₁, hSigns, _⟩ := signsIn_googleLoginUser hRun
      exact ⟨row, w₁, hSigns⟩
  | _ =>
    obtain ⟨r, _, hTokens⟩ := run_map_cases _ hServe
    cases r <;> cases hTokens

end Opening

section Latest

/-- The request ended with tokens, and they name this account. -/
def logsIn (id : String) (ev : Served.Event) : Bool :=
  (match ev.outcome with
    | .ok (.tokens _) => true
    | _ => false) &&
  (issuedTokens ev).any fun t => t.payload.address.map Prod.snd == some (.val id)

def latestLogin (id : String) (past : List Served.Event) : Option Served.Event :=
  past.find? (logsIn id)

def refreshTokenOf (login : Served.Event) : Option Issued := (issuedTokens login)[1]?

def ReadsClock (ev : Served.Event) (t : Time) : Prop := ∃ n, (ev.before.outside.tape n).now = t

/-- The session in the row is the one that this login opened. -/
structure HoldsSession (login : Served.Event) (row : UserRow) : Prop where
  refresh : ∃ refresh t, refreshTokenOf login = some refresh ∧
    row.refreshToken = some refresh.token ∧ ReadsClock login t ∧
    refresh.payload.exp = some (t / 1000 + AUTH.TIME_REFRESH_TOKEN)
  since : ∃ t, ReadsClock login t ∧ row.lastConnection = some t

variable {ev : Served.Event} {row : UserRow} {w₁ : World}

theorem logsIn_tokens {id : String} (h : logsIn id ev = true) :
    ∃ tokens, ev.outcome = .ok (.tokens tokens) := by
  rw [logsIn, Bool.and_eq_true] at h
  obtain ⟨hOut, _⟩ := h
  split at hOut
  · exact ⟨_, ‹_›⟩
  · cases hOut

theorem signsIn_event {q : Request} {tokens : JWTTokens}
    (hOut : (serveEvent (serveAlone env) q w).outcome = .ok (.tokens tokens)) :
    ∃ row w₁, SignsIn env (serveEvent (serveAlone env) q w).before row w₁
      (serveEvent (serveAlone env) q w).after.state :=
  signsIn_of_tokens (Prod.ext hOut rfl)

theorem SignsIn.tokens (h : SignsIn env ev.before row w₁ ev.after.state) :
    issuedTokens ev = [⟨env.sign (accessPayload row w₁), accessPayload row w₁⟩,
      ⟨env.sign (refreshPayload row w₁), refreshPayload row w₁⟩] := by
  have hIssued : ev.after.outside.issued = _ := h.opened.issued
  rw [issuedTokens, hIssued, h.issued, List.drop_left]

theorem SignsIn.logsIn_iff {tokens : JWTTokens} {id : String}
    (h : SignsIn env ev.before row w₁ ev.after.state) (hOut : ev.outcome = .ok (.tokens tokens)) :
    logsIn id ev = true ↔ id = row.id := by
  have hAccess : (accessPayload row w₁).address = some (.val row.email, .val row.id) := rfl
  have hRefresh : (refreshPayload row w₁).address = some (.val row.email, .val row.id) := rfl
  simp only [logsIn, hOut, h.tokens, Bool.true_and, List.any_cons, List.any_nil, Bool.or_false,
    hAccess, hRefresh, Option.map_some, Bool.or_self, beq_iff_eq, Option.some.injEq, Js.val.injEq]
  exact eq_comm

theorem SignsIn.readsClock (h : SignsIn env ev.before row w₁ ev.after.state) (n : Nat) :
    ReadsClock ev (w₁.outside.tape n).now := by
  obtain ⟨m, hRest⟩ := h.rest
  exact ⟨m + n, congrArg Choice.now (hRest n).symm⟩

theorem SignsIn.holds (h : SignsIn env ev.before row w₁ ev.after.state) :
    ∃ row', ev.after.db.users.byId row.id = some row' ∧ HoldsSession ev row' := by
  obtain ⟨updatedAt, hStored⟩ := (h.opened.stored.byId h.found rfl).1
  refine ⟨_, hStored, ⟨⟨⟨env.sign (refreshPayload row w₁), refreshPayload row w₁⟩, _, ?_, rfl,
    h.readsClock 1, rfl⟩, ⟨_, h.readsClock 2, rfl⟩⟩⟩
  rw [refreshTokenOf, h.tokens]
  rfl

theorem SignsIn.frame (h : SignsIn env ev.before row w₁ ev.after.state) {id : String}
    (hNe : id ≠ row.id) : ev.after.db.users.byId id = ev.before.db.users.byId id :=
  ((h.opened.stored.byId h.found rfl).2 id hNe).trans (h.others id hNe)

theorem Change.keepsSession {q : Request} {out : Outcome} {row row' : UserRow}
    (hOut : ∀ tokens, out ≠ .ok (.tokens tokens)) (h : Change q out row row') :
    row'.refreshToken = row.refreshToken ∧ row'.lastConnection = row.lastConnection := by
  cases h with
  | loggedIn _ _ _ _ hTokens => exact absurd hTokens (hOut _)
  | googleLoggedIn _ _ _ _ hTokens => exact absurd hTokens (hOut _)
  | _ => exact ⟨rfl, rfl⟩

/-- A request that is no login of this account leaves its session where it was. -/
theorem HoldsSession.step {login : Served.Event} {q : Request} (hRow : w.db.users.byId row.id = some row)
    (hHolds : HoldsSession login row)
    (hNot : logsIn row.id (serveEvent (serveAlone env) q w) = false) :
    ∃ row', (serveAlone env q w).2.db.users.byId row.id = some row' ∧ HoldsSession login row' := by
  by_cases hTokens : ∃ tokens, (serveEvent (serveAlone env) q w).outcome = .ok (.tokens tokens)
  · obtain ⟨tokens, hOut⟩ := hTokens
    obtain ⟨other, w₁, hSigns⟩ := signsIn_event hOut
    have hOther : row.id ≠ other.id := by
      intro hSame
      rw [(hSigns.logsIn_iff hOut).mpr hSame] at hNot
      cases hNot
    exact ⟨row, (hSigns.frame hOther).trans hRow, hHolds⟩
  · obtain ⟨row', updatedAt, hStored, ⟨_, hChange⟩ | ⟨_, rfl⟩⟩ :=
        (served_event env q w).stored hRow
    · obtain ⟨hRefresh, hLast⟩ := hChange.keepsSession fun tokens hOut => hTokens ⟨tokens, hOut⟩
      refine ⟨_, hStored, ⟨?_, ?_⟩⟩
      · simpa only [hRefresh] using hHolds.refresh
      · simpa only [hLast] using hHolds.since
    · exact ⟨_, hStored, ⟨hHolds.refresh, hHolds.since⟩⟩

/-- In every run, an account that has logged in still holds the session of its latest login. -/
theorem session_held (env : Env) (start : World) (rs : List Request) {id : String}
    {login : Served.Event} (hLatest : latestLogin id (history (serveAlone env) start rs) = some login) :
    ∃ row, (reach (serveAlone env) start rs).db.users.byId id = some row ∧ HoldsSession login row := by
  let held : List Served.Event → World → Prop := fun past w => ∀ login,
    latestLogin id past = some login →
      ∃ row, w.db.users.byId id = some row ∧ HoldsSession login row
  suffices hRun : held (history (serveAlone env) start rs) (reach (serveAlone env) start rs) from
    hRun login hLatest
  refine history_invariant (J := held) (fun _ h => by cases h) ?_ rs
  intro past w q hPast login hLatest
  rw [latestLogin, List.find?_cons] at hLatest
  cases hLogs : logsIn id (serveEvent (serveAlone env) q w) with
  | true =>
    rw [hLogs] at hLatest
    cases hLatest
    obtain ⟨tokens, hOut⟩ := logsIn_tokens hLogs
    obtain ⟨row, w₁, hSigns⟩ := signsIn_event hOut
    cases (hSigns.logsIn_iff hOut).mp hLogs
    exact hSigns.holds
  | false =>
    rw [hLogs] at hLatest
    obtain ⟨row, hRow, hHolds⟩ := hPast login hLatest
    cases (UserTable.byId_eq_some.mp hRow).2
    exact hHolds.step hRow hLogs

end Latest

end Manejaplus
