import Manejaplus.Sequential.Logins

/-! # How long a session can be renewed -/
namespace Manejaplus
open Effect Prog
set_option autoImplicit false

variable {env : Env} {w w' : World} {start : World} {rs : List Request}

/-- The refresh token that the account's latest login stored has not expired. -/
def LiveSession (past : List Served.Event) (w : World) (loginModel : LoginModel) : Prop :=
  ∃ row login refresh, w.db.users.byEmail loginModel.email = some row ∧
    latestLogin row.id past = some login ∧ refreshTokenOf login = some refresh ∧
    refresh.Live w.choice.now

structure RenewalGuarded (past : List Served.Event) (ev : Served.Event) : Prop where
  renewed : ∀ loginModel, ev.request = .refreshToken loginModel →
    ev.outcome = .ok .done ∨ ev.after.db ≠ ev.before.db →
    ∃ row login refresh, ev.before.db.users.byEmail loginModel.email = some row ∧
      latestLogin row.id past = some login ∧ refreshTokenOf login = some refresh ∧
      row.refreshToken = some refresh.token ∧ refresh.Live ev.before.choice.now
  refused : ∀ loginModel, ev.request = .refreshToken loginModel →
    ¬ LiveSession past ev.before loginModel →
    ev.outcome = .error AuthService.unauthorized ∧ ev.after.db = ev.before.db

/-- A renewal that comes while the session is live, or cannot get through. -/
def RenewsLive (past : List Served.Event) (w : World) (q : Request) : Prop :=
  ∀ loginModel, q = .refreshToken loginModel →
    LiveSession past w loginModel ∨ (w.choice.fault = false ∧ ¬ Renews loginModel w)

section Outcome

variable {loginModel : LoginModel}

variable (env) in
theorem refreshToken_done :
    (serveAlone env (.refreshToken loginModel) w).1 = .ok .done ↔ Renews loginModel w := by
  rcases hServe : serveAlone env (.refreshToken loginModel) w with ⟨out, w'⟩
  obtain ⟨r, hRun, rfl⟩ := run_map_cases _ hServe
  have hSucceeds : Succeeds env (AuthService.refreshToken loginModel) w ↔ Renews loginModel w :=
    succeeds_refreshToken
  rw [← hSucceeds, Succeeds, hRun]
  cases r with
  | ok _ => exact iff_of_true rfl ⟨_, _, rfl⟩
  | error e =>
    apply iff_of_false (fun h => by cases h)
    rintro ⟨_, _, h⟩
    cases h

theorem refreshToken_unauthorized : (serveAlone env (.refreshToken loginModel) w).1 =
    .error AuthService.unauthorized ↔ w.choice.fault = false ∧ ¬ Renews loginModel w := by
  rw [← refreshToken_done env]
  rcases hServe : serveAlone env (.refreshToken loginModel) w with ⟨out, w'⟩
  obtain ⟨r, hRun, rfl⟩ := run_map_cases _ hServe
  cases r with
  | ok _ => exact iff_of_false (fun h => by cases h) fun h => h.2 rfl
  | error e =>
    cases refreshToken_error (congrArg Prod.fst hRun)
    cases w.choice.fault <;> simp [Except.map, AuthService.unauthorized]

theorem refreshToken_db (h : (serveAlone env (.refreshToken loginModel) w).1 ≠ .ok .done) :
    (serveAlone env (.refreshToken loginModel) w).2.db = w.db := by
  rcases hServe : serveAlone env (.refreshToken loginModel) w with ⟨out, w'⟩
  rw [hServe] at h
  obtain ⟨r, hRun, rfl⟩ := run_map_cases _ hServe
  have hEnds := refreshToken_cases hRun
  generalize hState : w'.state = s at hEnds
  cases hEnds with
  | refused => exact congrArg State.db hState
  | renewed => exact absurd rfl h

end Outcome

theorem LiveSession.stored {loginModel : LoginModel}
    (h : LiveSession (history (serveAlone env) start rs) (reach (serveAlone env) start rs)
      loginModel) :
    ∃ row login refresh,
      (reach (serveAlone env) start rs).db.users.byEmail loginModel.email = some row ∧
      latestLogin row.id (history (serveAlone env) start rs) = some login ∧
      refreshTokenOf login = some refresh ∧ row.refreshToken = some refresh.token ∧
      refresh.Live (reach (serveAlone env) start rs).choice.now := by
  obtain ⟨row, login, refresh, hEmail, hLatest, hRefresh, hLive⟩ := h
  obtain ⟨stored, hStored, hHolds⟩ := session_held env start rs hLatest
  cases hStored.symm.trans (byId_of_byEmail hEmail)
  obtain ⟨refresh', t, hRefresh', hToken, _⟩ := hHolds.refresh
  cases hRefresh.symm.trans hRefresh'
  exact ⟨row, login, refresh, hEmail, hLatest, hRefresh, hToken, hLive⟩

theorem renewalGuarded_iff {q : Request} :
    RenewalGuarded (history (serveAlone env) start rs)
      (serveEvent (serveAlone env) q (reach (serveAlone env) start rs)) ↔
    RenewsLive (history (serveAlone env) start rs) (reach (serveAlone env) start rs) q := by
  constructor
  · rintro h loginModel rfl
    apply or_iff_not_imp_left.mpr
    intro hExpired
    exact refreshToken_unauthorized.mp (h.refused loginModel rfl hExpired).1
  · refine fun h => ⟨fun loginModel hq hRenewed => ?_, fun loginModel hq hExpired => ?_⟩
    · change q = _ at hq
      subst hq
      have hDone : (serveAlone env (.refreshToken loginModel)
          (reach (serveAlone env) start rs)).1 = .ok .done := by
        by_contra hNot
        exact hRenewed.elim hNot fun hChanged => hChanged (refreshToken_db hNot)
      obtain hLive | ⟨_, hNot⟩ := h loginModel rfl
      · exact hLive.stored
      · exact absurd ((refreshToken_done env).mp hDone) hNot
    · change q = _ at hq
      subst hq
      have hRefused := (h loginModel rfl).resolve_left hExpired
      exact ⟨refreshToken_unauthorized.mpr hRefused,
        refreshToken_db fun hDone => hRefused.2 ((refreshToken_done env).mp hDone)⟩

/-- A run renews access tokens only for live sessions exactly when nobody asks it to do otherwise. -/
theorem renewals_guarded (env : Env) (start : World) (rs : List Request) :
    Steps (serveAlone env) start
      (fun past w q => RenewalGuarded past (serveEvent (serveAlone env) q w)) rs ↔
    Steps (serveAlone env) start RenewsLive rs := by
  induction rs with
  | nil => exact Iff.rfl
  | cons q rs ih => exact and_congr renewalGuarded_iff ih

/-- One login, and then the clock goes on by eight days. -/
def Sample.eightDaysOn : World :=
  { Sample.world (Sample.oneUser Sample.row) with
    outside := ⟨fun n => { now := if n < 10 then 1000 * n else 700000000 }, [], []⟩ }

/-- The access token is renewed though the refresh token has expired. -/
theorem refreshToken_expired : ¬ Steps (serveAlone (Sample.env [])) Sample.eightDaysOn
    (fun past w q => RenewalGuarded past (serveEvent (serveAlone (Sample.env [])) q w))
    [.refreshToken Sample.rightLogin, .loginUser Sample.rightLogin] := by
  intro h
  obtain ⟨row, login, refresh, hEmail, hLatest, hRefresh, hLive⟩ | ⟨_, hNot⟩ :=
    renewalGuarded_iff.mp h.1 _ rfl
  · have hExp : (((reach (serveAlone (Sample.env [])) Sample.eightDaysOn
        [.loginUser Sample.rightLogin]).db.users.byEmail Sample.rightLogin.email).bind fun row =>
          (latestLogin row.id (history (serveAlone (Sample.env [])) Sample.eightDaysOn
            [.loginUser Sample.rightLogin])).bind refreshTokenOf).all
              (fun t => t.payload.exp == some 604805) = true := by decide
    rw [hEmail, Option.bind_some, hLatest, Option.bind_some, hRefresh] at hExp
    have hNow := hLive 604805 (by simpa using hExp)
    exact absurd hNow (by decide)
  · refine hNot ((refreshToken_done (Sample.env [])).mp ?_)
    decide

end Manejaplus
