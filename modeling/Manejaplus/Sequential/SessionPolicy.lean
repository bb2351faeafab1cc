import Manejaplus.Sequential.Served

/-! # Sessions and the state of the account they are for -/
namespace Manejaplus
open Effect Prog
set_option autoImplicit false

variable {env : Env} {w : World}

/-- No session token was handed out for, or stored in, an account that is not open. -/
structure SessionsGuarded (env : Env) (ev : Served.Event) : Prop where
  granted : ∀ a, ev.outcome = .ok a → a.grantsSession = true →
    ∃ row, ev.request.account env ev.before.db = some row ∧ row.Open
  stored : ∀ row row', ev.before.db.users.byId row.id = some row →
    ev.after.db.users.byId row.id = some row' →
    row'.accessToken ≠ row.accessToken ∨ row'.refreshToken ≠ row.refreshToken → row.Open
  created : ∀ row, ev.before.db.users.byId row.id = none →
    ev.after.db.users.byId row.id = some row →
    row.accessToken ≠ none ∨ row.refreshToken ≠ none → row.Open

/-- A Google login or a renewal is asked for an open account, or cannot get anywhere. -/
def SessionsForOpen (env : Env) (_past : List Served.Event) (w : World) (q : Request) : Prop :=
  (∀ profile, q = .googleLoginUser (some profile) →
    (∃ row, w.db.users.byEmail profile.email = some row ∧ row.Open) ∨
      (w.db.users.byEmail profile.email = none ∧
        w.db.users.byEmail (env.cases.toLowerCase profile.email) ≠ none)) ∧
  ∀ loginModel row, q = .refreshToken loginModel →
    w.db.users.byEmail loginModel.email = some row →
    (Js.ofOption row.refreshToken).truthyText = true → row.Open

theorem Change.guarded {past : List Served.Event} {q : Request} {out : Outcome}
    {row row' : UserRow} (hCond : SessionsForOpen env past w q)
    (hAccount : q.account env w.db = some row) (h : Change q out row row')
    (hSession : (∃ a, out = .ok a ∧ a.grantsSession = true) ∨
      row'.accessToken ≠ row.accessToken ∨ row'.refreshToken ≠ row.refreshToken) : row.Open := by
  have hNothing : ∀ {a : Response}, out = .ok a → a.grantsSession = false →
      row'.accessToken = row.accessToken → row'.refreshToken = row.refreshToken → row.Open := by
    intro a hOut hNone hAccess hRefresh
    obtain ⟨a', hOut', hGrants⟩ | hNe | hNe := hSession
    · cases hOut.symm.trans hOut'
      rw [hNone] at hGrants
      cases hGrants
    · exact absurd hAccess hNe
    · exact absurd hRefresh hNe
  cases h with
  | kept _ hUneventful =>
    obtain ⟨a, hOut, hGrants⟩ | hNe | hNe := hSession
    · rw [hUneventful.noSession a hOut] at hGrants
      cases hGrants
    · exact absurd rfl hNe
    · exact absurd rfl hNe
  | failed hFailed =>
    obtain ⟨a, hOut, _⟩ | hNe | hNe := hSession
    · exact nomatch hFailed.2.symm.trans hOut
    · exact absurd rfl hNe
    · exact absurd rfl hNe
  | loggedIn _ _ _ _ _ hOpen => exact hOpen
  | googleLoggedIn _ _ _ hq =>
    subst hq
    obtain ⟨known, hKnown, hOpen⟩ | ⟨hNone, _⟩ := hCond.1 _ rfl
    · cases hKnown.symm.trans hAccount
      exact hOpen
    · exact nomatch hNone.symm.trans hAccount
  | renewed _ hq _ hStored hNe =>
    subst hq
    apply hCond.2 _ row rfl hAccount
    rw [hStored]
    simpa [Js.ofOption, Js.truthyText] using hNe
  | assigned _ _ hOut => exact hNothing hOut rfl rfl rfl
  | verified _ hOut => exact hNothing hOut rfl rfl rfl
  | unlocked _ hOut => exact hNothing hOut rfl rfl rfl

theorem SessionsForOpen.not_first {past : List Served.Event} {q : Request} {profile : GoogleProfile}
    (hCond : SessionsForOpen env past w q) (hq : q = .googleLoginUser (some profile))
    (hAccount : q.account env w.db = none)
    (hEmail : w.db.users.byEmail (env.cases.toLowerCase profile.email) = none) : False := by
  subst hq
  obtain ⟨known, hKnown, _⟩ | ⟨_, hTaken⟩ := hCond.1 profile rfl
  · exact nomatch hKnown.symm.trans hAccount
  · exact hTaken hEmail

theorem Served.granted {past : List Served.Event} {q : Request} {out : Outcome} {s : State}
    {a : Response} (hServed : Served env w q out s) (hCond : SessionsForOpen env past w q)
    (hOut : out = .ok a) (hGrants : a.grantsSession = true) :
    ∃ row, q.account env w.db = some row ∧ row.Open := by
  cases hServed with
  | same _ hUneventful =>
    rw [hUneventful.noSession a hOut] at hGrants
    cases hGrants
  | @updated row row' hAccount hChange =>
    exact ⟨row, hAccount, hChange.guarded hCond hAccount (.inl ⟨a, hOut, hGrants⟩)⟩
  | created hAccount hCreated hRows =>
    have hEmail := byEmail_new hRows
    cases hCreated with
    | registered _ _ _ _ hUser =>
      cases hOut.symm.trans hUser
      cases hGrants
    | google _ _ _ _ hError => exact nomatch hOut.symm.trans hError
    | googleSession _ _ _ _ _ _ _ hq => exact (hCond.not_first hq hAccount hEmail).elim

theorem sessionsGuarded_step (past : List Served.Event) (w : World) (q : Request)
    (hCond : SessionsForOpen env past w q) :
    SessionsGuarded env (serveEvent (serveAlone env) q w) := by
  have hServed := served_event env q w
  constructor
  · intro a hOut hGrants
    exact hServed.granted hCond hOut hGrants
  · intro row row' hBefore hAfter hSession
    obtain ⟨changed, updatedAt, rfl, hChange⟩ := hServed.stored_eq hBefore hAfter
    obtain ⟨hAccount, hChange⟩ | ⟨_, rfl⟩ := hChange
    · exact hChange.guarded hCond hAccount (.inr hSession)
    · obtain hNe | hNe := hSession <;> exact absurd rfl hNe
  · intro row hBefore hAfter hSession
    obtain ⟨hAccount, hCreated, hEmail⟩ := hServed.added hAfter hBefore
    cases hCreated with
    | registered => obtain hNe | hNe := hSession <;> exact absurd rfl hNe
    | google => obtain hNe | hNe := hSession <;> exact absurd rfl hNe
    | googleSession _ _ _ _ _ _ _ hq => exact (hCond.not_first hq hAccount hEmail).elim

/-- Sessions go to open accounts only, as long as the two entries that do not look at the state of
the account are used on open accounts only. -/
theorem sessions_guarded (env : Env) (start : World) (rs : List Request)
    (hSteps : Steps (serveAlone env) start (SessionsForOpen env) rs) :
    ∀ ev ∈ history (serveAlone env) start rs, SessionsGuarded env ev :=
  history_forall sessionsGuarded_step hSteps

theorem sessions_guarded_sample :
    SessionsGuarded (Sample.env []) (serveEvent (serveAlone (Sample.env []))
      (.refreshToken Sample.rightLogin)
      (reach (serveAlone (Sample.env [])) (Sample.world (Sample.oneUser Sample.row))
        [.googleLoginUser (some Sample.profile), .loginUser Sample.rightLogin])) := by
  have hLogin : SessionsForOpen (Sample.env []) [] (Sample.world (Sample.oneUser Sample.row))
      (.loginUser Sample.rightLogin) :=
    ⟨fun _ hq => (by cases hq), fun _ _ hq => (by cases hq)⟩
  have hGoogle : ((reach (serveAlone (Sample.env [])) (Sample.world (Sample.oneUser Sample.row))
      [.loginUser Sample.rightLogin]).db.users.byEmail "ana@x.io").any
        (fun row => decide row.Open) = true := by decide
  have hRefresh : ((reach (serveAlone (Sample.env [])) (Sample.world (Sample.oneUser Sample.row))
      [.googleLoginUser (some Sample.profile), .loginUser Sample.rightLogin]).db.users.byEmail
        "ana@x.io").all (fun row => decide row.Open) = true := by decide
  refine sessions_guarded (Sample.env []) (Sample.world (Sample.oneUser Sample.row))
    [.refreshToken Sample.rightLogin, .googleLoginUser (some Sample.profile),
      .loginUser Sample.rightLogin]
    ⟨⟨fun _ hq => (by cases hq), ?_⟩, ⟨?_, fun _ _ hq => (by cases hq)⟩, hLogin, trivial⟩
    _ List.mem_cons_self
  · intro loginModel row hq hRow _
    cases hq
    rw [show Sample.rightLogin.email = "ana@x.io" from rfl] at hRow
    rw [hRow] at hRefresh
    simpa using hRefresh
  · intro profile hq
    cases hq
    obtain ⟨row, hRow, hOpen⟩ := (Option.any_eq_true _ _).mp hGoogle
    exact .inl ⟨row, hRow, of_decide_eq_true hOpen⟩

/-- A first Google login: the new row is blocked and not verified, and holds the tokens returned. -/
theorem googleLoginUser_unguarded :
    ¬ ∀ ev ∈ history (serveAlone (Sample.env [])) (Sample.world Sample.noUsers)
      [.googleLoginUser (some Sample.profile)], SessionsGuarded (Sample.env []) ev := by
  intro h
  have hOpen := (h _ List.mem_cons_self).created
    { Sample.profile.row ⟨id, id⟩ "u2" "hash:gid" 2000 with
      accessToken := some "jwt:ana@x.io:u2:2403"
      refreshToken := some "jwt:ana@x.io:u2:604804"
      lastConnection := some 5000
      updatedAt := 6000 } (by decide) (by decide) (.inl (by decide))
  exact absurd hOpen (by decide)

end Manejaplus
