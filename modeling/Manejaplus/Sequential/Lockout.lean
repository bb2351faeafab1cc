import Manejaplus.Sequential.Served

/-! # Failed checks, the counter and the block -/
namespace Manejaplus
open Effect Prog
set_option autoImplicit false

variable {env : Env} {w : World}

section Tally

variable (env) (id : String)

def failedCheckOn (ev : Served.Event) : Bool :=
  decide (FailedCheck ev.request ev.outcome) && concerns env id ev

def unlockedOn (ev : Served.Event) : Bool :=
  ev.request.unlocks && ev.outcome.isOk && concerns env id ev

/-- The failed checks on an account since its last unlock; the history lists the latest first. -/
def strikes : List Served.Event → Nat
  | [] => 0
  | ev :: past =>
    if unlockedOn env id ev then 0
    else strikes past + if failedCheckOn env id ev then 1 else 0

end Tally

/-- The counter and the flag of a row agree with `n` failed checks. -/
def UserRow.Tallied (row : UserRow) (n : Nat) : Prop :=
  n ≤ row.attemptsFailed.getD 0 ∧
    (USER_CONSTANTS.NUMBER_ATTEMPS_TO_BLOCk_USER ≤ n → row.isBlocked = some true)

theorem tallied_zero (row : UserRow) : row.Tallied 0 :=
  ⟨Nat.zero_le _, fun h => absurd h (by decide)⟩

theorem tallied_recordFailure {row : UserRow} {n : Nat} (h : row.Tallied n) :
    row.recordFailure.Tallied (n + 1) := by
  obtain ⟨hCount, hBlocked⟩ := h
  constructor
  · simp only [UserRow.recordFailure, Option.getD_some]
    omega
  · intro hLimit
    exact if_pos (by omega)

/-- The strikes of an account after a request about it, from those before. -/
def tally (q : Request) (out : Outcome) (n : Nat) : Nat :=
  if q.unlocks && out.isOk then 0 else n + if FailedCheck q out then 1 else 0

theorem tally_ok (q : Request) {out : Outcome} {a : Response} (hq : q.unlocks = false)
    (hOut : out = .ok a) (n : Nat) : tally q out n = n := by
  have hNot : ¬ FailedCheck q out := by
    rintro ⟨_, hError⟩
    rw [hOut] at hError
    cases hError
  simp [tally, hq, hNot]

theorem Change.tallied {q : Request} {out : Outcome} {row row' : UserRow} {n : Nat}
    (h : Change q out row row') (hTallied : row.Tallied n) : row'.Tallied (tally q out n) := by
  cases h with
  | kept hNot hUneventful =>
    have hNotOk : (q.unlocks && out.isOk) = false := by
      cases q with
      | unlockAccountToken token =>
        obtain ⟨e, rfl⟩ := hUneventful.noUnlock token rfl
        rfl
      | _ => rfl
    rw [tally, hNotOk, if_neg hNot]
    exact hTallied
  | failed hFailed =>
    have hNotOk : out.isOk = false := by
      rw [hFailed.2]
      rfl
    rw [tally, hNotOk, Bool.and_false, if_pos hFailed]
    exact tallied_recordFailure hTallied
  | unlocked hq hOut =>
    rw [hq, hOut]
    exact tallied_zero _
  | loggedIn _ _ _ hq hOut => exact (tally_ok q (by rw [hq]; rfl) hOut n).symm ▸ hTallied
  | googleLoggedIn _ _ _ hq hOut => exact (tally_ok q (by rw [hq]; rfl) hOut n).symm ▸ hTallied
  | renewed _ hq hOut => exact (tally_ok q (by rw [hq]; rfl) hOut n).symm ▸ hTallied
  | assigned _ hq hOut => exact (tally_ok q (by rw [hq]; rfl) hOut n).symm ▸ hTallied
  | verified hq hOut => exact (tally_ok q (by rw [hq]; rfl) hOut n).symm ▸ hTallied

theorem strikes_cons (id : String) (ev : Served.Event) (past : List Served.Event) :
    strikes env id (ev :: past) =
      if concerns env id ev then tally ev.request ev.outcome (strikes env id past)
      else strikes env id past := by
  cases hConcerns : concerns env id ev <;>
    simp [strikes, unlockedOn, failedCheckOn, hConcerns, tally]

/-- Every account agrees with the strikes of its history; what is not there has none. -/
def StrikesRecorded (env : Env) (past : List Served.Event) (w : World) : Prop :=
  ∀ id, match w.db.users.byId id with
    | none => strikes env id past = 0
    | some row => row.Tallied (strikes env id past)

theorem strikesRecorded_step (past : List Served.Event) (w : World) (q : Request)
    (h : StrikesRecorded env past w) :
    StrikesRecorded env (serveEvent (serveAlone env) q w :: past) (serveAlone env q w).2 := by
  intro id
  have hServed := served_event env q w
  have hBefore := h id
  rw [strikes_cons]
  cases hRow : w.db.users.byId id with
  | none =>
    rw [hRow] at hBefore
    rw [if_neg (not_concerns_new hRow)]
    cases (serveAlone env q w).2.db.users.byId id with
    | none => exact hBefore
    | some row => exact (show strikes env id past = 0 from hBefore) ▸ tallied_zero row
  | some row =>
    rw [hRow] at hBefore
    obtain ⟨_, rfl⟩ := UserTable.byId_eq_some.mp hRow
    obtain ⟨row', updatedAt, hAfter, hChange⟩ := hServed.stored hRow
    rw [show (serveAlone env q w).2.db.users.byId row.id = _ from hAfter]
    obtain ⟨hAccount, hChange⟩ | ⟨hAccount, rfl⟩ := hChange
    · rw [if_pos ((concerns_stored hRow).mpr hAccount)]
      exact hChange.tallied hBefore
    · rw [if_neg fun h => hAccount ((concerns_stored hRow).mp h)]
      exact hBefore

theorem strikesRecorded (env : Env) (start : World) (rs : List Request) :
    StrikesRecorded env (history (serveAlone env) start rs) (reach (serveAlone env) start rs) := by
  refine history_invariant ?_ strikesRecorded_step rs
  intro id
  cases start.db.users.byId id with
  | none => rfl
  | some row => exact tallied_zero row

/-- Three strikes, and no login gets through until the account is unlocked. -/
theorem loginUser_locked (env : Env) (start : World) (rs : List Request) (loginModel : LoginModel)
    (row : UserRow)
    (hRow : (reach (serveAlone env) start rs).db.users.byEmail loginModel.email = some row)
    (hStrikes : USER_CONSTANTS.NUMBER_ATTEMPS_TO_BLOCk_USER ≤
      strikes env row.id (history (serveAlone env) start rs)) (tokens : JWTTokens) :
    (serveAlone env (.loginUser loginModel) (reach (serveAlone env) start rs)).1 ≠
      .ok (.tokens tokens) := by
  intro hTokens
  have hTallied := strikesRecorded env start rs row.id
  rw [byId_of_byEmail hRow] at hTallied
  have hBlocked := hTallied.2 hStrikes
  have hServed := served_event env (.loginUser loginModel) (reach (serveAlone env) start rs)
  rw [show (serveEvent _ _ _).outcome = _ from hTokens] at hServed
  cases hServed with
  | same _ hUneventful => exact nomatch hUneventful.noSession _ rfl
  | @updated changed row' hAccount hChange =>
    cases hRow.symm.trans hAccount
    cases hChange with
    | kept _ hUneventful => exact nomatch hUneventful.noSession _ rfl
    | failed hFailed => cases hFailed.2
    | loggedIn _ _ _ _ _ hOpen => exact hOpen.2 hBlocked
    | googleLoggedIn _ _ _ hq => cases hq
    | renewed _ hq => cases hq
    | assigned _ hq => cases hq
    | verified hq => cases hq
    | unlocked hq => cases hq
  | created hNone => exact nomatch hRow.symm.trans hNone

theorem loginUser_locked_sample :
    ¬ ∃ tokens, (serveAlone (Sample.env []) (.loginUser Sample.rightLogin)
      (reach (serveAlone (Sample.env [])) (Sample.world (Sample.oneUser Sample.row))
        [.loginUser Sample.wrongLogin, .loginUser Sample.wrongLogin,
          .loginUser Sample.wrongLogin])).1 = .ok (.tokens tokens) := by
  rintro ⟨tokens, hTokens⟩
  exact loginUser_locked (Sample.env []) (Sample.world (Sample.oneUser Sample.row)) _ Sample.rightLogin
    { Sample.row with attemptsFailed := some 3, isBlocked := some true, updatedAt := 8000 }
    (by decide) (by decide) tokens hTokens

section Budget

variable (env) (id : String)

def failures (past : List Served.Event) : Nat := past.countP (failedCheckOn env id)

def neverUnlocked (past : List Served.Event) : Prop := ∀ ev ∈ past, unlockedOn env id ev = false

variable {env} {id}

/-- The row of an account that was unlocked with `a` attempts counted, `n` failed checks later. -/
structure UserRow.Spent (row : UserRow) (a n : Nat) (locked : Prop) : Prop where
  count : row.attemptsFailed.getD 0 = a + n
  blocked : row.isBlocked = some true → 1 ≤ n ∧ USER_CONSTANTS.NUMBER_ATTEMPS_TO_BLOCk_USER ≤ a + n
  locks : locked → 1 ≤ n → USER_CONSTANTS.NUMBER_ATTEMPS_TO_BLOCk_USER ≤ a + n →
    row.isBlocked = some true

theorem spent_recordFailure {row : UserRow} {a n : Nat} {locked : Prop}
    (h : row.Spent a n locked) : row.recordFailure.Spent a (n + 1) locked := by
  have hCount : row.attemptsFailed.getD 0 + 1 = a + (n + 1) := by rw [h.count, Nat.add_assoc]
  refine ⟨hCount, ?_, ?_⟩
  · intro hBlocked
    simp only [UserRow.recordFailure, hCount] at hBlocked
    split at hBlocked
    · omega
    · have := h.blocked hBlocked
      omega
  · intro _ _ hLimit
    simp only [UserRow.recordFailure, hCount, if_pos hLimit]

theorem failures_cons (id : String) (ev : Served.Event) (past : List Served.Event) :
    failures env id (ev :: past) =
      failures env id past + if failedCheckOn env id ev then 1 else 0 := by
  rw [failures, List.countP_cons, failures]

theorem Change.spent {q : Request} {out : Outcome} {row row' : UserRow} {a n : Nat} {locked : Prop}
    (h : Change q out row row') (hSpent : row.Spent a n locked) :
    row'.Spent a (n + if FailedCheck q out then 1 else 0)
      (locked ∧ (q.unlocks && out.isOk) = false) := by
  have hSame : ∀ {row'' : UserRow}, row''.attemptsFailed = row.attemptsFailed →
      row''.isBlocked = row.isBlocked → ¬ FailedCheck q out →
      row''.Spent a (n + if FailedCheck q out then 1 else 0)
        (locked ∧ (q.unlocks && out.isOk) = false) := by
    intro row'' hCount hBlocked hNot
    rw [if_neg hNot, Nat.add_zero]
    exact ⟨hCount ▸ hSpent.count, hBlocked ▸ hSpent.blocked,
      fun hLocked => hBlocked ▸ hSpent.locks hLocked.1⟩
  have hOk : ∀ {r : Response}, out = .ok r → ¬ FailedCheck q out := by
    rintro r rfl ⟨_, hError⟩
    cases hError
  cases h with
  | kept hNot => exact hSame rfl rfl hNot
  | failed hFailed =>
    rw [if_pos hFailed]
    have hNext := spent_recordFailure hSpent
    exact ⟨hNext.count, hNext.blocked, fun hLocked => hNext.locks hLocked.1⟩
  | loggedIn _ _ _ _ hOut => exact hSame rfl rfl (hOk hOut)
  | googleLoggedIn _ _ _ _ hOut => exact hSame rfl rfl (hOk hOut)
  | renewed _ _ hOut => exact hSame rfl rfl (hOk hOut)
  | assigned _ _ hOut => exact hSame rfl rfl (hOk hOut)
  | verified _ hOut => exact hSame rfl rfl (hOk hOut)
  | unlocked hq hOut =>
    rw [if_neg (hOk hOut), Nat.add_zero]
    refine ⟨hSpent.count, nofun, ?_⟩
    rintro ⟨_, hNot⟩
    rw [hq, hOut] at hNot
    cases hNot

/-- The counter goes on from where the unlock left it. -/
def BudgetKept (env : Env) (id : String) (a : Nat) (past : List Served.Event) (w : World) : Prop :=
  ∃ row, w.db.users.byId id = some row ∧
    row.Spent a (failures env id past) (neverUnlocked env id past)

theorem budgetKept_step {a : Nat} (past : List Served.Event) (w : World) (q : Request)
    (h : BudgetKept env id a past w) :
    BudgetKept env id a (serveEvent (serveAlone env) q w :: past) (serveAlone env q w).2 := by
  obtain ⟨row, hRow, hSpent⟩ := h
  obtain ⟨_, rfl⟩ := UserTable.byId_eq_some.mp hRow
  obtain ⟨row', updatedAt, hAfter, hChange⟩ := (served_event env q w).stored hRow
  refine ⟨_, hAfter, ?_⟩
  have hNever : neverUnlocked env row.id (serveEvent (serveAlone env) q w :: past) →
      neverUnlocked env row.id past ∧
        unlockedOn env row.id (serveEvent (serveAlone env) q w) = false :=
    fun h => ⟨fun ev hev => h ev (List.mem_cons_of_mem _ hev), h _ List.mem_cons_self⟩
  rw [failures_cons]
  obtain ⟨hAccount, hChange⟩ | ⟨hAccount, rfl⟩ := hChange
  · have hConcerns := (concerns_stored hRow).mpr hAccount
    have hNext := hChange.spent hSpent
    simp only [failedCheckOn, hConcerns, Bool.and_true, decide_eq_true_eq]
    simp only [unlockedOn, hConcerns, Bool.and_true] at hNever
    exact ⟨hNext.count, hNext.blocked, fun h => hNext.locks (hNever h)⟩
  · have hOther : concerns env row'.id (serveEvent (serveAlone env) q w) = false :=
      Bool.eq_false_iff.mpr fun h => hAccount ((concerns_stored hRow).mp h)
    simp only [failedCheckOn, hOther, Bool.and_false, Bool.false_eq_true, if_false, Nat.add_zero]
    exact ⟨hSpent.count, hSpent.blocked, fun h => hSpent.locks (hNever h).1⟩

theorem Served.unlocked {token : String} {info : AccountInfo} {s : State}
    (h : Served env w (.unlockAccountToken token) (.ok (.account info)) s) :
    ∃ row updatedAt, w.db.byToken env token = some row ∧
      s.db.users.byId row.id = some { row with isBlocked := some false, updatedAt } := by
  have hSuccess : ¬ Uneventful (.unlockAccountToken token) (.ok (.account info)) := by
    intro hUneventful
    obtain ⟨e, hError⟩ := hUneventful.noUnlock token rfl
    cases hError
  cases h with
  | same _ hUneventful => exact absurd hUneventful hSuccess
  | @updated row row' hAccount hChange hId hUsers =>
    obtain ⟨⟨updatedAt, hAfter⟩, _⟩ := hUsers.byId (Request.account_stored hAccount) hId
    refine ⟨row, updatedAt, hAccount, ?_⟩
    cases hChange with
    | kept _ hUneventful => exact absurd hUneventful hSuccess
    | failed hFailed => cases hFailed.2
    | loggedIn _ _ _ hq => cases hq
    | googleLoggedIn _ _ _ hq => cases hq
    | renewed _ hq => cases hq
    | assigned _ hq => cases hq
    | verified hq => cases hq
    | unlocked => exact hAfter
  | created _ hCreated =>
    cases hCreated with
    | registered _ _ _ hq => cases hq
    | google _ _ _ hq => cases hq
    | googleSession _ _ _ _ _ _ _ hq => cases hq

/-- An unlock leaves the counter where it was, so the block comes back that much earlier. -/
theorem unlockAccountToken_budget (env : Env) (w : World) (token : String) (info : AccountInfo)
    (hUnlock : (serveAlone env (.unlockAccountToken token) w).1 = .ok (.account info))
    (rs : List Request) :
    ∃ unlocked row, w.db.byToken env token = some unlocked ∧
      (reach (serveAlone env) (serveAlone env (.unlockAccountToken token) w).2 rs).db.users.byId
        unlocked.id = some row ∧
      row.attemptsFailed.getD 0 = unlocked.attemptsFailed.getD 0 + failures env unlocked.id
        (history (serveAlone env) (serveAlone env (.unlockAccountToken token) w).2 rs) ∧
      (row.isBlocked = some true →
        max 1 (USER_CONSTANTS.NUMBER_ATTEMPS_TO_BLOCk_USER - unlocked.attemptsFailed.getD 0) ≤
          failures env unlocked.id
            (history (serveAlone env) (serveAlone env (.unlockAccountToken token) w).2 rs)) ∧
      (neverUnlocked env unlocked.id
          (history (serveAlone env) (serveAlone env (.unlockAccountToken token) w).2 rs) →
        max 1 (USER_CONSTANTS.NUMBER_ATTEMPS_TO_BLOCk_USER - unlocked.attemptsFailed.getD 0) ≤
          failures env unlocked.id
            (history (serveAlone env) (serveAlone env (.unlockAccountToken token) w).2 rs) →
        row.isBlocked = some true) := by
  have hServed := served_event env (.unlockAccountToken token) w
  rw [show (serveEvent _ _ _).outcome = _ from hUnlock] at hServed
  obtain ⟨unlocked, updatedAt, hToken, hAfter⟩ := hServed.unlocked
  change (serveAlone env (.unlockAccountToken token) w).2.db.users.byId _ = _ at hAfter
  generalize (serveAlone env (.unlockAccountToken token) w).2 = w₁ at *
  have hStart : BudgetKept env unlocked.id (unlocked.attemptsFailed.getD 0) [] w₁ :=
    ⟨_, hAfter, rfl, nofun, fun _ h => absurd (show 1 ≤ 0 from h) (by decide)⟩
  obtain ⟨row, hRow, hSpent⟩ := history_invariant hStart budgetKept_step rs
  refine ⟨unlocked, row, hToken, hRow, hSpent.count, ?_, ?_⟩
  · intro hBlocked
    have := hSpent.blocked hBlocked
    omega
  · intro hNever hEnough
    exact hSpent.locks hNever (by omega) (by omega)

namespace Sample

/-- Registered, verified, blocked by three wrong passwords, and sent an unlock link. -/
def lockedOut : World :=
  reach (serveAlone tokenEnv) (world noUsers)
    [.unlockAccount rightLogin, .loginUser wrongLogin, .loginUser wrongLogin, .loginUser wrongLogin,
      .verifyAccount verifyToken, .createUser registration]

end Sample

theorem unlockAccountToken_budget_sample :
    ∃ row, (reach (serveAlone Sample.tokenEnv) (serveAlone Sample.tokenEnv
        (.unlockAccountToken Sample.unlockToken) Sample.lockedOut).2
        [.loginUser Sample.wrongLogin, .loginUser Sample.wrongLogin]).db.users.byId "u3" = some row ∧
      row.attemptsFailed.getD 0 = 5 ∧ row.isBlocked = some true := by
  obtain ⟨unlocked, row, hToken, hRow, hCount, _, hLocks⟩ := unlockAccountToken_budget Sample.tokenEnv
    Sample.lockedOut Sample.unlockToken ⟨.val "ana@x.io", .val "Ana"⟩ (by decide)
    [.loginUser Sample.wrongLogin, .loginUser Sample.wrongLogin]
  have hUnlocked : (Sample.lockedOut.db.byToken Sample.tokenEnv Sample.unlockToken).map
      (fun row => (row.id, row.attemptsFailed.getD 0)) = some ("u3", 3) := by decide
  rw [hToken, Option.map_some, Option.some.injEq, Prod.mk.injEq] at hUnlocked
  rw [hUnlocked.1] at hRow hCount hLocks
  rw [hUnlocked.2] at hCount hLocks
  have hFailed : failures Sample.tokenEnv "u3" (history (serveAlone Sample.tokenEnv)
      (serveAlone Sample.tokenEnv (.unlockAccountToken Sample.unlockToken) Sample.lockedOut).2
      [.loginUser Sample.wrongLogin, .loginUser Sample.wrongLogin]) = 2 := by decide
  refine ⟨row, hRow, by rw [hCount, hFailed], hLocks ?_ ?_⟩
  · unfold neverUnlocked
    decide
  · rw [hFailed]
    decide

/-- Unlocked after three failed checks, the account is blocked again by the next one. -/
theorem unlockAccountToken_no_fresh_budget :
    (serveAlone Sample.tokenEnv (.unlockAccountToken Sample.unlockToken) Sample.lockedOut).1 =
        .ok (.account ⟨.val "ana@x.io", .val "Ana"⟩) ∧
      (Sample.lockedOut.db.byToken Sample.tokenEnv Sample.unlockToken).map (·.id) = some "u3" ∧
      ((reach (serveAlone Sample.tokenEnv) Sample.lockedOut [.loginUser Sample.wrongLogin,
        .unlockAccountToken Sample.unlockToken]).db.users.byId "u3").map (·.isBlocked) =
        some (some true) ∧
      failures Sample.tokenEnv "u3" (history (serveAlone Sample.tokenEnv)
        (serveAlone Sample.tokenEnv (.unlockAccountToken Sample.unlockToken) Sample.lockedOut).2
        [.loginUser Sample.wrongLogin]) < USER_CONSTANTS.NUMBER_ATTEMPS_TO_BLOCk_USER := by
  decide

end Budget

section Blocked

def BlockedByFailures (env : Env) (past : List Served.Event) (w : World) : Prop :=
  ∀ row, w.db.users.byId row.id = some row → row.isBlocked = some true →
    ∃ ev ∈ past, failedCheckOn env row.id ev = true

/-- The Google login is not the first one: its profile has a row, or cannot get one. -/
def GoogleAccountExists (env : Env) (_past : List Served.Event) (w : World) (q : Request) : Prop :=
  ∀ profile, q = .googleLoginUser (some profile) →
    w.db.users.byEmail profile.email ≠ none ∨
      w.db.users.byEmail (env.cases.toLowerCase profile.email) ≠ none

theorem Change.blocked {q : Request} {out : Outcome} {row row' : UserRow}
    (h : Change q out row row') (hBlocked : row'.isBlocked = some true) :
    row.isBlocked = some true ∨ FailedCheck q out := by
  cases h with
  | failed hFailed => exact .inr hFailed
  | unlocked => cases hBlocked
  | _ => exact .inl hBlocked

theorem blockedByFailures_step (past : List Served.Event) (w : World) (q : Request)
    (h : BlockedByFailures env past w) (hGoogle : GoogleAccountExists env past w q) :
    BlockedByFailures env (serveEvent (serveAlone env) q w :: past) (serveAlone env q w).2 := by
  intro row hRow hBlocked
  have hServed := served_event env q w
  cases hBefore : w.db.users.byId row.id with
  | none =>
    obtain ⟨hAccount, hCreated, hEmail⟩ := hServed.added hRow hBefore
    have hFirst : ∀ profile, q = .googleLoginUser (some profile) →
        row.email ≠ env.cases.toLowerCase profile.email := by
      rintro profile rfl hLower
      obtain hKnown | hKnown := hGoogle profile rfl
      · exact hKnown hAccount
      · exact hKnown (hLower ▸ hEmail)
    cases hCreated with
    | registered => cases hBlocked
    | google _ _ _ hq => exact absurd rfl (hFirst _ hq)
    | googleSession _ _ _ _ _ _ _ hq => exact absurd rfl (hFirst _ hq)
  | some old =>
    obtain ⟨_, hId⟩ := UserTable.byId_eq_some.mp hBefore
    rw [← hId] at hBefore
    obtain ⟨row', updatedAt, hAfter, hChange⟩ := hServed.stored hBefore
    rw [hId] at hAfter
    cases hRow.symm.trans hAfter
    have hPast : old.isBlocked = some true → ∃ ev ∈ serveEvent (serveAlone env) q w :: past,
        failedCheckOn env row'.id ev = true := by
      intro hOld
      obtain ⟨ev, hMem, hFailed⟩ := h old hBefore hOld
      exact ⟨ev, List.mem_cons_of_mem _ hMem, hId ▸ hFailed⟩
    obtain ⟨hAccount, hChange⟩ | ⟨_, rfl⟩ := hChange
    · obtain hOld | hFailed := hChange.blocked hBlocked
      · exact hPast hOld
      · refine ⟨_, List.mem_cons_self, ?_⟩
        have hConcerns := (concerns_stored hBefore).mpr hAccount
        rw [hId] at hConcerns
        exact Bool.and_eq_true_iff.mpr ⟨decide_eq_true hFailed, hConcerns⟩
    · exact hPast hBlocked

/-- As long as no account comes from a first Google login, only failed checks block. -/
theorem blocked_only_by_failures (env : Env) (start : World)
    (hStart : ∀ row ∈ start.db.users.rows, row.isBlocked ≠ some true) (rs : List Request)
    (hGoogle : Steps (serveAlone env) start (GoogleAccountExists env) rs) (row : UserRow)
    (hRow : (reach (serveAlone env) start rs).db.users.byId row.id = some row)
    (hNone : ∀ ev ∈ history (serveAlone env) start rs, failedCheckOn env row.id ev = false) :
    row.isBlocked ≠ some true := by
  intro hBlocked
  have hInitial : BlockedByFailures env [] start := fun row hRow hBlocked =>
    absurd hBlocked (hStart row (UserTable.byId_eq_some.mp hRow).1)
  obtain ⟨ev, hMem, hFailed⟩ :=
    history_induction hInitial blockedByFailures_step hGoogle row hRow hBlocked
  rw [hNone ev hMem] at hFailed
  cases hFailed

theorem blocked_only_by_failures_sample :
    ((reach (serveAlone (Sample.env [])) (Sample.world Sample.noUsers)
      [.googleLoginUser (some Sample.profile), .createUser Sample.registration]).db.users.byId
      "u3").map (·.isBlocked) ≠ some (some true) := by
  have hKnown : ((reach (serveAlone (Sample.env [])) (Sample.world Sample.noUsers)
      [.createUser Sample.registration]).db.users.byEmail Sample.profile.email).isSome = true := by
    decide
  have hFirst : GoogleAccountExists (Sample.env []) [] (Sample.world Sample.noUsers)
      (.createUser Sample.registration) := fun profile hq => by cases hq
  have hSteps : Steps (serveAlone (Sample.env [])) (Sample.world Sample.noUsers)
      (GoogleAccountExists (Sample.env []))
      [.googleLoginUser (some Sample.profile), .createUser Sample.registration] := by
    refine ⟨fun profile hq => ?_, hFirst, trivial⟩
    cases hq
    exact .inl (Option.isSome_iff_ne_none.mp hKnown)
  intro hBlocked
  obtain ⟨row, hRow, hTrue⟩ := Option.map_eq_some_iff.mp hBlocked
  have hId : row.id = "u3" := (UserTable.byId_eq_some.mp hRow).2
  rw [← hId] at hRow
  refine blocked_only_by_failures (Sample.env []) (Sample.world Sample.noUsers) (by decide) _
    hSteps row hRow ?_ hTrue
  rw [hId]
  decide

/-- A first Google login leaves a blocked account behind: the column's default is `true`. -/
theorem googleLoginUser_blocks :
    ((reach (serveAlone (Sample.env [])) (Sample.world Sample.noUsers)
        [.googleLoginUser (some Sample.profile)]).db.users.rows.map
      fun row => (row.email, row.isBlocked)) = [("ana@x.io", some true)] ∧
      ∀ ev ∈ history (serveAlone (Sample.env [])) (Sample.world Sample.noUsers)
        [.googleLoginUser (some Sample.profile)], ∀ row ∈ ev.after.db.users.rows,
        failedCheckOn (Sample.env []) row.id ev = false := by
  decide

end Blocked

end Manejaplus
