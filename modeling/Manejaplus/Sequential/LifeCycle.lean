import Manejaplus.Sequential.Served
import Manejaplus.Users.LifeCycle

/-! # An account's flags are a replay of what has been answered about it

Whatever a run of requests holds, the standing of an account follows from how it
was opened and from the answers to the requests about it: from failed checks,
verifications and unlockings, in their order.
-/
namespace Manejaplus
open Effect Prog LifeCycle
set_option autoImplicit false

variable {env : Env}

def UserRow.standing (row : UserRow) : Standing where
  verified := row.isVerified == some true
  blocked := row.isBlocked == some true
  attempts := row.attemptsFailed.getD 0

/-- The flag that a request sets if it succeeds. -/
def Request.sets : Request → Option Happening
  | .verifyAccount _ => some .verified
  | .unlockAccountToken _ => some .unlocked
  | _ => none

/-- What an answered request means for the account it is about. -/
def Request.happening (q : Request) (out : Outcome) : Option Happening :=
  if FailedCheck q out then some .checkFailed else if out.isOk then q.sets else none

/-- How an account is opened. -/
def Request.opens : Request → Option Standing
  | .createUser _ => some { verified := false, blocked := false, attempts := 0 }
  | .googleLoginUser _ => some { verified := false, blocked := true, attempts := 0 }
  | _ => none

namespace Replay

/-- All that has happened to the account, the latest first. -/
def happenings (env : Env) (id : String) (past : List Served.Event) : List Happening :=
  past.filterMap fun ev => if concerns env id ev then ev.request.happening ev.outcome else none

/-- The account was there from the start, or one request of the run has opened it. -/
inductive Opened (start : World) (past : List Served.Event) (id : String) : Standing → Prop
  | stored {row : UserRow} : start.db.users.byId id = some row → Opened start past id row.standing
  | during {ev : Served.Event} {s : Standing} : ev ∈ past → ev.before.db.users.byId id = none →
      ev.after.db.users.byId id ≠ none → ev.request.opens = some s → Opened start past id s

section Statements
variable {start w : World} {past : List Served.Event} {q : Request} {out : Outcome} {row row' : UserRow}
  {s : Standing}

abbrev Limit : Nat := USER_CONSTANTS.NUMBER_ATTEMPS_TO_BLOCk_USER

theorem standing_recordFailure (row : UserRow) :
    row.recordFailure.standing = row.standing.step Limit .checkFailed := by
  by_cases hLimit : USER_CONSTANTS.NUMBER_ATTEMPS_TO_BLOCk_USER ≤ row.attemptsFailed.getD 0 + 1 <;>
    simp [UserRow.standing, UserRow.recordFailure, Standing.step, hLimit]

/-- The standing once an answer has been given, whatever it means. -/
def applied (row : UserRow) (h : Option Happening) : Standing :=
  h.elim row.standing (row.standing.step Limit)

theorem happening_ok {a : Response} : q.happening (.ok a) = q.sets := by
  rw [Request.happening, if_neg (fun h => nomatch h.2)]
  rfl

theorem happening_error {e : Exception} (hPasses : ¬ FailedCheck q (.error e)) :
    q.happening (.error e) = none := by
  rw [Request.happening, if_neg hPasses]
  rfl

/-- A change that is not a verification is what its answer means. -/
theorem standing_changed (hOther : ∀ token a, q = .verifyAccount token → out ≠ .ok a)
    (h : Change q out row row') : row'.standing = applied row (q.happening out) := by
  cases h with
  | kept hPasses hUneventful =>
    cases out with
    | error e =>
      rw [happening_error hPasses]
      rfl
    | ok a =>
      rw [happening_ok]
      cases q with
      | verifyAccount token => exact absurd rfl (hOther token a rfl)
      | unlockAccountToken token =>
        obtain ⟨e, hErr⟩ := hUneventful.noUnlock token rfl
        cases hErr
      | _ => rfl
  | failed hFailed =>
    rw [Request.happening, if_pos hFailed]
    exact standing_recordFailure row
  | loggedIn _ _ _ hq hOut =>
    rw [hq, hOut, happening_ok]
    rfl
  | googleLoggedIn _ _ _ hq hOut =>
    rw [hq, hOut, happening_ok]
    rfl
  | renewed _ hq hOut =>
    rw [hq, hOut, happening_ok]
    rfl
  | assigned _ hq hOut =>
    rw [hq, hOut, happening_ok]
    rfl
  | verified hq hOut =>
    rw [hq, hOut, happening_ok]
    rfl
  | unlocked hq hOut =>
    rw [hq, hOut, happening_ok]
    rfl

theorem verifyAccount_ok {token : String} {a : Response} {w' : World}
    (hServe : serveAlone env (.verifyAccount token) w = (.ok a, w')) :
    ∃ row, w.db.byToken env token = some row ∧
      w.db.users.Updated w'.db.users row { row with isVerified := some true } := by
  obtain ⟨r, hRun, hOut⟩ := run_map_cases _ hServe
  have hEnds := updateByToken_cases sets_isVerified hRun
  generalize hState : w'.state = s at hEnds
  cases hEnds with
  | refused => cases hOut
  | updated hToken hUsers =>
    have hDb : w'.db.users = _ := congrArg (fun s => s.db.users) hState
    rw [hDb]
    exact ⟨_, hToken, hUsers⟩

/-- The standing that a request is to leave the account in. -/
def expected (env : Env) (w : World) (q : Request) (row : UserRow) : Standing :=
  if concerns env row.id (serveEvent (serveAlone env) q w) then
    applied row (q.happening (serveAlone env q w).1) else row.standing

theorem standing_verified {token : String} {a : Response}
    (hRow : w.db.users.byId row.id = some row) (hOut : (serveAlone env (.verifyAccount token) w).1 = .ok a) :
    ∃ row', (serveAlone env (.verifyAccount token) w).2.db.users.byId row.id = some row' ∧
      row'.standing = expected env w (.verifyAccount token) row := by
  obtain ⟨found, hToken, hUsers⟩ := verifyAccount_ok (Prod.ext hOut rfl)
  have hAccount : (Request.verifyAccount token).account env w.db = some found := hToken
  have hStored := Request.account_stored hAccount
  obtain ⟨⟨updatedAt, hFound⟩, hOthers⟩ := hUsers.byId hStored rfl
  rw [expected, hOut]
  by_cases hSame : row.id = found.id
  · rw [← hSame, hRow] at hStored
    cases hStored
    refine ⟨_, hFound, ?_⟩
    rw [if_pos ((concerns_stored hRow).mpr hAccount), happening_ok]
    rfl
  · refine ⟨row, (hOthers _ hSame).trans hRow, (if_neg fun hConcerns => ?_).symm⟩
    cases hAccount.symm.trans ((concerns_stored hRow).mp hConcerns)
    exact hSame rfl

theorem standing_event (env : Env) (q : Request) (w : World) (hRow : w.db.users.byId row.id = some row) :
    ∃ row', (serveAlone env q w).2.db.users.byId row.id = some row' ∧
      row'.standing = expected env w q row := by
  by_cases hVerifies : ∃ token a, q = .verifyAccount token ∧ (serveAlone env q w).1 = .ok a
  · obtain ⟨token, a, rfl, hOut⟩ := hVerifies
    exact standing_verified hRow hOut
  · obtain ⟨row', updatedAt, hStored, ⟨hAccount, hChange⟩ | ⟨hOther, rfl⟩⟩ :=
      (served_event env q w).stored hRow
    · refine ⟨_, hStored, ?_⟩
      have hStanding : row'.standing = applied row (q.happening (serveAlone env q w).1) :=
        standing_changed (fun token a hq hOut => hVerifies ⟨token, a, hq, hOut⟩) hChange
      rw [expected, if_pos ((concerns_stored hRow).mpr hAccount)]
      exact hStanding
    · refine ⟨_, hStored, ?_⟩
      rw [expected, if_neg fun hConcerns => hOther ((concerns_stored hRow).mp hConcerns)]
      rfl

theorem standing_created {out : Outcome} (h : Created env q out row) :
    ∃ s, q.opens = some s ∧ row.standing = s := by
  cases h with
  | registered id password now hq _ =>
    subst hq
    exact ⟨_, rfl, rfl⟩
  | google id password now hq _ =>
    subst hq
    exact ⟨_, rfl, rfl⟩
  | googleSession id password accessToken refreshToken now now' updatedAt hq _ =>
    subst hq
    exact ⟨_, rfl, rfl⟩

theorem happenings_cons (ev : Served.Event) (id : String) : happenings env id (ev :: past) =
    (if concerns env id ev then (ev.request.happening ev.outcome).toList else []) ++
      happenings env id past := by
  rw [happenings, List.filterMap_cons]
  split <;> rename_i hHappening <;> split at hHappening <;> simp_all [happenings]

theorem Opened.later {id : String} (ev : Served.Event) (h : Opened start past id s) :
    Opened start (ev :: past) id s := by
  cases h with
  | stored hRow => exact .stored hRow
  | during hEv hBefore hAfter hOpens => exact .during (List.mem_cons_of_mem _ hEv) hBefore hAfter hOpens

theorem expected_after (hReplay : row.standing = s.after Limit (happenings env row.id past)) :
    expected env w q row =
      s.after Limit (happenings env row.id (serveEvent (serveAlone env) q w :: past)) := by
  rw [happenings_cons, Standing.after_append, ← hReplay, expected]
  split
  · rw [applied]
    change (q.happening (serveAlone env q w).1).elim _ _ =
      row.standing.after Limit (q.happening (serveAlone env q w).1).toList
    cases q.happening (serveAlone env q w).1 <;> rfl
  · rfl

/-- The invariant of a run: each account's standing is its replay, and what is not there yet has
nothing to replay. -/
structure Replayed (env : Env) (start : World) (past : List Served.Event) (w : World) : Prop where
  stored : ∀ id row, w.db.users.byId id = some row → ∃ s, Opened start past id s ∧
    row.standing = s.after Limit (happenings env id past)
  absent : ∀ id, w.db.users.byId id = none → happenings env id past = []

theorem replayed_step (env : Env) (q : Request) (h : Replayed env start past w) :
    Replayed env start (serveEvent (serveAlone env) q w :: past) (serveAlone env q w).2 := by
  refine ⟨fun id row hRow => ?_, fun id hNone => ?_⟩
  · obtain rfl := (UserTable.byId_eq_some.mp hRow).2
    cases hBefore : w.db.users.byId row.id with
    | some old =>
      have hId : old.id = row.id := (UserTable.byId_eq_some.mp hBefore).2
      obtain ⟨s, hOpened, hReplay⟩ := h.stored row.id old hBefore
      rw [← hId] at hBefore hReplay hRow
      obtain ⟨row', hAfter, hStanding⟩ := standing_event env q w hBefore
      cases hRow.symm.trans hAfter
      refine ⟨s, hOpened.later _, ?_⟩
      rw [hStanding, expected_after hReplay, hId]
    | none =>
      obtain ⟨_, hCreated, _⟩ := (served_event env q w).added hRow hBefore
      obtain ⟨s, hOpens, hStanding⟩ := standing_created hCreated
      refine ⟨s, .during List.mem_cons_self hBefore ?_ hOpens, ?_⟩
      · exact fun h => nomatch hRow.symm.trans h
      · rw [happenings_cons, if_neg (not_concerns_new hBefore), h.absent _ hBefore]
        exact hStanding
  · have hBefore : w.db.users.byId id = none := by
      cases hStored : w.db.users.byId id with
      | none => rfl
      | some old =>
        obtain rfl := (UserTable.byId_eq_some.mp hStored).2
        obtain ⟨row', hAfter, _⟩ := standing_event env q w hStored
        cases hNone.symm.trans hAfter
    rw [happenings_cons, if_neg (not_concerns_new hBefore), h.absent _ hBefore]
    rfl

theorem replayed_run (env : Env) (start : World) (rs : List Request) :
    Replayed env start (history (serveAlone env) start rs) (reach (serveAlone env) start rs) := by
  refine history_invariant (J := Replayed env start) ⟨fun id row hRow => ?_, fun _ _ => rfl⟩
    (fun _ _ q h => replayed_step env q h) rs
  exact ⟨row.standing, .stored hRow, rfl⟩

end Statements

section Login
variable {w : World} {loginModel : LoginModel} {row : UserRow} {r : Except Exception JWTTokens} {s : State}

/-- What a login tells of the standing of the account. -/
structure Tells (standing : Standing) (r : Except Exception JWTTokens) : Prop where
  notVerified : r = .error .accountNotVerified ↔ standing.verified = false
  blocked : r = .error .accountBlocked ↔ standing.verified = true ∧ standing.blocked = true

theorem OtpHandled.no_status {e : Exception} (h : OtpHandled loginModel row w (.error e) s) :
    e ≠ .accountNotVerified ∧ e ≠ .accountBlocked := by
  cases h with
  | unsent _ _ _ hSent =>
    cases hSent
    exact ⟨nofun, nofun⟩
  | required => exact ⟨nofun, nofun⟩
  | unchecked _ _ _ hChecked => cases hChecked <;> exact ⟨nofun, nofun⟩
  | wrong => exact ⟨nofun, nofun⟩

theorem tells_open (hOpen : row.Open) (hNo : r ≠ .error .accountNotVerified ∧ r ≠ .error .accountBlocked) :
    Tells row.standing r := by
  constructor
  · exact iff_of_false hNo.1 (by simp [UserRow.standing, hOpen.1])
  · exact iff_of_false hNo.2 (by simp [UserRow.standing, hOpen.2])

theorem tells_closed {e : Exception} (h : StatusChecked row (.error e)) :
    Tells row.standing (.error e) := by
  cases h with
  | notVerified hVerified => constructor <;> simp [UserRow.standing, hVerified]
  | blocked hVerified hBlocked => constructor <;> simp [UserRow.standing, hVerified, hBlocked]

theorem loginUser_tells (hCalm : w.Calm) (hEmail : w.db.users.byEmail loginModel.email = some row)
    (hCompare : env.compare loginModel.password row.password = true)
    (h : LoginEnds env loginModel w r s) : Tells row.standing r := by
  cases h with
  | rejected hRejected =>
    cases hRejected with
    | fails hFails => exact absurd hCalm hFails
    | unknown hNone => cases hNone.symm.trans hEmail
    | wrong hFound hWrong =>
      cases hFound.symm.trans hEmail
      cases (hWrong hCalm).symm.trans hCompare
  | closed hFound _ hStatus =>
    cases hFound.symm.trans hEmail
    exact tells_closed hStatus
  | held hFound _ hOpen hHandled =>
    cases hFound.symm.trans hEmail
    obtain ⟨hVerified, hBlocked⟩ := OtpHandled.no_status hHandled
    exact tells_open hOpen ⟨fun h => hVerified (Except.error.inj h), fun h => hBlocked (Except.error.inj h)⟩
  | session hFound _ hOpen _ _ hSession =>
    cases hFound.symm.trans hEmail
    cases hSession <;> exact tells_open hOpen ⟨nofun, nofun⟩

theorem rest_reach (env : Env) (start : World) (rs : List Request) :
    start.Rest (reach (serveAlone env) start rs) := by
  induction rs with
  | nil => exact World.Rest.refl start
  | cons q rs ih => exact ih.trans (rest_run rfl)

end Login

end Replay

open Replay

namespace Sample

/-- Registered, verified, and then three wrong passwords. -/
def threeFailures : List Request :=
  [.loginUser wrongLogin, .loginUser wrongLogin, .loginUser wrongLogin, .verifyAccount verifyToken,
    .createUser registration]

end Sample

/-- In every run, the flags and the count of an account are what its opening and the answers to
the requests about it come to. -/
theorem standing_replayed (env : Env) (start : World) (rs : List Request) {id : String} {row : UserRow}
    (hRow : (reach (serveAlone env) start rs).db.users.byId id = some row) :
    ∃ s, Opened start (history (serveAlone env) start rs) id s ∧
      row.standing = s.after Limit (happenings env id (history (serveAlone env) start rs)) :=
  (replayed_run env start rs).stored id row hRow

theorem standing_replayed_sample : ∃ (row : UserRow) (s : Standing),
    Opened (Sample.world Sample.noUsers)
      (history (serveAlone Sample.tokenEnv) (Sample.world Sample.noUsers) Sample.threeFailures) "u3" s ∧
    row.standing = s.after Limit (happenings Sample.tokenEnv "u3"
      (history (serveAlone Sample.tokenEnv) (Sample.world Sample.noUsers) Sample.threeFailures)) := by
  have hStored : ((reach (serveAlone Sample.tokenEnv) (Sample.world Sample.noUsers)
      Sample.threeFailures).db.users.byId "u3").isSome := by decide
  obtain ⟨row, hRow⟩ := Option.isSome_iff_exists.mp hStored
  exact ⟨row, standing_replayed _ _ _ hRow⟩

/-- What a login is told in any run follows from the past: that the account has never been
verified, or that a failed check has locked it out and nothing has unlocked it since. -/
theorem login_answered (env : Env) (start : World) (rs : List Request) (loginModel : LoginModel)
    {row : UserRow} (hCalm : (reach (serveAlone env) start rs).Calm)
    (hRow : (reach (serveAlone env) start rs).db.users.byEmail loginModel.email = some row)
    (hCompare : env.compare loginModel.password row.password = true) :
    let past := happenings env row.id (history (serveAlone env) start rs)
    let out := (run (alone env) (AuthService.loginUser loginModel) (reach (serveAlone env) start rs)).1
    ∃ s, Opened start (history (serveAlone env) start rs) row.id s ∧
      (out = .error .accountNotVerified ↔ s.verified = false ∧ .verified ∉ past) ∧
      (out = .error .accountBlocked ↔ (s.verified = true ∨ .verified ∈ past) ∧
        ((s.blocked = true ∧ .unlocked ∉ past) ∨ Standing.LockedOut Limit s past)) := by
  intro past out
  obtain ⟨s, hOpened, hReplay⟩ := (replayed_run env start rs).stored row.id row (byId_of_byEmail hRow)
  have hTells : Tells row.standing out := loginUser_tells hCalm hRow hCompare (loginUser_cases rfl)
  refine ⟨s, hOpened, ?_, ?_⟩
  · rw [hTells.notVerified, hReplay, ← Bool.not_eq_true, Standing.after_verified, not_or, Bool.not_eq_true]
  · rw [hTells.blocked, hReplay, Standing.after_verified, Standing.after_blocked]

theorem login_answered_sample : ∃ (id : String) (s : Standing),
    Opened (Sample.world Sample.noUsers)
      (history (serveAlone Sample.tokenEnv) (Sample.world Sample.noUsers) Sample.threeFailures) id s ∧
    ((run (alone Sample.tokenEnv) (AuthService.loginUser Sample.rightLogin)
        (reach (serveAlone Sample.tokenEnv) (Sample.world Sample.noUsers) Sample.threeFailures)).1 =
        .error .accountNotVerified ↔
      s.verified = false ∧ .verified ∉ happenings Sample.tokenEnv id
        (history (serveAlone Sample.tokenEnv) (Sample.world Sample.noUsers) Sample.threeFailures)) := by
  have hPassword : ((reach (serveAlone Sample.tokenEnv) (Sample.world Sample.noUsers)
      Sample.threeFailures).db.users.byEmail "ana@x.io").map (·.password) = some "hash:pw" := by decide
  obtain ⟨row, hRow, hHash⟩ := Option.map_eq_some_iff.mp hPassword
  have hCalm : (Sample.world Sample.noUsers).Calm := fun _ => rfl
  obtain ⟨s, hOpened, hTold, _⟩ := login_answered Sample.tokenEnv (Sample.world Sample.noUsers)
    Sample.threeFailures Sample.rightLogin (hCalm.rest (rest_reach _ _ _)) hRow
    (by rw [hHash]; decide)
  exact ⟨row.id, s, hOpened, hTold⟩

end Manejaplus
