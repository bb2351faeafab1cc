import Manejaplus.Sequential.AccountTokens

/-! # What serving one request does to the accounts -/
namespace Manejaplus
open Effect Prog
set_option autoImplicit false

variable {env : Env} {w w' : World}

namespace Request

def account (env : Env) (db : Database) : Request → Option UserRow
  | .createUser dto => db.users.byEmail dto.email
  | .loginUser loginModel => db.users.byEmail loginModel.email
  | .unlockAccount loginModel => db.users.byEmail loginModel.email
  | .googleLoginUser (some profile) => db.users.byEmail profile.email
  | .googleLoginUser none => none
  | .refreshToken loginModel => db.users.byEmail loginModel.email
  | .assignRole assignRoleModel =>
    (db.users.findOne env.uuid { id := some (.val assignRoleModel.userId) }).getD none
  | .verifyAccount token => db.byToken env token
  | .unlockAccountToken token => db.byToken env token

def checksPassword : Request → Bool
  | .loginUser _ => true
  | .unlockAccount _ => true
  | _ => false

end Request

def FailedCheck (q : Request) (out : Outcome) : Prop :=
  q.checksPassword = true ∧ out = .error AuthService.invalidCredentials

instance (q : Request) (out : Outcome) : Decidable (FailedCheck q out) :=
  inferInstanceAs (Decidable (_ ∧ _))

/-- The responses of a request that issued or renewed session tokens. -/
def Response.grantsSession : Response → Bool
  | .tokens _ => true
  | .done => true
  | _ => false

structure Uneventful (q : Request) (out : Outcome) : Prop where
  noSession : ∀ a, out = .ok a → a.grantsSession = false
  noUnlock : ∀ token, q = .unlockAccountToken token → ∃ e, out = .error e

/-- What a request can do to the row of the account it is about. -/
inductive Change (q : Request) (out : Outcome) (row : UserRow) : UserRow → Prop
  | kept : ¬ FailedCheck q out → Uneventful q out → Change q out row row
  | failed : FailedCheck q out → Change q out row row.recordFailure
  | loggedIn {loginModel : LoginModel} {tokens : JWTTokens} (accessToken refreshToken : String)
      (now : Time) : q = .loginUser loginModel → out = .ok (.tokens tokens) → row.Open →
      Change q out row (row.session accessToken refreshToken now)
  | googleLoggedIn {profile : GoogleProfile} {tokens : JWTTokens}
      (accessToken refreshToken : String) (now : Time) : q = .googleLoginUser (some profile) →
      out = .ok (.tokens tokens) → Change q out row (row.session accessToken refreshToken now)
  | renewed {loginModel : LoginModel} {stored : String} (accessToken : String) :
      q = .refreshToken loginModel → out = .ok .done → row.refreshToken = some stored →
      stored ≠ "" → Change q out row { row with accessToken := some accessToken }
  | assigned {assignRoleModel : AssignRoleModel} {user : UserModel} (roles : List String) :
      q = .assignRole assignRoleModel → out = .ok (.user user) →
      Change q out row { row with roles }
  | verified {token : String} {info : AccountInfo} : q = .verifyAccount token →
      out = .ok (.account info) → Change q out row { row with isVerified := some true }
  | unlocked {token : String} {info : AccountInfo} : q = .unlockAccountToken token →
      out = .ok (.account info) → Change q out row { row with isBlocked := some false }

inductive Created (env : Env) (q : Request) (out : Outcome) : UserRow → Prop
  | registered {dto : CreateUserDto} {user : UserModel} (id password : String) (now : Time) :
      q = .createUser dto → out = .ok (.user user) → Created env q out (dto.row id password now)
  | google {profile : GoogleProfile} {e : Exception} (id password : String) (now : Time) :
      q = .googleLoginUser (some profile) → out = .error e →
      Created env q out (profile.row env.cases id password now)
  | googleSession {profile : GoogleProfile} {tokens : JWTTokens}
      (id password accessToken refreshToken : String) (now now' updatedAt : Time) :
      q = .googleLoginUser (some profile) → out = .ok (.tokens tokens) →
      Created env q out { (profile.row env.cases id password now).session
        accessToken refreshToken now' with updatedAt }

inductive Served (env : Env) (w : World) (q : Request) (out : Outcome) (s : State) : Prop
  | same : s.db.users = w.db.users → Uneventful q out →
      (FailedCheck q out → q.account env w.db = none) → Served env w q out s
  | updated {row row' : UserRow} : q.account env w.db = some row → Change q out row row' →
      row'.id = row.id → w.db.users.Updated s.db.users row row' → Served env w q out s
  | created {row : UserRow} : q.account env w.db = none → Created env q out row →
      s.db.users.rows = w.db.users.rows ++ [row] → Served env w q out s

theorem uneventful_error (q : Request) (e : Exception) : Uneventful q (.error e) :=
  ⟨fun _ h => (nomatch h), fun _ _ => ⟨e, rfl⟩⟩

theorem served_error {q : Request} {e : Exception} {s : State} (hUsers : s.db.users = w.db.users)
    (hNe : e ≠ AuthService.invalidCredentials) : Served env w q (.error e) s :=
  .same hUsers (uneventful_error q e) fun h => absurd (Except.error.inj h.2) hNe

theorem served_refused {q : Request} {e : Exception} {s : State} (hUsers : s.db.users = w.db.users)
    (h : q.checksPassword = false) : Served env w q (.error e) s :=
  .same hUsers (uneventful_error q e) fun hFailed => by simp [FailedCheck, h] at hFailed

theorem Credentials.served {q : Request} {loginModel : LoginModel} {e : Exception} {s : State}
    (hChecks : q.checksPassword = true)
    (hAccount : q.account env w.db = w.db.users.byEmail loginModel.email)
    (h : Credentials env loginModel w (.error e) s) : Served env w q (.error e) s := by
  cases h with
  | fails _ => exact served_error rfl nofun
  | unknown hEmail => exact .same rfl (uneventful_error q _) fun _ => hAccount.trans hEmail
  | wrong hEmail _ hUsers =>
    exact .updated (hAccount.trans hEmail) (.failed ⟨hChecks, rfl⟩) rfl hUsers

theorem OtpHandled.error_ne {loginModel : LoginModel} {row : UserRow} {e : Exception} {s : State}
    (h : OtpHandled loginModel row w (.error e) s) : e ≠ AuthService.invalidCredentials := by
  cases h with
  | unsent _ _ _ hSent =>
    cases hSent
    exact nofun
  | required => exact nofun
  | unchecked _ _ _ hChecked => cases hChecked <;> exact nofun
  | wrong => exact nofun

theorem served_loginUser {loginModel : LoginModel} {r : Except Exception JWTTokens} {s : State}
    (h : LoginEnds env loginModel w r s) :
    Served env w (.loginUser loginModel) (r.map .tokens) s := by
  cases h with
  | rejected hRejected => exact hRejected.served rfl rfl
  | closed _ _ hStatus =>
    apply served_error rfl
    cases hStatus <;> exact nofun
  | held _ _ _ hHandled =>
    exact served_error hHandled.keeps.1 hHandled.error_ne
  | @session row w₁ _ _ hEmail _ hOpen hHandled _ hSession =>
    have hUsers₁ : w₁.db.users = w.db.users := hHandled.keeps.1
    cases hSession with
    | fails new _ => exact served_error hUsers₁ nofun
    | stored c₁ c₂ access refresh now salt₁ salt₂ users _ _ _ _ _ hUsers =>
      exact .updated hEmail (.loggedIn _ _ now rfl rfl hOpen) rfl (hUsers₁ ▸ hUsers)

theorem served_unlockAccount {loginModel : LoginModel} {r : Except Exception String} {s : State}
    (h : LinkEnds env loginModel w r s) :
    Served env w (.unlockAccount loginModel) (r.map .callbackUrl) s := by
  cases h with
  | rejected hRejected => exact hRejected.served rfl rfl
  | refused _ _ hNe => exact served_error rfl hNe
  | linked c payload => exact .same rfl ⟨fun _ h => by cases h; rfl, nofun⟩ fun h => nomatch h.2

theorem served_createUser {dto : CreateUserDto} {r : Except Exception UserModel} {s : State}
    (h : RegistrationEnds env dto w r s) : Served env w (.createUser dto) (r.map .user) s := by
  cases h with
  | refused => exact served_refused rfl rfl
  | undone c payload => exact served_refused rfl rfl
  | registered c payload hEmail hUsers =>
    exact .created hEmail (.registered _ _ _ rfl rfl) hUsers

theorem served_googleLoginUser {profile : GoogleProfile} {r : Except Exception JWTTokens}
    {s : State} (h : GoogleEnds env profile w r s) :
    Served env w (.googleLoginUser (some profile)) (r.map .tokens) s := by
  cases h with
  | refused => exact served_refused rfl rfl
  | @known row w₁ _ _ hEmail hState _ hSession =>
    have hUsers₁ : w₁.db.users = w.db.users := congrArg Database.users (World.state_db hState)
    cases hSession with
    | fails new _ => exact served_refused hUsers₁ rfl
    | stored c₁ c₂ access refresh now salt₁ salt₂ users _ _ _ _ _ hUsers =>
      exact .updated hEmail (.googleLoggedIn _ _ now rfl rfl) rfl (hUsers₁ ▸ hUsers)
  | @created id password now users w₁ _ _ hEmail hUsers hState _ hSession =>
    have hUsers₁ : w₁.db.users = users := congrArg (fun s => s.db.users) hState
    cases hSession with
    | fails new _ =>
      refine .created hEmail (.google id password now rfl rfl) ?_
      exact (congrArg UserTable.rows hUsers₁).trans hUsers
    | stored c₁ c₂ access refresh now' salt₁ salt₂ users' _ _ _ _ _ hUpdated =>
      obtain ⟨savedAt, hRows⟩ := hUpdated
      obtain ⟨updatedAt, hTouch⟩ := UserTable.touch_eq savedAt
        (profile.row env.cases id password now)
        ((profile.row env.cases id password now).session (env.sign access) (env.sign refresh) now')
      have hNodup := users.nodupId
      rw [hUsers₁, hTouch, hUsers] at hRows
      rw [hUsers] at hNodup
      rw [UserTable.replace_append hNodup (by rfl)] at hRows
      exact .created hEmail (.googleSession id password _ _ now now' updatedAt rfl rfl) hRows

theorem served_refreshToken {loginModel : LoginModel} {r : Except Exception Unit} {s : State}
    (h : RenewalEnds env loginModel w r s) :
    Served env w (.refreshToken loginModel) (r.map fun _ => .done) s := by
  cases h with
  | refused => exact served_refused rfl rfl
  | renewed hEmail hStored hNe hUsers =>
    exact .updated hEmail (.renewed _ rfl rfl hStored hNe) rfl hUsers

theorem served_assignRole {assignRoleModel : AssignRoleModel} {r : Except Exception UserModel}
    {s : State} (h : AssignmentEnds env assignRoleModel w r s) :
    Served env w (.assignRole assignRoleModel) (r.map .user) s := by
  cases h with
  | refused => exact served_refused rfl rfl
  | assigned hFound _ _ hUsers =>
    exact .updated (by rw [Request.account, hFound]; rfl) (.assigned _ rfl rfl) rfl hUsers

theorem served_updateByToken {q : Request} {flag : UserRow → UserRow} {token : String}
    {r : Except Exception AccountInfo} {s : State} (hChecks : q.checksPassword = false)
    (hAccount : q.account env w.db = w.db.byToken env token)
    (hChange : ∀ info row, Change q (.ok (.account info)) row (flag row))
    (hId : ∀ row, (flag row).id = row.id) (h : TokenEnds env flag token w r s) :
    Served env w q (r.map .account) s := by
  cases h with
  | refused => exact served_refused rfl hChecks
  | updated hToken hUsers => exact .updated (hAccount.trans hToken) (hChange _ _) (hId _) hUsers

/-- The inversion of one request: it changes one account at most, in one of the listed ways. -/
theorem serveAlone_cases {q : Request} {out : Outcome} (hServe : serveAlone env q w = (out, w')) :
    Served env w q out w'.state := by
  cases q with
  | createUser dto =>
    obtain ⟨r, hRun, rfl⟩ := run_map_cases _ hServe
    exact served_createUser (createUser_cases hRun)
  | loginUser loginModel =>
    obtain ⟨r, hRun, rfl⟩ := run_map_cases _ hServe
    exact served_loginUser (loginUser_cases hRun)
  | unlockAccount loginModel =>
    obtain ⟨r, hRun, rfl⟩ := run_map_cases _ hServe
    exact served_unlockAccount (unlockAccount_cases hRun)
  | googleLoginUser user =>
    obtain ⟨r, hRun, rfl⟩ := run_map_cases _ hServe
    cases user with
    | none =>
      cases hRun
      exact served_refused rfl rfl
    | some profile => exact served_googleLoginUser (googleLoginUser_cases hRun)
  | refreshToken loginModel =>
    obtain ⟨r, hRun, rfl⟩ := run_map_cases _ hServe
    exact served_refreshToken (refreshToken_cases hRun)
  | assignRole assignRoleModel =>
    obtain ⟨r, hRun, rfl⟩ := run_map_cases _ hServe
    exact served_assignRole (assignRole_cases hRun)
  | verifyAccount token =>
    obtain ⟨r, hRun, rfl⟩ := run_map_cases _ hServe
    exact served_updateByToken rfl rfl (fun _ _ => .verified rfl rfl) (fun _ => rfl)
      (updateByToken_cases sets_isVerified hRun)
  | unlockAccountToken token =>
    obtain ⟨r, hRun, rfl⟩ := run_map_cases _ hServe
    exact served_updateByToken rfl rfl (fun _ _ => .unlocked rfl rfl) (fun _ => rfl)
      (updateByToken_cases sets_isBlocked hRun)

section Rows

theorem UserTable.mem_replace {rows : List UserRow} {row r : UserRow} (hNe : r.id ≠ row.id) :
    r ∈ replace row rows ↔ r ∈ rows := by
  rw [replace, List.mem_map]
  constructor
  · rintro ⟨old, hOld, hr⟩
    split at hr
    · exact absurd (congrArg UserRow.id hr).symm hNe
    · exact hr ▸ hOld
  · intro hr
    exact ⟨r, hr, if_neg hNe⟩

theorem UserTable.Updated.byId {t t' : UserTable} {row row' : UserRow}
    (h : t.Updated t' row row') (hRow : t.byId row.id = some row) (hId : row'.id = row.id) :
    (∃ updatedAt, t'.byId row.id = some { row' with updatedAt }) ∧
      ∀ id, id ≠ row.id → t'.byId id = t.byId id := by
  obtain ⟨now, hRows⟩ := h
  have hTouched := UserTable.touch_id now row row' hId
  constructor
  · obtain ⟨updatedAt, hTouch⟩ := UserTable.touch_eq now row row'
    refine ⟨updatedAt, ?_⟩
    rw [← hTouch]
    refine UserTable.byId_eq_some.mpr ⟨?_, hTouched⟩
    rw [hRows]
    exact List.mem_map.mpr ⟨row, (UserTable.byId_eq_some.mp hRow).1, if_pos hTouched.symm⟩
  · intro id hNe
    ext r
    rw [UserTable.byId_eq_some, UserTable.byId_eq_some, hRows]
    refine and_congr_left fun hr => UserTable.mem_replace ?_
    rw [hr, hTouched]
    exact hNe

theorem byId_append_of_ne {t t' : UserTable} {row : UserRow} (hRows : t'.rows = t.rows ++ [row])
    {id : String} (hNe : id ≠ row.id) : t'.byId id = t.byId id := by
  rw [UserTable.byId, hRows, List.find?_append, UserTable.byId]
  simp [hNe.symm]

theorem Request.account_stored {q : Request} {db : Database} {row : UserRow}
    (h : q.account env db = some row) : db.users.byId row.id = some row := by
  refine UserTable.byId_eq_some.mpr ⟨?_, rfl⟩
  have hByEmail : ∀ {email}, db.users.byEmail email = some row → row ∈ db.users.rows :=
    fun h => (UserTable.byEmail_eq_some.mp h).1
  have hByToken : ∀ {token}, db.byToken env token = some row → row ∈ db.users.rows := by
    intro token h
    unfold Database.byToken at h
    split at h
    · split at h
      · cases h
      · exact findOne_mem (by simpa [Option.getD_eq_iff] using h)
    · cases h
  cases q with
  | createUser dto => exact hByEmail h
  | loginUser loginModel => exact hByEmail h
  | unlockAccount loginModel => exact hByEmail h
  | googleLoginUser user =>
    cases user with
    | none => cases h
    | some profile => exact hByEmail h
  | refreshToken loginModel => exact hByEmail h
  | assignRole assignRoleModel => exact findOne_mem (by simpa [account, Option.getD_eq_iff] using h)
  | verifyAccount token => exact hByToken h
  | unlockAccountToken token => exact hByToken h

theorem Change.id {q : Request} {out : Outcome} {row row' : UserRow} (h : Change q out row row') :
    row'.id = row.id ∧ row'.email = row.email := by
  cases h <;> exact ⟨rfl, rfl⟩

variable {q : Request} {out : Outcome} {s : State} {row : UserRow}

theorem Served.stored (h : Served env w q out s) (hRow : w.db.users.byId row.id = some row) :
    ∃ row' updatedAt, s.db.users.byId row.id = some { row' with updatedAt } ∧
      ((q.account env w.db = some row ∧ Change q out row row') ∨
        (q.account env w.db ≠ some row ∧ row' = row)) := by
  cases h with
  | same hUsers hUneventful hFailed =>
    refine ⟨row, row.updatedAt, by rw [hUsers, hRow], ?_⟩
    by_cases hAccount : q.account env w.db = some row
    · exact .inl ⟨hAccount, .kept (fun h => nomatch (hFailed h).symm.trans hAccount) hUneventful⟩
    · exact .inr ⟨hAccount, rfl⟩
  | @updated changed row' hAccount hChange hId hUsers =>
    obtain ⟨hChanged, hOthers⟩ := hUsers.byId (Request.account_stored hAccount) hId
    by_cases hSame : row.id = changed.id
    · have hStored := Request.account_stored hAccount
      rw [← hSame, hRow] at hStored
      cases hStored
      obtain ⟨updatedAt, hChanged⟩ := hChanged
      exact ⟨row', updatedAt, hChanged, .inl ⟨hAccount, hChange⟩⟩
    · refine ⟨row, row.updatedAt, by rw [hOthers _ hSame, hRow], .inr ⟨?_, rfl⟩⟩
      intro hRowAccount
      rw [hAccount] at hRowAccount
      cases hRowAccount
      exact hSame rfl
  | created hAccount _ hRows =>
    refine ⟨row, row.updatedAt, ?_, .inr ⟨by simp [hAccount], rfl⟩⟩
    refine UserTable.byId_eq_some.mpr ⟨?_, rfl⟩
    rw [hRows]
    exact List.mem_append_left _ (UserTable.byId_eq_some.mp hRow).1

theorem Served.stored_eq {row' : UserRow} (h : Served env w q out s)
    (hRow : w.db.users.byId row.id = some row) (hAfter : s.db.users.byId row.id = some row') :
    ∃ changed updatedAt, row' = { changed with updatedAt } ∧
      ((q.account env w.db = some row ∧ Change q out row changed) ∨
        (q.account env w.db ≠ some row ∧ changed = row)) := by
  obtain ⟨changed, updatedAt, hStored, hChange⟩ := h.stored hRow
  exact ⟨changed, updatedAt, Option.some.inj (hAfter.symm.trans hStored), hChange⟩

theorem byEmail_new {t t' : UserTable} {row : UserRow} (hRows : t'.rows = t.rows ++ [row]) :
    t.byEmail row.email = none := by
  have hNodup := t'.nodupEmail
  rw [hRows, List.map_append, List.nodup_append] at hNodup
  cases hFound : t.byEmail row.email with
  | none => rfl
  | some other =>
    obtain ⟨hMem, hSame⟩ := UserTable.byEmail_eq_some.mp hFound
    exact absurd hSame (hNodup.2.2 _ (List.mem_map_of_mem hMem) row.email (by simp))

theorem Served.added (h : Served env w q out s) (hRow : s.db.users.byId row.id = some row)
    (hNew : w.db.users.byId row.id = none) :
    q.account env w.db = none ∧ Created env q out row ∧ w.db.users.byEmail row.email = none := by
  cases h with
  | same hUsers =>
    rw [hUsers, hNew] at hRow
    cases hRow
  | @updated changed row' hAccount hChange hId hUsers =>
    have hStored := Request.account_stored hAccount
    by_cases hSame : row.id = changed.id
    · rw [hSame, hStored] at hNew
      cases hNew
    · rw [(hUsers.byId hStored hId).2 _ hSame, hNew] at hRow
      cases hRow
  | @created added hAccount hCreated hRows =>
    by_cases hSame : row.id = added.id
    · have hAdded := byId_append hRows
      rw [← hSame, hRow] at hAdded
      cases hAdded
      exact ⟨hAccount, hCreated, byEmail_new hRows⟩
    · rw [byId_append_of_ne hRows hSame, hNew] at hRow
      cases hRow

end Rows

abbrev Served.Event := Effect.Event World Request Outcome

theorem served_event (env : Env) (q : Request) (w : World) :
    Served env w q (serveEvent (serveAlone env) q w).outcome
      (serveEvent (serveAlone env) q w).after.state := serveAlone_cases rfl

section Concerns
variable {env : Env} {w : World} {id : String} {q : Request}

/-- The request is about this account. -/
def concerns (env : Env) (id : String) (ev : Served.Event) : Bool :=
  (ev.request.account env ev.before.db).map (·.id) == some id

theorem concerns_iff :
    concerns env id (serveEvent (serveAlone env) q w) = true ↔
      ∃ row, q.account env w.db = some row ∧ row.id = id := by
  simp [concerns, serveEvent, Option.map_eq_some_iff]

theorem concerns_stored {row : UserRow} (hRow : w.db.users.byId row.id = some row) :
    concerns env row.id (serveEvent (serveAlone env) q w) = true ↔
      q.account env w.db = some row := by
  rw [concerns_iff]
  constructor
  · rintro ⟨other, hAccount, hSame⟩
    have hStored := Request.account_stored hAccount
    rw [hSame, hRow] at hStored
    cases hStored
    exact hAccount
  · exact fun hAccount => ⟨row, hAccount, rfl⟩

theorem not_concerns_new (hNew : w.db.users.byId id = none) :
    ¬ concerns env id (serveEvent (serveAlone env) q w) = true := by
  rw [concerns_iff]
  rintro ⟨row, hAccount, rfl⟩
  rw [Request.account_stored hAccount] at hNew
  cases hNew

end Concerns

end Manejaplus
