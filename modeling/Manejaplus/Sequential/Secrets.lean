import Manejaplus.Sequential.ServicesAlongside
import Manejaplus.Sequential.Success

/-! # What a request tells about stored secrets

The links that are handed out carry signed tokens, and everyone can read what a
signed token says.
-/
namespace Manejaplus
open Effect Prog
set_option autoImplicit false

/-- The passwords of a request that are checked against stored hashes. -/
def Request.Supplies : Request → String → Prop
  | .loginUser loginModel, password => password = loginModel.password
  | .unlockAccount loginModel, password => password = loginModel.password
  | _, _ => False

namespace Secrets
variable {env : Env} {q : Request} {w w' : World} {db' : Database}

def SameVerdict (env : Env) (q : Request) : SameHash := fun hash hash' =>
  ∀ password, q.Supplies password → env.compare password hash = env.compare password hash'

/-- Databases that differ in stored secrets only. -/
structure Differ (env : Env) (q : Request) (db db' : Database) : Prop where
  users : List.Forall₂ (fun row row' => SameVerdict env q row.password row'.password ∧
    row.blank = row'.blank) db.users.rows db'.users.rows
  otps : db.otps = db'.otps
  roles : db.roles = db'.roles

/-- A secret of the row stands in the object, under its own name. -/
def Holds (user : UserObject) (row : UserRow) : Prop :=
  user.password = .val row.password ∨
    ∃ secret, (row.otp = some secret ∧ user.otp = .val secret) ∨
      (row.accessToken = some secret ∧ user.accessToken = .val secret) ∨
      (row.refreshToken = some secret ∧ user.refreshToken = .val secret)

def sent (env : Env) (q : Request) (w : World) : List SentMail :=
  ((serveAlone env q w).2.outside.mails.drop w.outside.mails.length).map Mail.render

/-- The link ends in a token that the request has signed for this user object. -/
def Linked (env : Env) (q : Request) (w : World) (url : String) (user : UserObject) : Prop :=
  ∃ t ∈ (serveAlone env q w).2.outside.issued.drop w.outside.issued.length, ∃ path,
    url = path ++ t.token ∧ t.payload.sub = .val user

/-- The user objects that the answer and the mails of a request make public. -/
inductive Publishes (env : Env) (q : Request) (w : World) : UserObject → Prop
  | clear {user : UserObject} : (serveAlone env q w).1 = .ok (.user user) → Publishes env q w user
  | link {url : String} {user : UserObject} : (serveAlone env q w).1 = .ok (.callbackUrl url) →
      Linked env q w url user → Publishes env q w user
  | mailed {mail : SentMail} {url : String} {user : UserObject} : mail ∈ sent env q w →
      mail.callbackUrl = some url → Linked env q w url user → Publishes env q w user

def Discreet (env : Env) (q : Request) (w : World) : Prop :=
  ∀ user, Publishes env q w user → ∀ row ∈ (serveAlone env q w).2.db.users.rows, ¬ Holds user row

/-- Both runs look the same from outside, and neither gives a stored secret away. -/
structure Kept (env : Env) (q : Request) (w w' : World) : Prop where
  answer : (serveAlone env q w).1 = (serveAlone env q w').1
  mails : sent env q w = sent env q w'
  discreet : Discreet env q w
  discreet' : Discreet env q w'

/-- The requests that hand out a user with all its columns. -/
def HandsOut (env : Env) (w : World) : Request → Prop
  | .createUser dto => Registers dto w
  | .unlockAccount loginModel => LinksUnlock env loginModel w
  | .assignRole assignRoleModel => AssignsRole env assignRoleModel w
  | _ => False

/-- A renewal is refused where no refresh token is stored, and nothing else stands in its way. -/
def TellsApart (w : World) (db' : Database) : Request → Prop
  | .refreshToken loginModel => Quiet 4 w.outside ∧ ∃ row row',
      w.db.users.byEmail loginModel.email = some row ∧
      db'.users.byEmail loginModel.email = some row' ∧
      (Js.ofOption row.refreshToken).truthyText ≠ (Js.ofOption row'.refreshToken).truthyText
  | _ => False

section Alongside

theorem sameVerdict_refl (hash : String) : SameVerdict env q hash hash := fun _ _ => rfl

theorem Differ.databasesAlike (h : Differ env q w.db db') :
    DatabasesAlike (SameVerdict env q) w.db db' where
  users := h.users.imp fun _ _ hRow =>
    ⟨hRow.1, (congrArg (fun row : UserRow => { row with updatedAt := 0 }) hRow.2 :)⟩
  otps := h.otps
  roles := h.roles

theorem Differ.worldsAlike (h : Differ env q w.db db') :
    WorldsAlike (SameVerdict env q) w { w with db := db' } where
  db := h.databasesAlike
  checkpoint := databasesAlike_refl sameVerdict_refl _
  outside := ⟨rfl, rfl⟩

/-- Answers that agree wherever they hold no user object. -/
def AnswersAlike (a b : Response) : Prop :=
  a = b ∨ (∃ user user', a = .user user ∧ b = .user user') ∨
    ∃ url url', a = .callbackUrl url ∧ b = .callbackUrl url'

theorem alongside_serve (hRefresh : ∀ loginModel, q ≠ .refreshToken loginModel) :
    Alongside env (SameVerdict env q) AnswersAlike (serve env.cases q) (serve env.cases q) := by
  have hVerdict : ∀ password, q.Supplies password → ∀ hash hash', SameVerdict env q hash hash' →
      env.compare password hash = env.compare password hash' :=
    fun password hSupplies _ _ h => h password hSupplies
  cases q with
  | createUser dto =>
    apply Lockstep.bind (alongside_createUser sameVerdict_refl dto)
    rintro user _ rfl
    exact Lockstep.pure (.inl rfl)
  | loginUser loginModel =>
    apply Lockstep.bind (alongside_loginUser sameVerdict_refl (hVerdict _ rfl))
    rintro tokens _ rfl
    exact Lockstep.pure (.inl rfl)
  | unlockAccount loginModel =>
    apply Lockstep.bind (alongside_unlockAccount (hVerdict _ rfl))
    intro url url' _
    exact Lockstep.pure (.inr (.inr ⟨url, url', rfl, rfl⟩))
  | googleLoginUser profile =>
    apply Lockstep.bind (alongside_googleLoginUser sameVerdict_refl _ profile)
    rintro tokens _ rfl
    exact Lockstep.pure (.inl rfl)
  | refreshToken loginModel => exact absurd rfl (hRefresh loginModel)
  | assignRole assignRoleModel =>
    apply Lockstep.bind (alongside_assignRole assignRoleModel)
    intro user user' _
    exact Lockstep.pure (.inr (.inl ⟨user, user', rfl, rfl⟩))
  | verifyAccount token =>
    apply Lockstep.bind (alongside_verifyAccount token)
    rintro info _ rfl
    exact Lockstep.pure (.inl rfl)
  | unlockAccountToken token =>
    apply Lockstep.bind (alongside_unlockAccountToken token)
    rintro info _ rfl
    exact Lockstep.pure (.inl rfl)

theorem sent_eq (hBefore : w.outside.mails.length = w'.outside.mails.length)
    (hAfter : OutsidesAlike (serveAlone env q w).2.outside (serveAlone env q w').2.outside) :
    sent env q w = sent env q w' := by
  rw [sent, sent, List.map_drop, List.map_drop, hAfter.mails, hBefore]

end Alongside

section Mails

/-- The mails of a request are those it has found, and new ones without a link. -/
def LinkFree (before : List Mail) (s : State) : Prop :=
  ∃ new, s.mails = before ++ new ∧ ∀ mail ∈ new, mail.locals.callbackUrl = none

theorem linkFree_of_eq {before : List Mail} {s : State} (h : s.mails = before) :
    LinkFree before s :=
  ⟨[], by rw [h, List.append_nil], fun _ hMail => absurd hMail List.not_mem_nil⟩

theorem session_mails {row : UserRow} {r : Except Exception JWTTokens} {s : State}
    (h : Session env row w r s) : s.mails = w.outside.mails := by
  cases h <;> rfl

theorem linkFree_sent {type : TypeOtp} {row : UserRow} {r : Except Exception UserModel} {s : State}
    (h : OtpSent type row w r s) : LinkFree w.outside.mails s := by
  cases h with
  | fails _ => exact linkFree_of_eq rfl
  | sent code now _ =>
    refine ⟨_, rfl, fun mail hMail => ?_⟩
    rw [List.mem_singleton.mp hMail]

theorem linkFree_handled {loginModel : LoginModel} {row : UserRow} {r : Except Exception Unit}
    {s : State} (h : OtpHandled loginModel row w r s) : LinkFree w.outside.mails s := by
  have hChecked : ∀ {code userId r s}, OtpChecked .LOGIN_OTP code userId w r s →
      s.mails = w.outside.mails := by
    intro code userId r s h
    cases h <;> rfl
  cases h with
  | skipped => exact linkFree_of_eq rfl
  | unsent _ _ _ h => exact linkFree_sent h
  | required _ _ _ h => exact linkFree_sent h
  | unchecked _ _ _ h => exact linkFree_of_eq (hChecked h)
  | wrong _ _ _ h => exact linkFree_of_eq (hChecked h)
  | right _ _ _ h => exact linkFree_of_eq (hChecked h)

theorem linkFree_credentials {loginModel : LoginModel} {r : Except Exception UserModel} {s : State}
    (h : Credentials env loginModel w r s) : LinkFree w.outside.mails s := by
  cases h <;> exact linkFree_of_eq rfl

theorem linkFree_login {loginModel : LoginModel} {r : Except Exception JWTTokens} {s : State}
    (h : LoginEnds env loginModel w r s) : LinkFree w.outside.mails s := by
  cases h with
  | rejected h => exact linkFree_credentials h
  | closed => exact linkFree_of_eq rfl
  | held _ _ _ h => exact linkFree_handled h
  | @session row w₁ _ _ _ _ _ hHandled _ hSession =>
    obtain ⟨new, hNew, hLinks⟩ := linkFree_handled hHandled
    exact ⟨new, (session_mails hSession).trans hNew, hLinks⟩

theorem linkFree_google {profile : GoogleProfile} {r : Except Exception JWTTokens} {s : State}
    (h : GoogleEnds env profile w r s) : LinkFree w.outside.mails s := by
  cases h with
  | refused => exact linkFree_of_eq rfl
  | known _ hState _ hSession =>
    exact linkFree_of_eq ((session_mails hSession).trans (congrArg State.mails hState))
  | created _ _ hState _ hSession =>
    exact linkFree_of_eq ((session_mails hSession).trans (congrArg State.mails hState))

theorem linkFree_registration {dto : CreateUserDto} {r : Except Exception UserModel} {s : State}
    (h : RegistrationEnds env dto w r s) (hError : ∀ user, r ≠ .ok user) :
    LinkFree w.outside.mails s := by
  cases h with
  | refused => exact linkFree_of_eq rfl
  | undone => exact linkFree_of_eq rfl
  | registered => exact absurd rfl (hError _)

theorem linkFree_unlock {loginModel : LoginModel} {r : Except Exception String} {s : State}
    (h : LinkEnds env loginModel w r s) : LinkFree w.outside.mails s := by
  cases h with
  | rejected hRejected => exact linkFree_credentials hRejected
  | refused => exact linkFree_of_eq rfl
  | linked => exact linkFree_of_eq rfl

theorem linkFree_renewal {loginModel : LoginModel} {r : Except Exception Unit} {s : State}
    (h : RenewalEnds env loginModel w r s) : LinkFree w.outside.mails s := by
  cases h <;> exact linkFree_of_eq rfl

theorem linkFree_assignment {assignRoleModel : AssignRoleModel} {r : Except Exception UserModel}
    {s : State} (h : AssignmentEnds env assignRoleModel w r s) : LinkFree w.outside.mails s := by
  cases h <;> exact linkFree_of_eq rfl

theorem linkFree_update {flag : UserRow → UserRow} {token : String}
    {r : Except Exception AccountInfo} {s : State} (h : TokenEnds env flag token w r s) :
    LinkFree w.outside.mails s := by
  cases h <;> exact linkFree_of_eq rfl

/-- Only a registration that goes through mails a link. -/
theorem linkFree_serve (h : ¬ HandsOut env w q) :
    LinkFree w.outside.mails (serveAlone env q w).2.state := by
  rcases hServe : serveAlone env q w with ⟨out, w'⟩
  cases q with
  | createUser dto =>
    obtain ⟨r, hRun, _⟩ := run_map_cases _ hServe
    apply linkFree_registration (createUser_cases hRun)
    intro user hOk
    exact h (succeeds_createUser.mp ⟨user, w', hOk ▸ hRun⟩)
  | loginUser loginModel =>
    obtain ⟨r, hRun, _⟩ := run_map_cases _ hServe
    exact linkFree_login (loginUser_cases hRun)
  | unlockAccount loginModel =>
    obtain ⟨r, hRun, _⟩ := run_map_cases _ hServe
    exact linkFree_unlock (unlockAccount_cases hRun)
  | googleLoginUser profile =>
    obtain ⟨r, hRun, _⟩ := run_map_cases _ hServe
    cases profile with
    | none =>
      cases hRun
      exact linkFree_of_eq rfl
    | some profile => exact linkFree_google (googleLoginUser_cases hRun)
  | refreshToken loginModel =>
    obtain ⟨r, hRun, _⟩ := run_map_cases _ hServe
    exact linkFree_renewal (refreshToken_cases hRun)
  | assignRole assignRoleModel =>
    obtain ⟨r, hRun, _⟩ := run_map_cases _ hServe
    exact linkFree_assignment (assignRole_cases hRun)
  | verifyAccount token =>
    obtain ⟨r, hRun, _⟩ := run_map_cases _ hServe
    exact linkFree_update (updateByToken_cases sets_isVerified hRun)
  | unlockAccountToken token =>
    obtain ⟨r, hRun, _⟩ := run_map_cases _ hServe
    exact linkFree_update (updateByToken_cases sets_isBlocked hRun)

end Mails

section Publishing

theorem serve_map {α : Type} {p : Async α} {f : α → Response} {a : α}
    (hRun : run (alone env) p w = (.ok a, w')) :
    run (alone env) (p.bind fun a => .pure (f a)) w = (.ok (f a), w') := by
  rw [run_bind, hRun]
  rfl

/-- Only these requests answer with a user or a link. -/
theorem handsOut_of_answer {answer : Response} (h : (serveAlone env q w).1 = .ok answer)
    (hAnswer : (∃ user, answer = .user user) ∨ ∃ url, answer = .callbackUrl url) :
    HandsOut env w q := by
  have hOther : ∀ {α : Type} {p : Async α} {f : α → Response},
      (∀ a user, f a ≠ .user user) → (∀ a url, f a ≠ .callbackUrl url) →
      (run (alone env) (p.bind fun a => .pure (f a)) w).1 ≠ .ok answer := by
    intro α p f hUser hUrl hOk
    obtain ⟨a, w', hRun⟩ := succeeds_iff.mpr ⟨_, hOk⟩
    obtain ⟨r, _, hMap⟩ := run_map_cases _ hRun
    rw [hRun, hMap] at hOk
    cases r with
    | error e => cases hOk
    | ok b =>
      cases hOk
      obtain ⟨user, hEq⟩ | ⟨url, hEq⟩ := hAnswer
      · exact hUser _ _ hEq
      · exact hUrl _ _ hEq
  cases q with
  | createUser dto => exact succeeds_createUser.mp (succeeds_map.mp (succeeds_iff.mpr ⟨_, h⟩))
  | unlockAccount loginModel =>
    exact succeeds_unlockAccount.mp (succeeds_map.mp (succeeds_iff.mpr ⟨_, h⟩))
  | assignRole assignRoleModel =>
    exact succeeds_assignRole.mp (succeeds_map.mp (succeeds_iff.mpr ⟨_, h⟩))
  | loginUser loginModel => exact absurd h (hOther (fun _ _ => nofun) fun _ _ => nofun)
  | googleLoginUser profile => exact absurd h (hOther (fun _ _ => nofun) fun _ _ => nofun)
  | refreshToken loginModel => exact absurd h (hOther (fun _ _ => nofun) fun _ _ => nofun)
  | verifyAccount token => exact absurd h (hOther (fun _ _ => nofun) fun _ _ => nofun)
  | unlockAccountToken token => exact absurd h (hOther (fun _ _ => nofun) fun _ _ => nofun)

theorem discreet_of_not (h : ¬ HandsOut env w q) : Discreet env q w := by
  intro user hPublishes
  cases hPublishes with
  | clear hAnswer => exact absurd (handsOut_of_answer hAnswer (.inl ⟨_, rfl⟩)) h
  | link hAnswer _ => exact absurd (handsOut_of_answer hAnswer (.inr ⟨_, rfl⟩)) h
  | mailed hMail hUrl _ =>
    obtain ⟨new, hNew, hLinks⟩ := linkFree_serve h
    have hMails : (serveAlone env q w).2.outside.mails = w.outside.mails ++ new := hNew
    rw [sent, hMails, List.drop_left] at hMail
    obtain ⟨mail, hMem, rfl⟩ := List.mem_map.mp hMail
    simp only [Mail.render, hLinks mail hMem, ite_self] at hUrl
    cases hUrl

theorem mem_drop_of_append {α : Type} {before after new : List α} (h : after = before ++ new) {a : α}
    (ha : a ∈ new) : a ∈ after.drop before.length := by
  rwa [h, List.drop_left]

theorem mem_sent {mail : Mail}
    (h : mail ∈ (serveAlone env q w).2.outside.mails.drop w.outside.mails.length) :
    mail.render ∈ sent env q w := List.mem_map_of_mem h

/-- The link in the mail is signed for the whole new user. -/
theorem not_discreet_createUser {dto : CreateUserDto} (h : Registers dto w) :
    ¬ Discreet env (.createUser dto) w := by
  obtain ⟨user, w', hRun⟩ := succeeds_createUser.mpr h
  have hServe : serveAlone env (.createUser dto) w = (.ok (.user user), w') := serve_map hRun
  have hEnds := createUser_cases hRun
  generalize hState : w'.state = s at hEnds
  cases hEnds with
  | @registered id password now users saved c payload _ hRows hSaved hPayload =>
    have hMails : w'.outside.mails = _ := congrArg State.mails hState
    have hIssued : w'.outside.issued = _ := congrArg State.issued hState
    have hUsers : w'.db.users = users := congrArg (fun s => s.db.users) hState
    have hMail := @mem_sent env (.createUser dto) w
      ⟨.val dto.email, "VERIFY_ACCOUNT",
        { user := saved, callbackUrl := some (verifyLink (env.sign payload)) }⟩
      (by rw [hServe]; exact mem_drop_of_append hMails List.mem_cons_self)
    have hLinked : Linked env (.createUser dto) w (verifyLink (env.sign payload)) saved := by
      refine ⟨⟨env.sign payload, payload⟩, ?_, _, rfl, by rw [hPayload]; rfl⟩
      rw [hServe]
      exact mem_drop_of_append hIssued List.mem_cons_self
    intro hDiscreet
    refine hDiscreet saved (.mailed hMail rfl hLinked) (dto.row id password now) ?_ (.inl ?_)
    · rw [hServe, hUsers, hRows]
      simp
    · rw [hSaved]
      rfl

theorem not_discreet_unlockAccount {loginModel : LoginModel} (h : LinksUnlock env loginModel w) :
    ¬ Discreet env (.unlockAccount loginModel) w := by
  obtain ⟨url, w', hRun⟩ := succeeds_unlockAccount.mpr h
  have hServe : serveAlone env (.unlockAccount loginModel) w = (.ok (.callbackUrl url), w') :=
    serve_map hRun
  have hEnds := unlockAccount_cases hRun
  generalize hState : w'.state = s at hEnds
  cases hEnds with
  | @linked row c payload hEmail _ _ _ hPayload =>
    have hIssued : w'.outside.issued = _ := congrArg State.issued hState
    have hUsers : w'.db.users = w.db.users := congrArg (fun s => s.db.users) hState
    have hLinked : Linked env (.unlockAccount loginModel) w (unlockLink (env.sign payload))
        row.entity := by
      refine ⟨⟨env.sign payload, payload⟩, ?_, _, rfl, by rw [hPayload]; rfl⟩
      rw [hServe]
      exact mem_drop_of_append hIssued List.mem_cons_self
    intro hDiscreet
    refine hDiscreet row.entity (.link (congrArg Prod.fst hServe) hLinked) row ?_ (.inl rfl)
    rw [hServe, hUsers]
    exact (UserTable.byEmail_eq_some.mp hEmail).1

theorem not_discreet_assignRole {assignRoleModel : AssignRoleModel}
    (h : AssignsRole env assignRoleModel w) : ¬ Discreet env (.assignRole assignRoleModel) w := by
  obtain ⟨user, w', hRun⟩ := succeeds_assignRole.mpr h
  have hServe : serveAlone env (.assignRole assignRoleModel) w = (.ok (.user user), w') :=
    serve_map hRun
  obtain ⟨row, hRow, hPassword⟩ := assignRole_returns hRun
  intro hDiscreet
  exact hDiscreet user (.clear (congrArg Prod.fst hServe)) row (by rwa [hServe]) (.inl hPassword)

theorem discreet_iff : Discreet env q w ↔ ¬ HandsOut env w q := by
  refine ⟨fun hDiscreet hHandsOut => ?_, discreet_of_not⟩
  cases q with
  | createUser dto => exact not_discreet_createUser hHandsOut hDiscreet
  | unlockAccount loginModel => exact not_discreet_unlockAccount hHandsOut hDiscreet
  | assignRole assignRoleModel => exact not_discreet_assignRole hHandsOut hDiscreet
  | loginUser _ => exact hHandsOut
  | googleLoginUser _ => exact hHandsOut
  | refreshToken _ => exact hHandsOut
  | verifyAccount _ => exact hHandsOut
  | unlockAccountToken _ => exact hHandsOut

end Publishing

section Renewal
variable {loginModel : LoginModel}

theorem renews_iff (h : Differ env (.refreshToken loginModel) w.db db') :
    (Renews loginModel w ↔ Renews loginModel { w with db := db' }) ↔
      ¬ TellsApart w db' (.refreshToken loginModel) := by
  have hRows : Option.Rel (RowsAlike (SameVerdict env (.refreshToken loginModel)))
      (w.db.users.byEmail loginModel.email) (db'.users.byEmail loginModel.email) :=
    rel_find? (fun _ _ hRow => by rw [hRow.email]) h.databasesAlike.users
  simp only [Renews, TellsApart]
  generalize w.db.users.byEmail loginModel.email = found at hRows
  generalize db'.users.byEmail loginModel.email = found' at hRows
  cases hRows with
  | none => simp
  | @some row row' =>
    cases (Js.ofOption row.refreshToken).truthyText <;>
      cases (Js.ofOption row'.refreshToken).truthyText <;> simp

theorem renewal_done (h : Renews loginModel w) :
    (serveAlone env (.refreshToken loginModel) w).1 = .ok .done := by
  obtain ⟨_, w', hRun⟩ := succeeds_refreshToken.mpr h
  exact congrArg Prod.fst (serve_map hRun)

theorem renewal_refused (h : ¬ Renews loginModel w) :
    (serveAlone env (.refreshToken loginModel) w).1 =
      .error (if w.choice.fault then .external else AuthService.unauthorized) := by
  rcases hServe : serveAlone env (.refreshToken loginModel) w with ⟨out, w'⟩
  obtain ⟨r, hRun, hMap⟩ := run_map_cases _ hServe
  cases r with
  | ok a => exact absurd (succeeds_refreshToken.mp ⟨a, w', hRun⟩) h
  | error e =>
    rw [hMap, ← refreshToken_error (congrArg Prod.fst hRun)]
    rfl

theorem renewal_answers (h : Differ env (.refreshToken loginModel) w.db db') :
    (serveAlone env (.refreshToken loginModel) w).1 =
        (serveAlone env (.refreshToken loginModel) { w with db := db' }).1 ↔
      ¬ TellsApart w db' (.refreshToken loginModel) := by
  rw [← renews_iff h]
  by_cases hRenews : Renews loginModel w <;>
    by_cases hRenews' : Renews loginModel { w with db := db' }
  · exact iff_of_true ((renewal_done hRenews).trans (renewal_done hRenews').symm)
      (iff_of_true hRenews hRenews')
  · rw [renewal_done hRenews, renewal_refused hRenews']
    exact iff_of_false nofun fun hIff => hRenews' (hIff.mp hRenews)
  · rw [renewal_refused hRenews, renewal_done hRenews']
    exact iff_of_false nofun fun hIff => hRenews (hIff.mpr hRenews')
  · exact iff_of_true ((renewal_refused hRenews).trans (renewal_refused hRenews').symm)
      (iff_of_false hRenews hRenews')

theorem renewal_sent (env : Env) (loginModel : LoginModel) (w : World) :
    sent env (.refreshToken loginModel) w = [] := by
  rcases hServe : serveAlone env (.refreshToken loginModel) w with ⟨out, w'⟩
  obtain ⟨r, hRun, _⟩ := run_map_cases _ hServe
  have hEnds := refreshToken_cases hRun
  have hMails : w'.state.mails = w.outside.mails := by
    generalize w'.state = s at hEnds
    cases hEnds <;> rfl
  rw [sent, hServe, show w'.outside.mails = _ from hMails, List.drop_length, List.map_nil]

end Renewal

theorem answer_of_handsOut (h : HandsOut env w q) : ∃ answer, (serveAlone env q w).1 = .ok answer ∧
    ((∃ user, answer = .user user) ∨ ∃ url, answer = .callbackUrl url) := by
  cases q with
  | createUser dto =>
    obtain ⟨user, w', hRun⟩ := succeeds_createUser.mpr h
    exact ⟨_, congrArg Prod.fst (serve_map hRun), .inl ⟨_, rfl⟩⟩
  | unlockAccount loginModel =>
    obtain ⟨url, w', hRun⟩ := succeeds_unlockAccount.mpr h
    exact ⟨_, congrArg Prod.fst (serve_map hRun), .inr ⟨_, rfl⟩⟩
  | assignRole assignRoleModel =>
    obtain ⟨user, w', hRun⟩ := succeeds_assignRole.mpr h
    exact ⟨_, congrArg Prod.fst (serve_map hRun), .inl ⟨_, rfl⟩⟩
  | loginUser _ => exact h.elim
  | googleLoginUser _ => exact h.elim
  | refreshToken _ => exact h.elim
  | verifyAccount _ => exact h.elim
  | unlockAccountToken _ => exact h.elim

theorem kept_of_alongside (hDiffer : Differ env q w.db db')
    (hRefresh : ∀ loginModel, q ≠ .refreshToken loginModel) (hNot : ¬ HandsOut env w q) :
    Kept env q w { w with db := db' } := by
  obtain ⟨hAgree, hAfter⟩ := alongside_serve hRefresh _ _ hDiffer.worldsAlike
  have hNoAnswer : ∀ answer, (serveAlone env q w).1 = .ok answer →
      ¬ ((∃ user, answer = .user user) ∨ ∃ url, answer = .callbackUrl url) :=
    fun answer hAnswer hShape => hNot (handsOut_of_answer hAnswer hShape)
  change Agree AnswersAlike (serveAlone env q w).1 (serveAlone env q { w with db := db' }).1
    at hAgree
  have hSame : (serveAlone env q w).1 = (serveAlone env q { w with db := db' }).1 := by
    generalize (serveAlone env q w).1 = r at hAgree hNoAnswer
    generalize (serveAlone env q { w with db := db' }).1 = r' at hAgree
    cases hAgree with
    | error e => rfl
    | ok hA =>
      obtain rfl | ⟨user, _, rfl, _⟩ | ⟨url, _, rfl, _⟩ := hA
      · rfl
      · exact absurd (.inl ⟨user, rfl⟩) (hNoAnswer _ rfl)
      · exact absurd (.inr ⟨url, rfl⟩) (hNoAnswer _ rfl)
  refine ⟨hSame, sent_eq rfl hAfter.outside, discreet_iff.mpr hNot, discreet_iff.mpr ?_⟩
  intro hHandsOut
  obtain ⟨answer, hAnswer, hShape⟩ := answer_of_handsOut hHandsOut
  exact hNoAnswer answer (hSame.trans hAnswer) hShape

end Secrets

open Secrets

/-- A request keeps the stored secrets unless it hands out a whole user, or a renewal tells that a
refresh token is there. -/
theorem secrets_kept (env : Env) (q : Request) (w : World) (db' : Database)
    (hDiffer : Differ env q w.db db') :
    Kept env q w { w with db := db' } ↔ ¬ HandsOut env w q ∧ ¬ TellsApart w db' q := by
  constructor
  · intro hKept
    refine ⟨discreet_iff.mp hKept.discreet, fun hTells => ?_⟩
    cases q with
    | refreshToken loginModel => exact (renewal_answers hDiffer).mp hKept.answer hTells
    | _ => exact hTells
  · rintro ⟨hNot, hSame⟩
    cases q with
    | refreshToken loginModel =>
      refine ⟨(renewal_answers hDiffer).mpr hSame, ?_, discreet_iff.mpr hNot, discreet_iff.mpr hNot⟩
      rw [renewal_sent, renewal_sent]
    | _ => exact kept_of_alongside hDiffer (fun _ => nofun) hNot

namespace Sample

/-- The account with nothing but its password, and with a session and an old code. -/
def signedInRow : UserRow :=
  { row with
    otp := some "654321"
    accessToken := some "jwt:access"
    refreshToken := some "jwt:refresh" }

def otherHashRow : UserRow := { row with password := "hash:other" }

def manager : RoleRow := ⟨"r", "manager", "Runs the shop", true⟩

def withRole (users : UserTable) : World :=
  let w := world users
  { w with db := { w.db with roles := [manager] } }

end Sample

/-- A login does not tell the sessions of the account before it. -/
theorem secrets_kept_sample : Kept Sample.tokenEnv (.loginUser Sample.rightLogin)
    (Sample.world (Sample.oneUser Sample.row))
    { Sample.world (Sample.oneUser Sample.row) with
      db := (Sample.world (Sample.oneUser Sample.signedInRow)).db } := by
  have hDiffer : Differ Sample.tokenEnv (.loginUser Sample.rightLogin)
      (Sample.world (Sample.oneUser Sample.row)).db
      (Sample.world (Sample.oneUser Sample.signedInRow)).db :=
    ⟨.cons ⟨fun _ _ => rfl, rfl⟩ .nil, rfl, rfl⟩
  exact (secrets_kept _ _ _ _ hDiffer).mpr ⟨id, id⟩

/-- The answer to a role assignment holds the hash of the password. -/
theorem secrets_not_kept : ¬ ∀ q w db', Differ Sample.tokenEnv q w.db db' →
    Kept Sample.tokenEnv q w { w with db := db' } := by
  intro hKept
  have hDiffer : Differ Sample.tokenEnv (.assignRole ⟨"u", ["r"]⟩)
      (Sample.withRole (Sample.oneUser Sample.row)).db
      (Sample.withRole (Sample.oneUser Sample.otherHashRow)).db :=
    ⟨.cons ⟨fun _ h => h.elim, rfl⟩ .nil, rfl, rfl⟩
  have hAnswer := (hKept _ _ _ hDiffer).answer
  exact absurd hAnswer (by decide)

end Manejaplus
