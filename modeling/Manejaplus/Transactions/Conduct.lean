import Manejaplus.Awaited
import Manejaplus.Effect.Guarantee
import Manejaplus.Interleaved.Snapshots
import Manejaplus.Sequential.Lookups
import Manejaplus.Transactions.Views

/-! # Whom a request acts for

A request looks one account up, or opens one. All that it saves, signs and
mails from then on is that account's, whatever the other requests do in
between and whichever transaction its statements end up in.
-/
namespace Manejaplus
open Effect Prog
set_option autoImplicit false

/-- What a request has come by so far. -/
structure Conduct where
  request : Request
  /-- The account it has found, or made. -/
  seen : Option UserEntity := none
  signed : List Issued := []
  code : Option OtpObject := none
  saved : List OtpObject := []
  roles : List RoleRow := []

/-- A token for a session of this account. -/
def Issued.Session (t : Issued) (account : UserEntity) (expiresIn : Nat) : Prop :=
  ∃ c, t.payload = Outside.payload c { email := account.email, id := account.id } expiresIn

/-- A token for a link to this account. -/
def Issued.Link (t : Issued) (account : UserEntity) : Prop :=
  ∃ c, t.payload = Outside.payload c account AUTH.TIME_VERIFY_ACCOUNT

def OtpService.newCode (user : UserEntity) (otpCode : String) : OtpObject :=
  { typeOtp := .val .LOGIN_OTP, otp := .val otpCode, user := .val user }

namespace Conduct

/-- A save of the account that was looked up. -/
structure Updates (env : Env) (γ : Conduct) (seen e : UserEntity) : Prop where
  /-- The id goes back as it was read, or as the request spells it. -/
  id : e.id = seen.id ∨ ∃ id id', e.id = .val id ∧ env.uuid id = some id' ∧ seen.id = .val id'
  carries : Holding.Carries seen e
  accessToken : (e.accessToken = seen.accessToken ∧ seen.accessToken ≠ .undefined) ∨
    ∃ t ∈ γ.signed, e.accessToken = .val t.token ∧ t.Session seen AUTH.TIME_ACCESS_TOKEN
  refreshToken : (e.refreshToken = seen.refreshToken ∧ seen.refreshToken ≠ .undefined) ∨
    ∃ t ∈ γ.signed, e.refreshToken = .val t.token ∧ t.Session seen AUTH.TIME_REFRESH_TOKEN
  roles : e.roles = seen.roles ∨
    ∃ assignRoleModel, γ.request = .assignRole assignRoleModel ∧ e.id = .val assignRoleModel.userId ∧
      e.roles = .val γ.roles

/-- A save of an account that was not there. -/
structure Opens (env : Env) (γ : Conduct) (e : UserEntity) : Prop where
  id : e.id = .undefined
  email : ∃ email, γ.request.newEmail env.cases = some email ∧ e.email = .val email
  accessToken : e.accessToken = .undefined
  refreshToken : e.refreshToken = .undefined
  roles : e.roles = .undefined

def SavesUser (env : Env) (γ : Conduct) (e : UserEntity) : Prop :=
  match γ.seen with
  | some seen => γ.Updates env seen e
  | none => γ.Opens env e

def SavesOtp (γ : Conduct) (e : OtpObject) : Prop :=
  (∃ seen ∈ γ.seen, ∃ n < 900000, e = OtpService.newCode seen (toString (100000 + n))) ∨
    ∃ code ∈ γ.code, e = { code with wasUsed := .val true }

def Signs (γ : Conduct) (sub : UserObject) (expiresIn : Nat) : Prop :=
  ∃ seen ∈ γ.seen,
    (sub = { email := seen.email, id := seen.id } ∧
      (expiresIn = AUTH.TIME_ACCESS_TOKEN ∨ expiresIn = AUTH.TIME_REFRESH_TOKEN)) ∨
    (sub = seen ∧ expiresIn = AUTH.TIME_VERIFY_ACCOUNT)

def Mails (γ : Conduct) (mail : Mail) : Prop :=
  ∃ seen ∈ γ.seen,
    (∃ otpCode, OtpService.newCode seen otpCode ∈ γ.saved ∧
      mail = ⟨seen.email, TypeOtp.text .LOGIN_OTP, { user := seen, otpCode := some otpCode }⟩) ∨
    ∃ t ∈ γ.signed, t.Link seen ∧
      mail = ⟨seen.email, "VERIFY_ACCOUNT", { user := seen, callbackUrl := some (verifyLink t.token) }⟩

def protocol (env : Env) : Protocol services Exception TxWorld Conduct where
  next γ w o r := match o, r with
    | .store (.findUser _), .ok (some e) => { γ with seen := some e }
    | .store (.saveUser _), .ok e => { γ with seen := γ.seen.or (some e) }
    | .store (.findOtp _ _), .ok (some code) => { γ with code := some code }
    | .store (.saveOtp e), .ok _ => { γ with saved := e :: γ.saved }
    | .store (.findRoles _), .ok roles => { γ with roles }
    | .outside (.signAsync sub expiresIn), .ok token =>
      { γ with signed := ⟨token, Outside.payload w.choice sub expiresIn⟩ :: γ.signed }
    | _, _ => γ
  allows γ o := match o with
    | .store (.findUser q) => γ.seen = none ∧ γ.request.lookup env = some q
    | .store (.saveUser e) => γ.SavesUser env e
    | .store (.findOtp typeOtp userId) => typeOtp = .LOGIN_OTP ∧ ∃ seen ∈ γ.seen, userId = seen.id
    | .store (.saveOtp e) => γ.SavesOtp e
    | .store (.findRoles ids) =>
      ∃ assignRoleModel, γ.request = .assignRole assignRoleModel ∧ ids = assignRoleModel.rolesId
    | .outside (.signAsync sub expiresIn) => γ.Signs sub expiresIn
    | .outside (.sendEmail mail) => γ.Mails mail
    | _ => True

/-- The operations that are always permitted, and leave no trace in the ghost. -/
def Quiet : Op → Prop
  | .store _ => False
  | .outside (.signAsync _ _) => False
  | .outside (.sendEmail _) => False
  | .outside _ => True
  | .transaction _ => True

/-- The program goes by the protocol, and a result it comes to is as required. -/
def Goes {α : Type} (env : Env) (γ : Conduct) (p : Async α) (R : Conduct → α → Prop) : Prop :=
  Obeys (transactional env) (protocol env) (fun _ => True) γ p fun γ' r => ∀ a, r = .ok a → R γ' a

variable {env : Env} {α β : Type} {γ : Conduct} {R : Conduct → α → Prop} {Q : Conduct → β → Prop}

section Rules

theorem goes_pure {a : α} (h : R γ a) : Goes env γ (.pure a) R := by
  rintro _ ⟨rfl⟩
  exact h

theorem goes_throw (e : Exception) : Goes env γ (.throw e : Async α) R := fun _ h => by cases h

theorem goes_bind {p : Async α} {f : α → Async β} (hp : Goes env γ p R)
    (hf : ∀ γ' a, R γ' a → Goes env γ' (f a) Q) : Goes env γ (p.bind f) Q :=
  Obeys.seq hp (fun γ' a h => hf γ' a (h a rfl)) fun _ _ _ _ h => by cases h

theorem goes_mono {p : Async α} {R' : Conduct → α → Prop} (h : ∀ γ a, R γ a → R' γ a)
    (hp : Goes env γ p R) : Goes env γ p R' :=
  Obeys.mono (fun _ _ hr a ha => h _ a (hr a ha)) hp

theorem goes_perform {o : Op} (hAllows : (protocol env).allows γ o)
    {R : Conduct → services.Res o → Prop}
    (hAnswer : ∀ w a, (transactional env o w).1 = .ok a → R ((protocol env).next γ w o (.ok a)) a) :
    Goes env γ (Prog.perform (S := services) o) R := by
  refine (Obeys.perform _).mpr ⟨hAllows, fun w _ a ha => ?_⟩
  rw [ha]
  exact hAnswer w a ha

theorem quiet_of_kind {o : Op} (h : o.kind ∈
    [.hashPassword, .comparePasswords, .decode, .encryptString, .newDate, .random, .transaction]) :
    Quiet o := by
  cases o with
  | store o =>
    cases o with
    | saveOtp e =>
      simp only [Op.kind] at h
      split at h <;> simp at h
    | _ => simp at h
  | outside o => cases o <;> trivial
  | transaction o => trivial

theorem quiet_of_among {kinds : List OpKind} {p : Async α} (hp : p.Uses (Op.Among kinds))
    (h : kinds ⊆ [.hashPassword, .comparePasswords, .decode, .encryptString, .newDate, .random,
      .transaction]) : p.Uses Quiet :=
  hp.mono fun _ ho => quiet_of_kind (h ho)

theorem allows_quiet {o : Op} (ho : Quiet o) : (protocol env).allows γ o := by
  cases o with
  | store o => exact ho.elim
  | outside o => cases o <;> trivial
  | transaction o => trivial

theorem next_quiet {w : TxWorld} {o : Op} {r : Except Exception (services.Res o)} (ho : Quiet o) :
    (protocol env).next γ w o r = γ := by
  cases o with
  | store o => exact ho.elim
  | outside o => cases o <;> first | rfl | exact ho.elim
  | transaction o => rfl

theorem goes_quiet {p : Async α} (hp : p.Uses Quiet) : Goes env γ p fun γ' _ => γ' = γ := by
  refine Obeys.mono (fun _ _ h _ _ => h) (Obeys.of_uses (J := (· = γ)) hp ?_ ?_ rfl)
  · exact fun _ _ _ ho => allows_quiet ho
  · exact fun γ' w o r h ho => (next_quiet ho).trans h

theorem goes_after {p : Async α} {f : α → Async β} (hp : p.Uses Quiet)
    (hf : ∀ a, Goes env γ (f a) Q) : Goes env γ (p.bind f) Q :=
  goes_bind (goes_quiet hp) fun _ a h => h ▸ hf a

/-- `try { p } catch (e) { throw … }` -/
theorem goes_rethrow {p : Async α} (recover : Exception → Exception) (hp : Goes env γ p R) :
    Goes env γ (p.catching fun e => .throw (recover e)) R := by
  refine Obeys.catching.mpr (Obeys.mono ?_ hp)
  rintro γ' (e | a) h
  · exact fun _ h => by cases h
  · exact h

theorem goes_attempt {p : Async α} (hp : Goes env γ p R) :
    Goes env γ p.attempt fun γ' r => ∀ a, r = .ok a → R γ' a := by
  refine Obeys.attempt.mpr (Obeys.mono ?_ hp)
  rintro γ' r h _ ⟨rfl⟩
  exact h

theorem goes_transactional {service : Service} {body : Async α} (hBody : Goes env γ body R) :
    Goes env γ (Transactional service body) R := by
  have hCallback : ∀ manager, Goes env γ (Transactional.callback service body manager) R := by
    intro manager
    refine goes_after (uses_perform (by trivial)) fun _ => ?_
    refine goes_bind (goes_attempt hBody) fun γ' result hResult => ?_
    refine goes_after (uses_perform (by trivial)) fun _ => ?_
    cases result with
    | ok a => exact goes_after (uses_perform (by trivial)) fun _ => goes_pure (hResult a rfl)
    | error e => exact goes_after (uses_perform (by trivial)) fun _ => goes_throw e
  refine goes_after (uses_perform (by trivial)) fun _ => ?_
  refine goes_bind (goes_attempt (R := R) (goes_after (uses_perform (by trivial)) fun manager => ?_)) ?_
  · cases manager with
    | none => exact goes_after (uses_perform (by trivial)) hCallback
    | some _ => exact hBody
  · intro γ' result hResult
    refine goes_after (uses_perform (by trivial)) fun _ => ?_
    exact (Obeys.ofExcept _).mpr hResult

end Rules

section Answers

theorem findUser_answer {w : TxWorld} {q : UserWhere} {e : UserEntity}
    (h : (transactional env (.store (.findUser q)) w).1 = .ok (some e)) :
    ∃ row manager, row ∈ (w.view env manager).users.rows ∧ q.Selects env row = true ∧ e = row.entity := by
  obtain hRefused | ⟨manager, hView⟩ := TxWorld.store_answer env (.findUser q) w
  · rw [hRefused] at h
    cases h
  · rw [hView, Database.exec] at h
    split at h
    · cases h
    · cases hFound : (w.view env manager).users.findOne env.uuid q with
      | none =>
        rw [hFound] at h
        cases h
      | some found =>
        rw [hFound] at h
        cases found with
        | none => cases h
        | some row =>
          cases h
          refine ⟨row, manager, findOne_mem hFound, ?_, rfl⟩
          simp only [UserTable.findOne, Option.bind_eq_bind, Option.bind_eq_some_iff,
            Option.some.injEq] at hFound
          obtain ⟨sameId, hId, hFind⟩ := hFound
          have hMatch := List.find?_some hFind
          rw [UserWhere.Selects, hId]
          exact hMatch

theorem opened_answer {w : TxWorld} {e saved : UserEntity} (hOpens : γ.Opens env e)
    (h : (transactional env (.store (.saveUser e)) w).1 = .ok saved) :
    ∃ (manager : Option Tx) (new : UserRow) (users : UserTable),
      UserRow.ofEntity w.choice.uuid w.choice.now e = some new ∧
        users.rows = (w.view env manager).users.rows ++ [new] ∧ saved = new.returning e := by
  obtain hRefused | ⟨manager, hAnswer⟩ := TxWorld.store_answer env (.saveUser e) w
  · rw [hRefused] at h
    cases h
  rw [hAnswer] at h
  have hSaved := exec_saveUser env w.choice (w.view env manager) e
  rw [h] at hSaved
  generalize ((w.view env manager).exec env w.choice (.saveUser e)).2 = db' at hSaved
  cases hSaved with
  | updated _ _ hOwn =>
    rw [hOpens.id] at hOwn
    cases hOwn
  | @inserted id new users hId hInsert hRows =>
    rw [UserEntity.newId, hOpens.id] at hId
    cases hId
    exact ⟨manager, new, users, hInsert, hRows, rfl⟩

/-- An account gets into the ghost by the answer of a lookup, or of an insertion. -/
theorem comes_by {w : TxWorld} {o : Op} {account : UserEntity}
    (hAllows : (protocol env).allows γ o) (hNew : γ.seen ≠ some account)
    (hSeen : ((protocol env).next γ w o (transactional env o w).1).seen = some account) :
    (∃ query, o = .store (.findUser query) ∧
      (transactional env (.store (.findUser query)) w).1 = .ok (some account)) ∨
    ∃ e, o = .store (.saveUser e) ∧ γ.Opens env e ∧
      (transactional env (.store (.saveUser e)) w).1 = .ok account := by
  cases o with
  | store o =>
    cases o with
    | findUser query =>
      refine .inl ⟨query, rfl, ?_⟩
      cases hAnswer : (transactional env (.store (.findUser query)) w).1 with
      | error _ =>
        rw [hAnswer] at hSeen
        exact absurd hSeen hNew
      | ok found =>
        rw [hAnswer] at hSeen
        cases found with
        | none => exact absurd hSeen hNew
        | some e =>
          cases hSeen
          rfl
    | saveUser e =>
      refine .inr ⟨e, rfl, ?_⟩
      change γ.SavesUser env e at hAllows
      cases hAnswer : (transactional env (.store (.saveUser e)) w).1 with
      | error _ =>
        rw [hAnswer] at hSeen
        exact absurd hSeen hNew
      | ok saved =>
        rw [hAnswer] at hSeen
        change γ.seen.or (some saved) = some account at hSeen
        cases hOld : γ.seen with
        | some seen =>
          rw [hOld] at hSeen hNew
          exact absurd hSeen hNew
        | none =>
          rw [hOld] at hSeen
          rw [SavesUser, hOld] at hAllows
          cases hSeen
          exact ⟨hAllows, rfl⟩
    | findOtp typeOtp userId =>
      cases hAnswer : (transactional env (.store (.findOtp typeOtp userId)) w).1 with
      | error _ =>
        rw [hAnswer] at hSeen
        exact absurd hSeen hNew
      | ok found =>
        rw [hAnswer] at hSeen
        cases found <;> exact absurd hSeen hNew
    | saveOtp _ | findRoles _ =>
      generalize (transactional env _ w).1 = r at hSeen
      cases r <;> exact absurd hSeen hNew
  | outside o =>
    generalize (transactional env _ w).1 = r at hSeen
    cases o <;> cases r <;> exact absurd hSeen hNew
  | transaction o => exact absurd hSeen hNew

theorem selects_id {id : String} {row : UserRow}
    (h : UserWhere.Selects env { id := some (.val id) } row = true) : env.uuid id = some row.id := by
  simp only [UserWhere.Selects, UserTable.emailCondition, UserTable.idCondition, Bool.true_and] at h
  cases hUuid : env.uuid id with
  | none =>
    rw [hUuid] at h
    cases h
  | some id' =>
    rw [hUuid, Option.map_some, Option.any_some, beq_iff_eq] at h
    rw [h]

theorem next_request (w : TxWorld) (o : Op) (r : Except Exception (services.Res o)) :
    ((protocol env).next γ w o r).request = γ.request := by
  cases o with
  | store o =>
    cases o with
    | findUser q => match r with
      | .ok (some _) => rfl
      | .ok none => rfl
      | .error _ => rfl
    | findOtp typeOtp userId => match r with
      | .ok (some _) => rfl
      | .ok none => rfl
      | .error _ => rfl
    | _ => cases r <;> rfl
  | outside o => cases o <;> cases r <;> rfl
  | transaction o => rfl

/-- What a permitted operation leaves in the ghost, between the world before it and the one after. -/
inductive Learns (env : Env) (γ : Conduct) (w w' : TxWorld) : Conduct → Prop
  | nothing : Learns env γ w w' γ
  | found {query : UserWhere} {row : UserRow} (manager : Option Tx) :
      γ.request.lookup env = some query → row ∈ (w.view env manager).users.rows →
      query.Selects env row = true → Learns env γ w w' { γ with seen := some row.entity }
  | opened {e : UserEntity} {new : UserRow} {users : UserTable} (manager : Option Tx) :
      γ.Opens env e → UserRow.ofEntity w.choice.uuid w.choice.now e = some new →
      users.rows = (w.view env manager).users.rows ++ [new] →
      Learns env γ w w' { γ with seen := some (new.returning e) }
  | code {seen : UserEntity} {code : OtpObject} : γ.seen = some seen →
      (transactional env (.store (.findOtp .LOGIN_OTP seen.id)) w).1 = .ok (some code) →
      Learns env γ w w' { γ with code := some code }
  | saved {e : OtpObject} : StoreOp.saveOtp e ∈ w'.carriedOut.map Write.op →
      Learns env γ w w' { γ with saved := e :: γ.saved }
  | roles {assignRoleModel : AssignRoleModel} {roles : List RoleRow} :
      γ.request = .assignRole assignRoleModel →
      (transactional env (.store (.findRoles assignRoleModel.rolesId)) w).1 = .ok roles →
      Learns env γ w w' { γ with roles }
  | signed {t : Issued} (sub : UserObject) (expiresIn : Nat) : t ∈ w'.outside.issued →
      t.payload = Outside.payload w.choice sub expiresIn → t.token = env.sign t.payload →
      Learns env γ w w' { γ with signed := t :: γ.signed }

theorem learns {w : TxWorld} {o : Op} (hAllows : (protocol env).allows γ o) :
    Learns env γ w (transactional env o w).2
      ((protocol env).next γ w o (transactional env o w).1) := by
  cases o with
  | store o =>
    cases o with
    | findUser query =>
      cases hAnswer : (transactional env (.store (.findUser query)) w).1 with
      | error _ => exact .nothing
      | ok answer =>
        cases answer with
        | none => exact .nothing
        | some e =>
          obtain ⟨row, manager, hFound, hSelects, rfl⟩ := findUser_answer hAnswer
          exact .found manager hAllows.2 hFound hSelects
    | saveUser e =>
      cases hAnswer : (transactional env (.store (.saveUser e)) w).1 with
      | error _ => exact .nothing
      | ok saved =>
        change γ.SavesUser env e at hAllows
        change Learns env γ w _ { γ with seen := γ.seen.or (some saved) }
        cases hSeen : γ.seen with
        | some seen =>
          rw [Option.some_or, ← hSeen]
          exact .nothing
        | none =>
          rw [SavesUser, hSeen] at hAllows
          obtain ⟨manager, new, users, hNew, hRows, rfl⟩ := opened_answer hAllows hAnswer
          exact .opened manager hAllows hNew hRows
    | findOtp typeOtp userId =>
      cases hAnswer : (transactional env (.store (.findOtp typeOtp userId)) w).1 with
      | error _ => exact .nothing
      | ok answer =>
        cases answer with
        | none => exact .nothing
        | some code =>
          obtain ⟨rfl, seen, hSeen, rfl⟩ := hAllows
          exact .code hSeen hAnswer
    | saveOtp e =>
      cases hAnswer : (transactional env (.store (.saveOtp e)) w).1 with
      | error _ => exact .nothing
      | ok _ => exact .saved (TxWorld.carriedOut_saveOtp hAnswer)
    | findRoles ids =>
      cases hAnswer : (transactional env (.store (.findRoles ids)) w).1 with
      | error _ => exact .nothing
      | ok roles =>
        obtain ⟨assignRoleModel, hRequest, rfl⟩ := hAllows
        exact .roles hRequest hAnswer
  | outside o =>
    cases o with
    | signAsync sub expiresIn =>
      cases hAnswer : (transactional env (.outside (.signAsync sub expiresIn)) w).1 with
      | error _ => exact .nothing
      | ok token =>
        obtain ⟨hToken, hIssued⟩ := TxWorld.signAsync_answer hAnswer
        refine .signed sub expiresIn ?_ rfl hToken
        rw [hIssued]
        exact List.mem_append_right _ List.mem_cons_self
    | _ => exact .nothing
  | transaction o => exact .nothing

end Answers

section Steps

theorem carried_tokens (row : UserRow) :
    (row.entity.accessToken = row.entity.accessToken ∧ row.entity.accessToken ≠ .undefined) ∧
      row.entity.refreshToken = row.entity.refreshToken ∧ row.entity.refreshToken ≠ .undefined :=
  ⟨⟨rfl, Js.ofOption_ne_undefined _⟩, rfl, Js.ofOption_ne_undefined _⟩

/-- What a lookup leaves in the ghost. -/
def Found (env : Env) (q : UserWhere) (γ γ' : Conduct) : Option UserEntity → Prop
  | some e => ∃ row : UserRow, q.Selects env row = true ∧ e = row.entity ∧ γ' = { γ with seen := some e }
  | none => γ' = γ

theorem goes_findUser {q : UserWhere} (hNew : γ.seen = none) (hLookup : γ.request.lookup env = some q) :
    Goes env γ (Async.findUser q) (Found env q γ) := by
  refine goes_perform (by exact ⟨hNew, hLookup⟩) fun w found hFound => ?_
  cases found with
  | none => rfl
  | some e =>
    obtain ⟨row, _, _, hSelects, hRow⟩ := findUser_answer hFound
    exact ⟨row, hSelects, hRow, rfl⟩

theorem goes_getUserByField {q : UserWhere} (hNew : γ.seen = none)
    (hLookup : γ.request.lookup env = some q) :
    Goes env γ (UserRepositoryImpl.getUserByField q) (Found env q γ) := by
  unfold UserRepositoryImpl.getUserByField
  split
  · exact goes_throw _
  · exact goes_findUser hNew hLookup

theorem goes_save {e : UserEntity} (he : γ.SavesUser env e) :
    Goes env γ (UserRepositoryImpl.save e) fun γ' saved =>
      γ' = { γ with seen := γ.seen.or (some saved) } :=
  goes_perform (by exact he) fun _ _ _ => rfl

theorem goes_signAsync {sub : UserObject} {expiresIn : Nat} (hSigns : γ.Signs sub expiresIn) :
    Goes env γ (Async.signAsync sub expiresIn) fun γ' token =>
      ∃ c, γ' = { γ with signed := ⟨token, Outside.payload c sub expiresIn⟩ :: γ.signed } :=
  goes_perform (by exact hSigns) fun w _ _ => ⟨w.choice, rfl⟩

/-- The ghost once two session tokens have been signed for the account it has seen. -/
def SignedBoth (γ : Conduct) (seen : UserEntity) (γ' : Conduct) (tokens : JWTTokens) : Prop :=
  ∃ a b : Issued, γ' = { γ with signed := b :: a :: γ.signed } ∧ tokens = ⟨a.token, b.token⟩ ∧
    a.Session seen AUTH.TIME_ACCESS_TOKEN ∧ b.Session seen AUTH.TIME_REFRESH_TOKEN

theorem goes_generateJWTTokens {seen : UserEntity} (hSeen : γ.seen = some seen) :
    Goes env γ (AuthService.generateJWTTokens { email := seen.email, id := seen.id })
      (γ.SignedBoth seen) := by
  refine goes_bind (goes_signAsync ⟨seen, hSeen, .inl ⟨rfl, .inl rfl⟩⟩) ?_
  rintro γ₁ access ⟨c, rfl⟩
  refine goes_bind (goes_signAsync ⟨seen, hSeen, .inl ⟨rfl, .inr rfl⟩⟩) ?_
  rintro γ₂ refresh ⟨c', rfl⟩
  exact goes_pure ⟨_, _, rfl, rfl, ⟨c, rfl⟩, ⟨c', rfl⟩⟩

/-- Session tokens of the account the request has seen, encrypted. -/
def Granted (env : Env) (γ : Conduct) (tokens : JWTTokens) : Prop :=
  ∃ seen ∈ γ.seen, ∃ a ∈ γ.signed, ∃ b ∈ γ.signed, a.Session seen AUTH.TIME_ACCESS_TOKEN ∧
    b.Session seen AUTH.TIME_REFRESH_TOKEN ∧
    ∃ salt salt', tokens = ⟨env.encrypt salt a.token, env.encrypt salt' b.token⟩

theorem goes_encryptString (str : String) :
    Goes env γ (Async.encryptString str) fun γ' encrypted =>
      γ' = γ ∧ ∃ salt, encrypted = env.encrypt salt str :=
  goes_perform (by trivial) fun w _ h => ⟨rfl, w.choice.salt, (Except.ok.inj h).symm⟩

theorem goes_handleUserLogin {user : UserModel} (hSeen : γ.seen = some user) :
    Goes env γ (AuthService.handleUserLogin user) (Granted env) := by
  refine goes_bind (goes_generateJWTTokens hSeen) ?_
  rintro γ₁ tokens ⟨a, b, rfl, rfl, hA, hB⟩
  refine goes_after (uses_perform (by trivial)) fun lastConnection => ?_
  rw [SqlGlobalMapper.mapClass_default]
  refine goes_bind (goes_save ?_) ?_
  · rw [SavesUser, hSeen]
    exact ⟨.inl rfl, ⟨rfl, rfl, rfl, rfl, rfl, rfl⟩, .inr ⟨a, by simp, rfl, hA⟩,
      .inr ⟨b, by simp, rfl, hB⟩, .inl rfl⟩
  rintro γ₂ saved rfl
  refine goes_bind (goes_encryptString _) ?_
  rintro γ₃ access ⟨rfl, salt, rfl⟩
  refine goes_bind (goes_encryptString _) ?_
  rintro γ₄ refresh ⟨rfl, salt', rfl⟩
  refine goes_pure ⟨user, ?_, a, by simp, b, by simp, hA, hB, salt, salt', rfl⟩
  rw [hSeen]
  rfl

theorem goes_handleFailedLoginAttempt {row : UserRow} (hSeen : γ.seen = some row.entity) :
    Goes env γ (AuthService.handleFailedLoginAttempt (some row.entity)) fun _ _ => True := by
  refine goes_bind (goes_save ?_) fun _ _ _ => goes_pure trivial
  rw [SqlGlobalMapper.mapClass_default, SqlGlobalMapper.mapClassMethod_entity, SavesUser, hSeen]
  exact ⟨.inl rfl, ⟨rfl, rfl, rfl, rfl, rfl, rfl⟩, .inl (carried_tokens row).1, .inl (carried_tokens row).2, .inl rfl⟩

theorem goes_validateUserCredentials {loginModel : LoginModel} (hNew : γ.seen = none)
    (hLookup : γ.request.lookup env = some { email := some (.val loginModel.email) }) :
    Goes env γ (AuthService.validateUserCredentials loginModel) fun γ' user =>
      ∃ row : UserRow, user = row.entity ∧ γ' = { γ with seen := some row.entity } := by
  refine goes_bind (goes_getUserByField hNew hLookup) fun γ₁ found hFound => ?_
  cases found with
  | none => exact goes_throw AuthService.invalidCredentials
  | some e =>
    obtain ⟨row, _, rfl, rfl⟩ := hFound
    have hCompare := quiet_of_among (performs_comparePasswords loginModel.password row.entity.password)
      (by decide)
    refine goes_after (uses_bind hCompare fun _ => trivial) fun failed => ?_
    split
    · exact goes_bind (goes_handleFailedLoginAttempt rfl) fun _ _ _ => goes_throw _
    · exact goes_pure ⟨row, SqlGlobalMapper.mapClassMethod_entity row, rfl⟩

theorem goes_generateOtp : Goes env γ OtpService.generateOtp fun γ' otpCode =>
    γ' = γ ∧ ∃ n < 900000, otpCode = toString (100000 + n) := by
  refine goes_bind (R := fun γ' n => γ' = γ ∧ n < 900000)
    (goes_perform (by trivial) fun w n h => ⟨rfl, ?_⟩) ?_
  · rw [← Except.ok.inj h]
    exact Nat.mod_lt _ (by decide)
  · rintro γ₁ n ⟨rfl, hn⟩
    exact goes_pure ⟨rfl, n, hn, rfl⟩

theorem goes_saveOtp {e : OtpObject} (he : γ.SavesOtp e) :
    Goes env γ (OtpRepositoryImpl.save e) fun γ' _ => γ' = { γ with saved := e :: γ.saved } :=
  goes_perform (by exact he) fun _ _ _ => rfl

theorem goes_sendEmail {mail : Mail} (hMails : γ.Mails mail) :
    Goes env γ (Async.sendEmail mail) fun γ' _ => γ' = γ :=
  goes_perform (by exact hMails) fun _ _ _ => rfl

theorem goes_sendOtpCode {user : UserModel} (hSeen : γ.seen = some user) :
    Goes env γ (OtpService.sendOtpCode .LOGIN_OTP user) fun _ _ => True := by
  refine goes_transactional (goes_bind goes_generateOtp ?_)
  rintro γ₁ otpCode ⟨rfl, n, hn, rfl⟩
  rw [SqlGlobalMapper.mapClass_default]
  refine goes_bind (goes_saveOtp (.inl ⟨user, hSeen, n, hn, rfl⟩)) ?_
  rintro γ₂ _ rfl
  refine goes_bind (goes_sendEmail ⟨user, hSeen, .inl ⟨_, List.mem_cons_self, rfl⟩⟩) ?_
  exact fun _ _ _ => goes_pure trivial

/-- What has been seen and signed is as it was. -/
def Alike (γ γ' : Conduct) : Prop :=
  γ'.request = γ.request ∧ γ'.seen = γ.seen ∧ γ'.signed = γ.signed

theorem goes_checkOtpCodeIsValid {seen : UserEntity} (otpCode : String) (hSeen : γ.seen = some seen) :
    Goes env γ (OtpService.checkOtpCodeIsValid .LOGIN_OTP otpCode seen.id) fun γ' _ => γ.Alike γ' := by
  refine goes_bind (R := fun γ' found => match found with
    | some code => γ' = { γ with code := some code }
    | none => γ' = γ) (goes_perform (by exact ⟨rfl, seen, hSeen, rfl⟩) fun w found _ => ?_) ?_
  · cases found <;> rfl
  · intro γ₁ found hFound
    cases found with
    | none => exact goes_throw _
    | some code =>
      cases hFound
      simp only
      split
      · refine goes_bind (goes_saveOtp (.inr ⟨code, rfl, rfl⟩)) ?_
        rintro γ₂ _ rfl
        exact goes_pure ⟨rfl, rfl, rfl⟩
      · exact goes_pure ⟨rfl, rfl, rfl⟩

theorem goes_handleOtpIfRequired {user : UserModel} (loginModel : LoginModel)
    (hSeen : γ.seen = some user) :
    Goes env γ (AuthService.handleOtpIfRequired user loginModel) fun γ' _ => γ.Alike γ' := by
  have hNeeds := quiet_of_among (performs_validateNeedOtpToLogin user) (by decide)
  refine goes_after hNeeds fun needs => ?_
  split
  · exact goes_bind (goes_sendOtpCode hSeen) fun _ _ _ => goes_throw _
  · refine goes_after hNeeds fun needs' => ?_
    split
    · refine goes_bind (goes_checkOtpCodeIsValid _ hSeen) fun γ₁ isValid hAlike => ?_
      split
      · exact goes_throw _
      · exact goes_pure hAlike
    · exact goes_pure ⟨rfl, rfl, rfl⟩

theorem goes_loginUser {loginModel : LoginModel} (hNew : γ.seen = none)
    (hLookup : γ.request.lookup env = some { email := some (.val loginModel.email) }) :
    Goes env γ (AuthService.loginUser loginModel) (Granted env) := by
  refine goes_bind (goes_validateUserCredentials hNew hLookup) ?_
  rintro γ₁ user ⟨row, rfl, rfl⟩
  refine goes_after (quiet_of_among (performs_checkUserStatus _) (by decide)) fun _ => ?_
  refine goes_bind (goes_handleOtpIfRequired _ rfl) ?_
  rintro γ₂ _ ⟨_, hSeen, _⟩
  exact goes_handleUserLogin hSeen

/-- The link to unlock the account the request has seen. -/
def Linked (γ : Conduct) (callbackUrl : String) : Prop :=
  ∃ seen ∈ γ.seen, ∃ t ∈ γ.signed, t.Link seen ∧ callbackUrl = unlockLink t.token

theorem goes_generateJwtToken {user : UserModel} (hSeen : γ.seen = some user) :
    Goes env γ (AuthService.generateJwtToken user) fun γ' token =>
      ∃ t : Issued, t.token = token ∧ t.Link user ∧ γ' = { γ with signed := t :: γ.signed } := by
  refine goes_mono ?_ (goes_signAsync ⟨user, hSeen, .inr ⟨rfl, rfl⟩⟩)
  rintro γ' token ⟨c, rfl⟩
  exact ⟨_, rfl, ⟨c, rfl⟩, rfl⟩

theorem goes_unlockAccount {loginModel : LoginModel} (hNew : γ.seen = none)
    (hLookup : γ.request.lookup env = some { email := some (.val loginModel.email) }) :
    Goes env γ (AuthService.unlockAccount loginModel) Linked := by
  refine goes_bind (goes_validateUserCredentials hNew hLookup) ?_
  rintro γ₁ user ⟨row, rfl, rfl⟩
  split
  · refine goes_bind (goes_generateJwtToken rfl) ?_
    rintro γ₂ token ⟨t, rfl, hLink, rfl⟩
    exact goes_pure ⟨_, rfl, t, List.mem_cons_self, hLink, rfl⟩
  · exact goes_throw _

theorem goes_updateByToken {setFlag : UserEntity → UserEntity} {token : String} (hNew : γ.seen = none)
    (hLookup : γ.request.lookup env = (env.decode token).bind Payload.lookup)
    (hSets : ∀ (γ : Conduct) (row : UserRow), γ.Updates env row.entity (setFlag row.entity)) :
    Goes env γ (AuthService.updateByToken setFlag token) fun _ _ => True := by
  refine goes_transactional (goes_rethrow (fun _ => .verifingAccount) ?_)
  refine goes_bind (R := fun γ' payload => γ' = γ ∧ payload = env.decode token)
    (goes_perform (by trivial) fun w payload h => ⟨rfl, (Except.ok.inj h).symm⟩) ?_
  rintro γ₁ payload ⟨rfl, hDecode⟩
  match payload, hDecode with
  | none, _ => exact goes_throw .typeError
  | some ⟨.undefined, _, _⟩, _ => exact goes_throw .typeError
  | some ⟨.null, _, _⟩, _ => exact goes_throw .typeError
  | some ⟨.val sub, _, _⟩, hDecode =>
    rw [← hDecode] at hLookup
    refine goes_bind (R := fun γ' sub' => γ' = γ₁ ∧ sub' = sub) (goes_pure ⟨rfl, rfl⟩) ?_
    rintro γ₂ _ ⟨rfl, rfl⟩
    refine goes_bind (goes_getUserByField hNew hLookup) fun γ₃ found hFound => ?_
    cases found with
    | none => exact goes_throw _
    | some e =>
      obtain ⟨row, _, rfl, rfl⟩ := hFound
      exact goes_bind (goes_save (hSets _ row)) fun _ _ _ => goes_pure trivial

theorem goes_refreshToken {loginModel : LoginModel} (hNew : γ.seen = none)
    (hLookup : γ.request.lookup env = some { email := some (.val loginModel.email) }) :
    Goes env γ (AuthService.refreshToken loginModel) fun _ _ => True := by
  refine goes_bind (goes_getUserByField hNew hLookup) fun γ₁ found hFound => ?_
  cases found with
  | none => exact goes_throw _
  | some e =>
    obtain ⟨row, _, rfl, rfl⟩ := hFound
    simp only
    split
    · exact goes_throw _
    · refine goes_rethrow (fun _ => AuthService.unauthorized) ?_
      refine goes_bind (goes_generateJWTTokens rfl) ?_
      rintro γ₂ tokens ⟨a, b, rfl, rfl, hA, _⟩
      refine goes_bind (goes_save (e := { row.entity with accessToken := .val a.token }) ?_)
        fun _ _ _ => goes_pure trivial
      exact ⟨.inl rfl, ⟨rfl, rfl, rfl, rfl, rfl, rfl⟩, .inr ⟨a, by simp, rfl, hA⟩,
        .inl (carried_tokens row).2, .inl rfl⟩

theorem goes_assignRole {assignRoleModel : AssignRoleModel} (hNew : γ.seen = none)
    (hRequest : γ.request = .assignRole assignRoleModel) :
    Goes env γ (AuthService.assignRole assignRoleModel) fun _ _ => True := by
  refine goes_bind (goes_perform (R := fun γ' roles => γ' = { γ with roles })
    (by exact ⟨_, hRequest, rfl⟩) fun _ _ _ => rfl) ?_
  rintro γ₁ roles rfl
  have hLookup : γ.request.lookup env = some { id := some (.val assignRoleModel.userId) } := by
    rw [hRequest]
    rfl
  refine goes_bind (goes_findUser (by exact hNew) (by exact hLookup)) fun γ₂ found hFound => ?_
  split
  · exact goes_throw _
  · cases found with
    | none => exact goes_throw _
    | some e =>
      obtain ⟨row, hSelects, rfl, rfl⟩ := hFound
      refine goes_bind (goes_save (e := { row.entity with
        roles := .val roles, id := .val assignRoleModel.userId }) ?_) fun _ _ _ => goes_pure trivial
      refine ⟨.inr ⟨_, _, rfl, selects_id hSelects, rfl⟩, ⟨rfl, rfl, rfl, rfl, rfl, rfl⟩,
        .inl (carried_tokens row).1, .inl (carried_tokens row).2, ?_⟩
      exact .inr ⟨assignRoleModel, hRequest, rfl, rfl⟩

theorem goes_encriptPassword (user : UserModel) :
    Goes env γ (UserModel.encriptPassword user) fun γ' model =>
      γ' = γ ∧ ∃ password, model = { user with password := .val password } :=
  goes_after (quiet_of_among (performs_hashPassword _) (by decide)) fun password =>
    goes_pure ⟨rfl, password, rfl⟩

theorem goes_createUser {dto : CreateUserDto} (hNew : γ.seen = none)
    (hRequest : γ.request = .createUser dto) :
    Goes env γ (UserController.createUser dto) fun _ _ => True := by
  refine goes_transactional (goes_bind (goes_getUserByField hNew ?_) fun γ₁ found hFound => ?_)
  · rw [hRequest]
    rfl
  cases found with
  | some _ => exact goes_throw _
  | none =>
    cases hFound
    refine goes_bind (goes_encriptPassword _) ?_
    rintro γ₂ _ ⟨rfl, password, rfl⟩
    refine goes_bind (goes_save ?_) ?_
    · rw [SqlGlobalMapper.mapClass_default, SavesUser, hNew]
      exact ⟨rfl, ⟨dto.email, by rw [hRequest]; rfl, rfl⟩, rfl, rfl, rfl⟩
    rintro γ₃ saved rfl
    have hSaved : Conduct.seen { γ₂ with seen := γ₂.seen.or (some saved) } = some saved := by rw [hNew]; rfl
    refine goes_bind (R := fun γ' callbackUrl => γ'.seen = some saved ∧
      ∃ t ∈ γ'.signed, t.Link saved ∧ callbackUrl = verifyLink t.token)
      (goes_rethrow (fun _ => .badRequest "Error providing link verify email")
        (goes_bind (goes_generateJwtToken hSaved) ?_)) ?_
    · rintro γ₄ _ ⟨t, rfl, hLink, rfl⟩
      exact goes_pure ⟨hSaved, t, List.mem_cons_self, hLink, rfl⟩
    · rintro γ₅ _ ⟨hSeen, t, ht, hLink, rfl⟩
      exact goes_bind (goes_sendEmail ⟨saved, hSeen, .inr ⟨t, ht, hLink, rfl⟩⟩) fun _ _ _ =>
        goes_pure trivial

theorem goes_findOrCreateGoogleUser {profile : GoogleProfile} (hNew : γ.seen = none)
    (hRequest : γ.request = .googleLoginUser (some profile)) :
    Goes env γ (AuthService.findOrCreateGoogleUser env.cases profile) fun γ' user =>
      γ'.seen = some user := by
  refine goes_bind (goes_getUserByField hNew ?_) fun γ₁ found hFound => ?_
  · rw [hRequest]
    rfl
  cases found with
  | some e =>
    obtain ⟨row, _, rfl, rfl⟩ := hFound
    exact goes_pure rfl
  | none =>
    cases hFound
    refine goes_after (quiet_of_among (performs_hashPassword _) (by decide)) fun password =>
      goes_mono ?_ (goes_save ?_)
    · rintro γ' saved rfl
      rw [hNew]
      rfl
    · rw [SqlGlobalMapper.mapClass_default, SavesUser, hNew]
      exact ⟨rfl, ⟨_, by rw [hRequest]; rfl, rfl⟩, rfl, rfl, rfl⟩

theorem goes_googleLoginUser {user : Option GoogleProfile} (hNew : γ.seen = none)
    (hRequest : γ.request = .googleLoginUser user) :
    Goes env γ (AuthService.googleLoginUser env.cases user) (Granted env) := by
  cases user with
  | none => exact goes_throw _
  | some profile =>
    refine goes_bind (goes_findOrCreateGoogleUser hNew hRequest) fun γ₁ user hSeen => ?_
    rw [SqlGlobalMapper.mapClass_default]
    exact goes_handleUserLogin hSeen

end Steps

/-- Every request answers in its own kind, and for the account it has seen. -/
def Ended (env : Env) (γ : Conduct) : Request → Response → Prop
  | .loginUser _, .tokens tokens => γ.Granted env tokens
  | .googleLoginUser _, .tokens tokens => γ.Granted env tokens
  | .unlockAccount _, .callbackUrl callbackUrl => γ.Linked callbackUrl
  | .createUser _, .user _ => True
  | .assignRole _, .user _ => True
  | .refreshToken _, .done => True
  | .verifyAccount _, .account _ => True
  | .unlockAccountToken _, .account _ => True
  | _, _ => False

/-- Every request keeps to one account, whatever the others do meanwhile. -/
theorem goes_serve (env : Env) (q : Request) :
    Goes env { request := q } (serve env.cases q) fun γ a => γ.Ended env q a := by
  cases q with
  | createUser dto => exact goes_bind (goes_createUser rfl rfl) fun _ _ _ => goes_pure trivial
  | loginUser loginModel => exact goes_bind (goes_loginUser rfl rfl) fun _ _ h => goes_pure h
  | unlockAccount loginModel => exact goes_bind (goes_unlockAccount rfl rfl) fun _ _ h => goes_pure h
  | googleLoginUser user => exact goes_bind (goes_googleLoginUser rfl rfl) fun _ _ h => goes_pure h
  | refreshToken loginModel =>
    exact goes_bind (goes_refreshToken rfl rfl) fun _ _ _ => goes_pure trivial
  | assignRole assignRoleModel =>
    exact goes_bind (goes_assignRole rfl rfl) fun _ _ _ => goes_pure trivial
  | verifyAccount token =>
    refine goes_bind (goes_updateByToken rfl rfl fun γ row => ?_) fun _ _ _ => goes_pure trivial
    exact ⟨.inl rfl, ⟨rfl, rfl, rfl, rfl, rfl, rfl⟩, .inl (carried_tokens row).1,
      .inl (carried_tokens row).2, .inl rfl⟩
  | unlockAccountToken token =>
    refine goes_bind (goes_updateByToken rfl rfl fun γ row => ?_) fun _ _ _ => goes_pure trivial
    exact ⟨.inl rfl, ⟨rfl, rfl, rfl, rfl, rfl, rfl⟩, .inl (carried_tokens row).1,
      .inl (carried_tokens row).2, .inl rfl⟩

end Conduct

section Pools
variable {ι : Type}

abbrev Requests (ι : Type) := Pool services Exception TxWorld Response Conduct ι

namespace Requests

def started (env : Env) (w : TxWorld) (requests : ι → Request) : Requests ι where
  world := w
  threads i := ⟨serve env.cases (requests i), { request := requests i }⟩

/-- What every request promises of its answer. -/
def Promise (env : Env) (requests : ι → Request) (i : ι) (γ : Conduct)
    (r : Except Exception Response) : Prop := ∀ a, r = .ok a → γ.Ended env (requests i) a

abbrev Holds (env : Env) (requests : ι → Request) (K : TxWorld → Prop) (J : TxWorld → Conduct → Prop)
    (p : Requests ι) : Prop :=
  Maintained (transactional env) (Conduct.protocol env) (Promise env requests) K J p

variable {env : Env} {w : TxWorld} {requests : ι → Request} {K : TxWorld → Prop}
  {J : TxWorld → Conduct → Prop}

theorem holds_started (hK : K w) (hJ : ∀ i, J w { request := requests i }) :
    Holds env requests K J (started env w requests) :=
  ⟨fun i => Conduct.goes_serve env (requests i), hK, hJ⟩

theorem request_run [DecidableEq ι] (env : Env) (w : TxWorld) (requests : ι → Request)
    (schedule : List ι) (i : ι) :
    (((started env w requests).run (transactional env) (Conduct.protocol env)
      schedule).threads i).ghost.request = requests i :=
  Pool.unchanged (p := started env w requests) (F := Conduct.request)
    (fun _ _ o r => Conduct.next_request _ o r) schedule i

end Requests

end Pools

end Manejaplus
