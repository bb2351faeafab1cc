import Manejaplus.Transactions.AccountsApart

/-! # Whose session a stored token is

A token column only ever holds a token that was signed for its own row, and a
login is answered with tokens of the account it named: no interleaving, and no
transaction that a statement strays into, gives anyone another's session.
-/
namespace Manejaplus
open Effect Prog Conduct
set_option autoImplicit false

/-- Every session token of the object has been signed for this account. -/
structure UserObject.OwnSession (issued : List Issued) (account e : UserObject) : Prop where
  access : ∀ token, e.accessToken = .val token →
    ∃ t ∈ issued, t.token = token ∧ t.Session account AUTH.TIME_ACCESS_TOKEN
  refresh : ∀ token, e.refreshToken = .val token →
    ∃ t ∈ issued, t.token = token ∧ t.Session account AUTH.TIME_REFRESH_TOKEN

def UserRow.OwnSession (issued : List Issued) (row : UserRow) : Prop :=
  UserObject.OwnSession issued row.entity row.entity

/-- Every id that is stored, or comes fresh, is spelled as the database itself spells it. -/
structure CanonicalUuids (env : Env) (w : TxWorld) : Prop where
  stored : ∀ row ∈ w.base.users.rows, env.uuid row.id = some row.id
  fresh : ∀ n, env.uuid (w.outside.tape n).uuid = some (w.outside.tape n).uuid

/-- The e-mail that a request asks to be logged in under. -/
def Request.SignsIn (cases : CaseMapping) (email : String) : Request → Prop
  | .loginUser loginModel => email = loginModel.email
  | .googleLoginUser user =>
    ∃ profile ∈ user, email = profile.email ∨ email = cases.toLowerCase profile.email
  | _ => False

/-- Tokens of the account with this e-mail and id, encrypted. -/
def JWTTokens.Of (env : Env) (issued : List Issued) (email id : String) (tokens : JWTTokens) : Prop :=
  ∃ a ∈ issued, ∃ b ∈ issued,
    a.Session { email := .val email, id := .val id } AUTH.TIME_ACCESS_TOKEN ∧
    b.Session { email := .val email, id := .val id } AUTH.TIME_REFRESH_TOKEN ∧
    ∃ salt salt', tokens = ⟨env.encrypt salt a.token, env.encrypt salt' b.token⟩

theorem JWTTokens.Of.mono {env : Env} {issued issued' : List Issued} {email id : String}
    {tokens : JWTTokens} (hIssued : ∀ t ∈ issued, t ∈ issued') (h : tokens.Of env issued email id) :
    tokens.Of env issued' email id := by
  obtain ⟨a, ha, b, hb, hTokens⟩ := h
  exact ⟨a, hIssued a ha, b, hIssued b hb, hTokens⟩

namespace Requests
variable {ι : Type}

/-- The statement that the request performs next is a lookup that finds this row, or the insertion
of it. -/
def Meets (env : Env) (p : Requests ι) (i : ι) (row : UserRow) : Prop :=
  (∃ query k, (p.threads i).prog = .op (.store (.findUser query)) k ∧
    (transactional env (.store (.findUser query)) p.world).1 = .ok (some row.entity) ∧
      ∃ manager, row ∈ (p.world.view env manager).users.rows) ∨
  ∃ e k, (p.threads i).prog = .op (.store (.saveUser e)) k ∧
    (transactional env (.store (.saveUser e)) p.world).1 = .ok (row.returning e) ∧
      UserRow.ofEntity p.world.choice.uuid p.world.choice.now e = some row ∧
        ∃ (manager : Option Tx) (users : UserTable),
          users.rows = (p.world.view env manager).users.rows ++ [row]

/-- In the course of the run the request has met this row. -/
def HasMet [DecidableEq ι] (env : Env) (p : Requests ι) (schedule : List ι) (i : ι) (row : UserRow) :
    Prop :=
  ∃ earlier, earlier ++ [i] <+: schedule ∧
    Meets env (p.run (transactional env) (protocol env) earlier) i row

end Requests

/-- A token column holds the row's own session, and a login is answered with tokens for the row that
it has found under the e-mail it named, or has opened. -/
structure SessionsOwn {ι : Type} [DecidableEq ι] (env : Env) (start : Requests ι)
    (requests : ι → Request) (schedule : List ι) (p : Requests ι) : Prop where
  stored : ∀ manager, ∀ row ∈ (p.world.view env manager).users.rows,
    row.OwnSession p.world.outside.issued
  granted : ∀ i tokens, (p.threads i).prog.result = some (.ok (.tokens tokens)) →
    ∃ row, start.HasMet env schedule i row ∧ (requests i).SignsIn env.cases row.email ∧
      tokens.Of env p.world.outside.issued row.email row.id

namespace OwnSession
variable {env : Env} {issued issued' : List Issued} {row : UserRow} {db : Database}

/-- A save that hands a row no token but its own. -/
def Hands (env : Env) (issued : List Issued) : StoreOp → Prop
  | .saveUser e =>
    (e.id = .undefined ∧ e.accessToken = .undefined ∧ e.refreshToken = .undefined) ∨
    ∃ id email, env.uuid id = some id ∧ e.email = .val email ∧
      (e.id = .val id ∨ ∃ text, e.id = .val text ∧ env.uuid text = some id) ∧
      e.accessToken ≠ .undefined ∧ e.refreshToken ≠ .undefined ∧
      UserObject.OwnSession issued { email := .val email, id := .val id } e
  | _ => True

/-- The rows of the database hold their own sessions, under ids as the database writes them. -/
def HoldsOwn (env : Env) (issued : List Issued) (db : Database) : Prop :=
  ∀ row ∈ db.users.rows, row.OwnSession issued ∧ env.uuid row.id = some row.id

section Statements

theorem session_mono {account e : UserObject} (hIssued : issued ⊆ issued')
    (h : UserObject.OwnSession issued account e) : UserObject.OwnSession issued' account e where
  access token hToken := by
    obtain ⟨t, ht, hSame⟩ := h.access token hToken
    exact ⟨t, hIssued ht, hSame⟩
  refresh token hToken := by
    obtain ⟨t, ht, hSame⟩ := h.refresh token hToken
    exact ⟨t, hIssued ht, hSame⟩

theorem hands_mono {o : StoreOp} (hIssued : issued ⊆ issued') (h : Hands env issued o) :
    Hands env issued' o := by
  cases o with
  | saveUser e =>
    obtain hNew | ⟨id, email, hUuid, hEmail, hId, hAccess, hRefresh, hOwn⟩ := h
    · exact .inl hNew
    · exact .inr ⟨id, email, hUuid, hEmail, hId, hAccess, hRefresh, session_mono hIssued hOwn⟩
  | _ => trivial

theorem keeps_mono (hIssued : issued ⊆ issued') (h : HoldsOwn env issued db) : HoldsOwn env issued' db :=
  fun row hRow => ⟨session_mono hIssued (h row hRow).1, (h row hRow).2⟩

theorem ownSession_written {e : UserEntity} {email id : String} {column column' : Option String}
    (hAccess : row.accessToken = e.accessToken.write column)
    (hRefresh : row.refreshToken = e.refreshToken.write column')
    (hAccess' : e.accessToken ≠ .undefined) (hRefresh' : e.refreshToken ≠ .undefined)
    (hId : row.id = id) (hEmail : row.email = email)
    (hOwn : UserObject.OwnSession issued { email := .val email, id := .val id } e) :
    row.OwnSession issued := by
  have hColumn : ∀ {v : Js String} {c : Option String} {token : String}, v ≠ .undefined →
      Js.ofOption (v.write c) = .val token → v = .val token := by
    intro v c token hNe hToken
    cases v with
    | undefined => exact absurd rfl hNe
    | null => cases hToken
    | val a => exact hToken
  subst hId hEmail
  constructor
  · intro token hToken
    rw [UserRow.entity, hAccess] at hToken
    exact hOwn.access token (hColumn hAccess' hToken)
  · intro token hToken
    rw [UserRow.entity, hRefresh] at hToken
    exact hOwn.refresh token (hColumn hRefresh' hToken)

theorem ownSession_none (hAccess : row.accessToken = none) (hRefresh : row.refreshToken = none) :
    row.OwnSession issued := by
  constructor
  · intro token hToken
    rw [UserRow.entity, hAccess] at hToken
    cases hToken
  · intro token hToken
    rw [UserRow.entity, hRefresh] at hToken
    cases hToken

theorem ofEntity_columns {id : String} {now : Time} {e : UserEntity}
    (h : UserRow.ofEntity id now e = some row) : e.email = .val row.email ∧ row.id = id ∧
      row.accessToken = e.accessToken.write none ∧ row.refreshToken = e.refreshToken.write none := by
  simp only [UserRow.ofEntity, Option.bind_eq_bind, Option.bind_eq_some_iff] at h
  obtain ⟨name, _, email, hEmail, password, _, status, _, maintainSession, _, hRow⟩ := h
  cases hRow
  exact ⟨Js.required_eq_some hEmail, rfl, rfl, rfl⟩

theorem write_tokens {row' : UserRow} {e : UserEntity} (h : row.write e = some row') :
    row'.accessToken = e.accessToken.write row.accessToken ∧
      row'.refreshToken = e.refreshToken.write row.refreshToken := by
  obtain ⟨_, _, _, _, _, _, _, _, _, _, _, _, rfl⟩ := UserRow.write_eq_some h
  exact ⟨rfl, rfl⟩

theorem keeps_saveUser {c : Choice} {e : UserEntity}
    (hFresh : env.uuid c.uuid = some c.uuid) (hHands : Hands env issued (.saveUser e))
    (h : HoldsOwn env issued db) : HoldsOwn env issued (db.exec env c (.saveUser e)).2 := by
  have hSaved := exec_saveUser env c db e
  generalize (db.exec env c (.saveUser e)).1 = r, (db.exec env c (.saveUser e)).2 = db' at hSaved
  cases hSaved with
  | refused => exact h
  | @updated old new users updatedAt hOld hOwnId hWrite hRows =>
    intro row hRow
    rw [hRows] at hRow
    obtain ⟨r, hr, rfl⟩ := List.mem_map.mp hRow
    split
    · have hNewId : new.id = old.id := (UserRow.write_id hWrite).1
      obtain ⟨hNone, _⟩ | ⟨id, email, hUuid, hEmail, hId, hAccess, hRefresh, hOwn⟩ := hHands
      · rw [hNone] at hOwnId
        cases hOwnId
      have hSame : old.id = id := by
        obtain hId | ⟨text, hText, hReads⟩ := hId
        · rw [hOwnId] at hId
          exact Js.val.inj hId
        · cases hOwnId.symm.trans hText
          exact Option.some.inj ((h old hOld).2.symm.trans hReads)
      have hNewEmail : new.email = email := UserRow.write_email hWrite hEmail
      obtain ⟨hAccessColumn, hRefreshColumn⟩ := write_tokens hWrite
      have hTouched : UserRow.OwnSession issued { new with updatedAt } :=
        ownSession_written hAccessColumn hRefreshColumn hAccess hRefresh (hNewId.trans hSame)
          hNewEmail hOwn
      refine ⟨hTouched, ?_⟩
      change env.uuid new.id = some new.id
      rw [hNewId, hSame, hUuid]
    · exact h r hr
  | @inserted id new users hNewId hInsert hRows =>
    intro row hRow
    rw [hRows] at hRow
    obtain hOld | hNew := List.mem_append.mp hRow
    · exact h row hOld
    rw [List.mem_singleton.mp hNew]
    obtain ⟨hEmailColumn, hIdColumn, hAccessColumn, hRefreshColumn⟩ := ofEntity_columns hInsert
    obtain ⟨hNone, hAccess, hRefresh⟩ | ⟨id', email, hUuid, hEmail, hId, hAccess, hRefresh, hOwn⟩ := hHands
    · rw [UserEntity.newId, hNone] at hNewId
      cases hNewId
      rw [hAccess] at hAccessColumn
      rw [hRefresh] at hRefreshColumn
      exact ⟨ownSession_none hAccessColumn hRefreshColumn, by rw [hIdColumn, hFresh]⟩
    · have hSame : id = id' := by
        obtain hId | ⟨text, hText, hReads⟩ := hId
        · rw [UserEntity.newId, hId] at hNewId
          exact Option.some.inj (hNewId.symm.trans hUuid)
        · rw [UserEntity.newId, hText] at hNewId
          exact Option.some.inj (hNewId.symm.trans hReads)
      refine ⟨ownSession_written hAccessColumn hRefreshColumn hAccess hRefresh
        (hIdColumn.trans hSame) ?_ hOwn, by rw [hIdColumn, hSame, hUuid]⟩
      exact Js.val.inj (hEmailColumn.symm.trans hEmail)

end Statements

section Requests
variable {start w : TxWorld} {γ : Conduct}

/-- What has been saved so far gives no row another's session. -/
structure Sound (env : Env) (start w : TxWorld) : Prop where
  base : w.base = start.base
  issued : start.outside.issued ⊆ w.outside.issued
  fresh : ∀ n, env.uuid (w.outside.tape n).uuid = some (w.outside.tape n).uuid
  hands : ∀ item ∈ w.carriedOut, Hands env w.outside.issued item.op ∧
    env.uuid item.choice.uuid = some item.choice.uuid

/-- The e-mail may be that of the account the request is for. -/
def Reaches (env : Env) (q : Request) (email : String) : Prop :=
  (∃ query ∈ q.lookup env, ∀ x, query.email = some (.val x) → email = x) ∨
    q.newEmail env.cases = some email

/-- What a request has signed is issued, and the account it has seen holds its own session. -/
structure Honest (env : Env) (w : TxWorld) (γ : Conduct) : Prop where
  signed : ∀ t ∈ γ.signed, t ∈ w.outside.issued
  seen : ∀ seen ∈ γ.seen, ∃ id email, seen.id = .val id ∧ seen.email = .val email ∧
    env.uuid id = some id ∧ UserObject.OwnSession w.outside.issued seen seen ∧
    Reaches env γ.request email

theorem Sound.keeps (hStart : HoldsOwn env start.outside.issued start.base) (h : Sound env start w)
    (manager : Option Tx) : HoldsOwn env w.outside.issued (w.view env manager) := by
  apply TxWorld.view_induction
  · rw [h.base]
    exact keeps_mono h.issued hStart
  · intro item hItem db hdb
    obtain ⟨hHands, hFresh⟩ := h.hands item hItem
    generalize hOp : item.op = o at hHands
    cases o with
    | saveUser e => exact keeps_saveUser hFresh hHands hdb
    | saveOtp e =>
      have hUsers : (db.exec env item.choice (.saveOtp e)).2.users = db.users := by
        have hSaved := exec_saveOtp env item.choice db e
        generalize (db.exec env item.choice (.saveOtp e)).1 = r,
          (db.exec env item.choice (.saveOtp e)).2 = db' at hSaved
        cases hSaved <;> rfl
      rwa [HoldsOwn, hUsers]
    | _ =>
      rw [exec_unsaved (fun _ h => by cases h) fun _ h => by cases h]
      exact hdb

/-- The tokens in an object that is saved are those read with it, or new ones of its account. -/
theorem ownSession_updates {seen e : UserEntity} {id email : String} (hId : seen.id = .val id)
    (hEmail : seen.email = .val email) (hSigned : ∀ t ∈ γ.signed, t ∈ issued)
    (hSeen : UserObject.OwnSession issued seen seen) (h : γ.Updates env seen e) :
    UserObject.OwnSession issued { email := .val email, id := .val id } e ∧
      e.accessToken ≠ .undefined ∧ e.refreshToken ≠ .undefined := by
  have hAccount : ∀ {t : Issued} {n : Nat}, t.Session seen n →
      t.Session { email := .val email, id := .val id } n := by
    rintro t n ⟨c, hPayload⟩
    exact ⟨c, by rw [hPayload, hId, hEmail]⟩
  refine ⟨⟨fun token hToken => ?_, fun token hToken => ?_⟩, ?_, ?_⟩
  · obtain ⟨hSame, _⟩ | ⟨t, ht, hNew, hSession⟩ := h.accessToken
    · obtain ⟨t, ht, rfl, hSession⟩ := hSeen.access token (hSame.symm.trans hToken)
      exact ⟨t, ht, rfl, hAccount hSession⟩
    · exact ⟨t, hSigned t ht, Js.val.inj (hNew.symm.trans hToken), hAccount hSession⟩
  · obtain ⟨hSame, _⟩ | ⟨t, ht, hNew, hSession⟩ := h.refreshToken
    · obtain ⟨t, ht, rfl, hSession⟩ := hSeen.refresh token (hSame.symm.trans hToken)
      exact ⟨t, ht, rfl, hAccount hSession⟩
    · exact ⟨t, hSigned t ht, Js.val.inj (hNew.symm.trans hToken), hAccount hSession⟩
  · obtain ⟨hSame, hNe⟩ | ⟨t, _, hNew, _⟩ := h.accessToken
    · rwa [hSame]
    · rw [hNew]
      exact fun h => by cases h
  · obtain ⟨hSame, hNe⟩ | ⟨t, _, hNew, _⟩ := h.refreshToken
    · rwa [hSame]
    · rw [hNew]
      exact fun h => by cases h

theorem hands_allowed {o : StoreOp} (h : Honest env w γ)
    (hAllows : (protocol env).allows γ (.store o)) : Hands env w.outside.issued o := by
  cases o with
  | saveUser e =>
    change γ.SavesUser env e at hAllows
    unfold SavesUser at hAllows
    cases hSeen : γ.seen with
    | none =>
      rw [hSeen] at hAllows
      exact .inl ⟨hAllows.id, hAllows.accessToken, hAllows.refreshToken⟩
    | some seen =>
      rw [hSeen] at hAllows
      obtain ⟨id, email, hId, hEmail, hUuid, hOwn, _⟩ := h.seen seen hSeen
      obtain ⟨hSession, hAccess, hRefresh⟩ := ownSession_updates hId hEmail h.signed hOwn hAllows
      refine .inr ⟨id, email, hUuid, hAllows.carries.2.1.trans hEmail, ?_, hAccess, hRefresh, hSession⟩
      obtain hSame | ⟨text, id', hText, hReads, hId'⟩ := hAllows.id
      · exact .inl (hSame.trans hId)
      · cases hId.symm.trans hId'
        exact .inr ⟨text, hText, hReads⟩
  | _ => trivial

theorem sound_op {o : Op} (hSound : Sound env start w) (h : Honest env w γ)
    (hAllows : (protocol env).allows γ o) : Sound env start (transactional env o w).2 := by
  have hGrows : w.outside.issued ⊆ (transactional env o w).2.outside.issued := TxWorld.issued_grows o
  refine ⟨(TxWorld.base_kept o).trans hSound.base, fun t ht => hGrows (hSound.issued ht), fun n => ?_, ?_⟩
  · obtain ⟨k, hTape⟩ := TxWorld.tape_after env w o
    rw [hTape]
    exact hSound.fresh _
  · intro item hItem
    obtain hOld | ⟨o', rfl, rfl⟩ := TxWorld.mem_carriedOut hItem
    · exact ⟨hands_mono hGrows (hSound.hands item hOld).1, (hSound.hands item hOld).2⟩
    · exact ⟨hands_mono hGrows (hands_allowed h hAllows), hSound.fresh 0⟩

theorem honest_mono {w' : TxWorld} (hIssued : w.outside.issued ⊆ w'.outside.issued)
    (h : Honest env w γ) : Honest env w' γ where
  signed t ht := hIssued (h.signed t ht)
  seen seen hSeen := by
    obtain ⟨id, email, hId, hEmail, hUuid, hOwn, hReaches⟩ := h.seen seen hSeen
    exact ⟨id, email, hId, hEmail, hUuid, session_mono hIssued hOwn, hReaches⟩

theorem reaches_found {query : UserWhere} {found : UserRow} {q : Request}
    (hLookup : q.lookup env = some query) (hSelects : query.Selects env found = true) :
    Reaches env q found.email := by
  refine .inl ⟨query, hLookup, fun x hEmail => ?_⟩
  simp only [UserWhere.Selects, hEmail, UserTable.emailCondition, Bool.and_eq_true, beq_iff_eq] at hSelects
  exact hSelects.1

theorem ownSession_opened {e : UserEntity} {id : String} {now : Time} {new : UserRow}
    (hOpens : γ.Opens env e) (hNew : UserRow.ofEntity id now e = some new) :
    UserObject.OwnSession issued (new.returning e) (new.returning e) := by
  obtain ⟨_, _, hAccess, hRefresh⟩ := ofEntity_columns hNew
  constructor
  · intro token hToken
    rw [UserRow.returning, hAccess, hOpens.accessToken] at hToken
    cases hToken
  · intro token hToken
    rw [UserRow.returning, hRefresh, hOpens.refreshToken] at hToken
    cases hToken

theorem honest_learns {w' : TxWorld} {γ' : Conduct}
    (hStart : HoldsOwn env start.outside.issued start.base) (hSound : Sound env start w)
    (h : Honest env w γ) (hIssued : w.outside.issued ⊆ w'.outside.issued)
    (hLearns : Learns env γ w w' γ') : Honest env w' γ' := by
  have hLater : Honest env w' γ := honest_mono hIssued h
  cases hLearns with
  | nothing => exact hLater
  | @found query found manager hLookup hFound hSelects =>
    obtain ⟨hOwn, hUuid⟩ := (hSound.keeps hStart manager) found hFound
    refine ⟨hLater.signed, ?_⟩
    rintro _ ⟨rfl⟩
    exact ⟨found.id, found.email, rfl, rfl, hUuid, session_mono hIssued hOwn,
      reaches_found hLookup hSelects⟩
  | @opened e new users manager hOpens hNew _ =>
    refine ⟨hLater.signed, ?_⟩
    rintro _ ⟨rfl⟩
    obtain ⟨email, hRequest, hEmail⟩ := hOpens.email
    refine ⟨new.id, email, rfl, hEmail, ?_, ownSession_opened hOpens hNew, .inr hRequest⟩
    rw [UserRow.ofEntity_id hNew]
    exact hSound.fresh 0
  | code _ _ => exact ⟨hLater.signed, hLater.seen⟩
  | saved _ => exact ⟨hLater.signed, hLater.seen⟩
  | roles _ _ => exact ⟨hLater.signed, hLater.seen⟩
  | signed _ _ hNew _ _ => exact ⟨List.forall_mem_cons.mpr ⟨hNew, hLater.signed⟩, hLater.seen⟩

theorem maintains (hStart : HoldsOwn env start.outside.issued start.base) :
    Maintains (transactional env) (protocol env) (Sound env start) (Honest env) where
  world _ _ _ hSound h hAllows := sound_op hSound h hAllows
  own _ _ _ hSound h hAllows :=
    honest_learns hStart hSound h (TxWorld.issued_grows _) (learns hAllows)
  others _ _ _ _ _ _ _ h := honest_mono (TxWorld.issued_grows _) h

/-- Tokens of the account that the request has seen. -/
def OfSeen (env : Env) (γ : Conduct) (tokens : JWTTokens) (email id : String) : Prop :=
  ∃ seen ∈ γ.seen, seen.email = .val email ∧ seen.id = .val id ∧ tokens.Of env γ.signed email id

theorem granted_of {tokens : JWTTokens} (h : Honest env w γ) (hGranted : γ.Granted env tokens) :
    ∃ email id, Reaches env γ.request email ∧ OfSeen env γ tokens email id := by
  obtain ⟨seen, hSeen, a, ha, b, hb, ⟨c, hA⟩, ⟨c', hB⟩, hEncrypted⟩ := hGranted
  obtain ⟨id, email, hId, hEmail, _, _, hReaches⟩ := h.seen seen hSeen
  rw [hId, hEmail] at hA hB
  exact ⟨email, id, hReaches, seen, hSeen, hEmail, hId, a, ha, b, hb, ⟨c, hA⟩, ⟨c', hB⟩, hEncrypted⟩

theorem signsIn_of {q : Request} {tokens : JWTTokens} (h : Honest env w γ) (hRequest : γ.request = q)
    (hEnded : γ.Ended env q (.tokens tokens)) :
    ∃ email id, q.SignsIn env.cases email ∧ OfSeen env γ tokens email id := by
  cases q with
  | loginUser loginModel =>
    obtain ⟨email, id, hReaches, hOf⟩ := granted_of h hEnded
    rw [hRequest] at hReaches
    obtain ⟨query, hQuery, hSame⟩ | hNew := hReaches
    · cases hQuery
      exact ⟨email, id, hSame _ rfl, hOf⟩
    · cases hNew
  | googleLoginUser user =>
    obtain ⟨email, id, hReaches, hOf⟩ := granted_of h hEnded
    rw [hRequest] at hReaches
    refine ⟨email, id, ?_, hOf⟩
    cases user with
    | none =>
      obtain ⟨query, hQuery, _⟩ | hNew := hReaches
      · cases hQuery
      · cases hNew
    | some profile =>
      obtain ⟨query, hQuery, hSame⟩ | hNew := hReaches
      · cases hQuery
        exact ⟨profile, rfl, .inl (hSame _ rfl)⟩
      · cases hNew
        exact ⟨profile, rfl, .inr rfl⟩
  | _ => exact hEnded.elim

end Requests

theorem holds_run {ι : Type} [DecidableEq ι] {env : Env} {w : TxWorld} (requests : ι → Request)
    (schedule : List ι) (hIdle : w.journal.entries = []) (hUuids : CanonicalUuids env w)
    (hOwn : ∀ row ∈ w.base.users.rows, row.OwnSession w.outside.issued) :
    Requests.Holds env requests (Sound env w) (Honest env)
      ((Requests.started env w requests).run (transactional env) (protocol env) schedule) := by
  have hNone : w.carriedOut = [] := by rw [TxWorld.carriedOut, hIdle, List.map_nil]
  have hBase : HoldsOwn env w.outside.issued w.base :=
    fun row hRow => ⟨hOwn row hRow, hUuids.stored row hRow⟩
  have hStart : Requests.Holds env requests (Sound env w) (Honest env)
      (Requests.started env w requests) := by
    refine Requests.holds_started ⟨rfl, List.Subset.refl _, hUuids.fresh, fun item hItem => ?_⟩
      fun i => ⟨?_, ?_⟩
    · rw [hNone] at hItem
      cases hItem
    · exact fun _ h => by cases h
    · exact fun _ h => by cases h
  exact hStart.run (maintains hBase) schedule

/-- What a request has seen is a row that it has found, or has opened. -/
theorem hasMet_seen {ι : Type} [DecidableEq ι] {env : Env} {w : TxWorld} {requests : ι → Request}
    {schedule : List ι} {i : ι} {seen : UserEntity}
    (hSeen : seen ∈ (((Requests.started env w requests).run (transactional env) (protocol env)
      schedule).threads i).ghost.seen) :
    ∃ row, (Requests.started env w requests).HasMet env schedule i row ∧
      seen.email = .val row.email ∧ seen.id = .val row.id := by
  have hObedient : (Requests.started env w requests).Obedient (transactional env) (protocol env)
    (fun _ => True) (Requests.Promise env requests) := fun i => goes_serve env (requests i)
  obtain ⟨earlier, later, o, k, rfl, hProg, hAllows, hNew, hNext⟩ :=
    Pool.learned (G := fun γ => γ.seen = some seen) hObedient nofun hSeen
  have hPrefix : earlier ++ [i] <+: earlier ++ i :: later := ⟨later, by simp⟩
  obtain ⟨query, rfl, hAnswer⟩ | ⟨e, rfl, hOpens, hAnswer⟩ := comes_by hAllows hNew hNext
  · obtain ⟨row, manager, hRow, _, rfl⟩ := findUser_answer hAnswer
    exact ⟨row, ⟨earlier, hPrefix, .inl ⟨query, k, hProg, hAnswer, manager, hRow⟩⟩, rfl, rfl⟩
  · obtain ⟨manager, row, users, hInsert, hRows, rfl⟩ := opened_answer hOpens hAnswer
    exact ⟨row, ⟨earlier, hPrefix, .inr ⟨e, k, hProg, hAnswer, hInsert, manager, users, hRows⟩⟩,
      (ofEntity_columns hInsert).1, rfl⟩

theorem granted_run {ι : Type} [DecidableEq ι] {env : Env} {w : TxWorld} {requests : ι → Request}
    {schedule : List ι} (hIdle : w.journal.entries = []) (hUuids : CanonicalUuids env w)
    (hOwn : ∀ row ∈ w.base.users.rows, row.OwnSession w.outside.issued) {i : ι} {tokens : JWTTokens}
    (hDone : (((Requests.started env w requests).run (transactional env) (protocol env)
      schedule).threads i).prog.result = some (.ok (.tokens tokens))) :
    ∃ row, (Requests.started env w requests).HasMet env schedule i row ∧
      (requests i).SignsIn env.cases row.email ∧
      tokens.Of env (((Requests.started env w requests).run (transactional env) (protocol env)
        schedule).threads i).ghost.signed row.email row.id := by
  obtain ⟨hPromise, hHonest⟩ := (holds_run requests schedule hIdle hUuids hOwn).ended hDone
  obtain ⟨email, id, hSignsIn, seen, hSeen, hEmail, hId, hOf⟩ :=
    signsIn_of hHonest (Requests.request_run env w requests schedule i) (hPromise _ rfl)
  obtain ⟨row, hMet, hRowEmail, hRowId⟩ := hasMet_seen hSeen
  cases hEmail.symm.trans hRowEmail
  cases hId.symm.trans hRowId
  exact ⟨row, hMet, hSignsIn, hOf⟩

end OwnSession

open OwnSession in
/-- In every interleaving, and in whichever transactions: each stored session token is one of its
own row's, and each login is answered for the account it named. -/
theorem sessions_own {ι : Type} [DecidableEq ι] (env : Env) (w : TxWorld) (requests : ι → Request)
    (schedule : List ι) (hIdle : w.journal.entries = []) (hUuids : CanonicalUuids env w)
    (hOwn : ∀ row ∈ w.base.users.rows, row.OwnSession w.outside.issued) :
    SessionsOwn env (Requests.started env w requests) requests schedule
      ((Requests.started env w requests).run (transactional env) (protocol env) schedule) := by
  have hBase : HoldsOwn env w.outside.issued w.base :=
    fun row hRow => ⟨hOwn row hRow, hUuids.stored row hRow⟩
  have hEnd := holds_run requests schedule hIdle hUuids hOwn
  refine ⟨fun manager row hRow => (hEnd.world.keeps hBase manager row hRow).1,
    fun i tokens hDone => ?_⟩
  obtain ⟨row, hMet, hSignsIn, hOf⟩ := granted_run hIdle hUuids hOwn hDone
  exact ⟨row, hMet, hSignsIn, hOf.mono (hEnd.ghost i).signed⟩

namespace Sample

theorem canonicalUuids (w : TxWorld) : CanonicalUuids (env []) w := ⟨fun _ _ => rfl, fun _ => rfl⟩

/-- Bob registers while Ana logs in. -/
def bobAndAna : Fin 2 → Request
  | 0 => .createUser ⟨"Bob", "bob@x.io", "pw", "2"⟩
  | 1 => .loginUser rightLogin

end Sample

theorem sessions_own_sample :
    SessionsOwn (Sample.env []) (Requests.started (Sample.env [])
        (Sample.txWorld (Sample.oneUser Sample.row) 30) Sample.bobAndAna) Sample.bobAndAna Sample.crossed
      ((Requests.started (Sample.env []) (Sample.txWorld (Sample.oneUser Sample.row) 30)
        Sample.bobAndAna).run (transactional (Sample.env [])) (protocol (Sample.env [])) Sample.crossed) := by
  refine sessions_own _ _ _ _ rfl (Sample.canonicalUuids _) fun row hRow => ?_
  rw [List.mem_singleton.mp hRow]
  exact OwnSession.ownSession_none rfl rfl

end Manejaplus
