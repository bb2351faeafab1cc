import Manejaplus.Interleaved.Identity
import Manejaplus.Sequential.TokenPurpose
import Manejaplus.Transactions.Conduct
import Manejaplus.Transactions.OwnWrites

/-! # An account that no request looks up

Its row, its codes, its mail and the tokens that name it are out of reach of all
other requests, even where their statements end up in each other's transactions.
-/
namespace Manejaplus
open Effect Prog Conduct
set_option autoImplicit false

def OtpTable.codesOf (t : OtpTable) (row : UserRow) : List OtpRow := t.rows.filter (·.user == some row.id)

/-- The token names the account, by its e-mail or its id. -/
def Issued.names (t : Issued) (row : UserRow) : Bool :=
  t.payload.address.any fun address => address.1 == .val row.email || address.2 == .val row.id

/-- Nothing that belongs to the account differs between the two worlds, whoever looks. -/
structure Untouched (env : Env) (row : UserRow) (w w' : TxWorld) : Prop where
  stored : ∀ manager, row ∈ (w'.view env manager).users.rows
  codes : ∀ manager, (w'.view env manager).otps.codesOf row = w.base.otps.codesOf row
  mails : (w'.outside.mails.filter (·.receiver == .val row.email)) =
    w.outside.mails.filter (·.receiver == .val row.email)
  tokens : w'.outside.issued.filter (·.names row) = w.outside.issued.filter (·.names row)

namespace Apart
variable {env : Env} {row : UserRow} {base : Database} {db : Database}

/-- An object for another account. -/
def Other (row : UserRow) (e : UserEntity) : Prop :=
  ∃ id email, e.id = .val id ∧ e.email = .val email ∧ id ≠ row.id ∧ email ≠ row.email

/-- The number of this code is none of the account's. -/
def OtherCode (base : Database) (row : UserRow) (code : OtpObject) : Prop :=
  ∃ n, code.id = .val n ∧ code.user = .undefined ∧ ∀ r ∈ base.otps.codesOf row, r.id ≠ n

/-- A statement that leaves the account and its codes alone in every database that holds them. -/
def Avoids (base : Database) (row : UserRow) : StoreOp → Prop
  | .saveUser e => e.id ≠ .val row.id
  | .saveOtp e => (e.id = .undefined ∧ ∃ user, e.user = .val user ∧ Other row user) ∨
      OtherCode base row e
  | _ => True

/-- The account and its codes are here as they are in the base. -/
structure Holds (base : Database) (row : UserRow) (db : Database) : Prop where
  stored : row ∈ db.users.rows
  codes : db.otps.codesOf row = base.otps.codesOf row

section Statements

theorem other_of_ne {t : UserTable} {found : UserRow} (hRow : row ∈ t.rows) (hFound : found ∈ t.rows)
    (hNe : found ≠ row) : found.id ≠ row.id ∧ found.email ≠ row.email :=
  ⟨fun h => hNe (UserTable.eq_of_nodup t.nodupId hFound hRow h),
    fun h => hNe (UserTable.eq_of_nodup t.nodupEmail hFound hRow h)⟩

theorem codesOf_append {t t' : OtpTable} {new : OtpRow} (hRows : t'.rows = t.rows ++ [new])
    (hUser : new.user ≠ some row.id) : t'.codesOf row = t.codesOf row := by
  have hNone : [new].filter (·.user == some row.id) = [] := by simp [hUser]
  rw [OtpTable.codesOf, hRows, List.filter_append, hNone, List.append_nil]
  rfl

theorem codesOf_replace {t t' : OtpTable} {new : OtpRow} (hRows : t'.rows = OtpTable.replace new t.rows)
    (hNew : new.user ≠ some row.id) (hOld : ∀ r ∈ t.codesOf row, r.id ≠ new.id) :
    t'.codesOf row = t.codesOf row := by
  have hReplace : ∀ rows : List OtpRow,
      (∀ r ∈ rows.filter (·.user == some row.id), r.id ≠ new.id) →
      (OtpTable.replace new rows).filter (·.user == some row.id) =
        rows.filter (·.user == some row.id) := by
    intro rows
    induction rows with
    | nil => exact fun _ => rfl
    | cons r rows ih =>
      intro hRest
      rw [OtpTable.replace, List.map_cons, ← OtpTable.replace]
      by_cases hOwn : r.user = some row.id
      · have hFilter : (r :: rows).filter (·.user == some row.id) =
            r :: rows.filter (·.user == some row.id) := List.filter_cons_of_pos (by simp [hOwn])
        rw [hFilter] at hRest ⊢
        obtain ⟨hNe, hRest⟩ := List.forall_mem_cons.mp hRest
        rw [if_neg hNe, List.filter_cons_of_pos (by simp [hOwn]), ih hRest]
      · have hFilter : (r :: rows).filter (·.user == some row.id) =
            rows.filter (·.user == some row.id) := List.filter_cons_of_neg (by simp [hOwn])
        rw [hFilter] at hRest ⊢
        rw [List.filter_cons_of_neg, ih hRest]
        split <;> simp [hNew, hOwn]
  rw [OtpTable.codesOf, hRows]
  exact hReplace t.rows hOld

theorem holds_saveUser {c : Choice} {e : UserEntity} (hId : e.id ≠ .val row.id)
    (h : Holds base row db) : Holds base row (db.exec env c (.saveUser e)).2 := by
  have hSaved := exec_saveUser env c db e
  generalize (db.exec env c (.saveUser e)).1 = r, (db.exec env c (.saveUser e)).2 = db' at hSaved
  cases hSaved with
  | refused => exact h
  | updated updatedAt _ hOwn hWrite hRows =>
    refine ⟨?_, h.codes⟩
    rw [hRows]
    refine List.mem_map.mpr ⟨row, h.stored, if_neg fun hSame => hId ?_⟩
    rw [hOwn, hSame]
    exact congrArg Js.val (UserRow.write_id hWrite).1.symm
  | inserted _ _ hRows =>
    refine ⟨?_, h.codes⟩
    rw [hRows]
    exact List.mem_append_left _ h.stored

theorem write_user {users : UserTable} {now : Time} {e : OtpObject} {r r' : OtpRow}
    (hUser : e.user = .undefined) (h : OtpTable.write users now e r = some r') :
    r'.user = r.user ∧ r'.id = r.id := by
  simp only [OtpTable.write, hUser, OtpTable.userKey, Option.bind_eq_bind, Option.bind_eq_some_iff,
    Option.some.injEq] at h
  obtain ⟨otp, _, typeOtp, _, wasUsed, _, createdAt, _, user, rfl, rfl⟩ := h
  split
  · rename_i hSame
    exact ⟨rfl, rfl⟩
  · exact ⟨rfl, rfl⟩

theorem ofEntity_user {users : UserTable} {id : Nat} {now : Time} {e : OtpObject} {r : OtpRow}
    (h : OtpTable.ofEntity users id now e = some r) :
    OtpTable.userKey users none e.user = some r.user := by
  simp only [OtpTable.ofEntity, Option.bind_eq_bind, Option.bind_eq_some_iff, Option.some.injEq] at h
  obtain ⟨otp, _, typeOtp, _, wasUsed, _, user, hUser, rfl⟩ := h
  exact hUser

theorem userKey_other {users : UserTable} {user : UserEntity} {key : Option String}
    (hOther : Other row user) (h : OtpTable.userKey users none (.val user) = some key) :
    key ≠ some row.id := by
  obtain ⟨id, _, hId, _, hNe, _⟩ := hOther
  simp only [OtpTable.userKey, hId, Option.map_eq_some_iff] at h
  obtain ⟨found, hFound, rfl⟩ := h
  rw [(UserTable.byId_eq_some.mp hFound).2]
  exact fun h => hNe (Option.some.inj h)

theorem holds_saveOtp {c : Choice} {e : OtpObject} (hAvoids : Avoids base row (.saveOtp e))
    (h : Holds base row db) : Holds base row (db.exec env c (.saveOtp e)).2 := by
  have hSaved := exec_saveOtp env c db e
  generalize (db.exec env c (.saveOtp e)).1 = r, (db.exec env c (.saveOtp e)).2 = db' at hSaved
  cases hSaved with
  | refused => exact h
  | @updated old new otps hOld hOwn hWrite hRows =>
    obtain ⟨hNone, _⟩ | ⟨n, hId, hUser, hOthers⟩ := hAvoids
    · rw [hNone] at hOwn
      cases hOwn
    · cases hId.symm.trans hOwn
      obtain ⟨hKeepsUser, hKeepsId⟩ := write_user hUser hWrite
      rw [← h.codes] at hOthers
      refine ⟨h.stored, (codesOf_replace hRows ?_ fun r hr => ?_).trans h.codes⟩
      · rw [hKeepsUser]
        intro hSame
        exact hOthers old (List.mem_filter.mpr ⟨hOld, by simp [hSame]⟩) rfl
      · rw [hKeepsId]
        exact hOthers r hr
  | @inserted id new otps hNew hRows =>
    refine ⟨h.stored, (codesOf_append hRows ?_).trans h.codes⟩
    have hKey := ofEntity_user hNew
    obtain ⟨_, user, hUser, hOther⟩ | ⟨_, _, hUser, _⟩ := hAvoids
    · rw [hUser] at hKey
      exact userKey_other hOther hKey
    · rw [hUser] at hKey
      rw [← Option.some.inj hKey]
      exact fun h => by cases h

theorem holds_exec {c : Choice} {o : StoreOp} (hAvoids : Avoids base row o)
    (h : Holds base row db) : Holds base row (db.exec env c o).2 := by
  cases o with
  | saveUser e => exact holds_saveUser hAvoids h
  | saveOtp e => exact holds_saveOtp hAvoids h
  | _ =>
    rw [exec_unsaved (fun _ h => by cases h) fun _ h => by cases h]
    exact h

end Statements

section Requests
variable {start w : TxWorld} {γ : Conduct}

/-- Nothing so far has gone to the account. -/
structure Aside (row : UserRow) (start w : TxWorld) : Prop where
  base : w.base = start.base
  avoids : ∀ item ∈ w.carriedOut, Avoids start.base row item.op
  mails : w.outside.mails.filter (·.receiver == .val row.email) =
    start.outside.mails.filter (·.receiver == .val row.email)
  tokens : w.outside.issued.filter (·.names row) = start.outside.issued.filter (·.names row)

/-- The request has to do with another account. -/
structure Elsewhere (env : Env) (row : UserRow) (base : Database) (γ : Conduct) : Prop where
  request : ¬ γ.request.About env row
  seen : ∀ seen ∈ γ.seen, Other row seen
  code : ∀ code ∈ γ.code, OtherCode base row code

theorem Aside.holds (h : Aside row start w) (hRow : row ∈ start.base.users.rows)
    (manager : Option Tx) : Holds start.base row (w.view env manager) := by
  apply TxWorld.view_induction
  · rw [h.base]
    exact ⟨hRow, rfl⟩
  · exact fun item hItem db hdb => holds_exec (h.avoids item hItem) hdb

theorem avoids_allowed {o : StoreOp} (hUuid : env.uuid row.id = some row.id)
    (h : Elsewhere env row base γ) (hAllows : (protocol env).allows γ (.store o)) :
    Avoids base row o := by
  cases o with
  | saveUser e =>
    change γ.SavesUser env e at hAllows
    unfold SavesUser at hAllows
    cases hSeen : γ.seen with
    | none =>
      rw [hSeen] at hAllows
      rw [Avoids, hAllows.id]
      exact fun h => by cases h
    | some seen =>
      rw [hSeen] at hAllows
      obtain ⟨id, _, hId, _, hNe, _⟩ := h.seen seen hSeen
      intro hOwn
      obtain hSame | ⟨text, id', hText, hRead, hId'⟩ := hAllows.id
      · rw [hOwn, hId] at hSame
        exact hNe (Js.val.inj hSame).symm
      · cases hOwn.symm.trans hText
        cases hUuid.symm.trans hRead
        cases hId.symm.trans hId'
        exact hNe rfl
  | saveOtp e =>
    obtain ⟨seen, hSeen, n, _, rfl⟩ | ⟨code, hCode, rfl⟩ := hAllows
    · exact .inl ⟨rfl, seen, rfl, h.seen seen hSeen⟩
    · exact .inr (h.code code hCode)
  | _ => trivial

theorem aside_op {o : Op} (hUuid : env.uuid row.id = some row.id) (hAside : Aside row start w)
    (h : Elsewhere env row start.base γ) (hAllows : (protocol env).allows γ o) :
    Aside row start (transactional env o w).2 := by
  refine ⟨(TxWorld.base_kept o).trans hAside.base, fun item hItem => ?_, ?_, ?_⟩
  · obtain hOld | ⟨o', rfl, rfl⟩ := TxWorld.mem_carriedOut hItem
    · exact hAside.avoids item hOld
    · exact avoids_allowed hUuid h hAllows
  · obtain hSame | ⟨mail, rfl, hNew⟩ := TxWorld.mails_after env w o
    · rw [hSame, hAside.mails]
    · obtain ⟨seen, hSeen, hMail⟩ := hAllows
      have hReceiver : mail.receiver = seen.email := by
        obtain ⟨_, _, rfl⟩ | ⟨_, _, _, rfl⟩ := hMail <;> rfl
      obtain ⟨_, email, _, hEmail, _, hNe⟩ := h.seen seen hSeen
      have hNone : [mail].filter (·.receiver == .val row.email) = [] := by
        simp [hReceiver, hEmail, hNe]
      rw [hNew, List.filter_append, hAside.mails, hNone, List.append_nil]
  · obtain hSame | ⟨sub, expiresIn, payload, rfl, rfl, hNew⟩ := TxWorld.issued_after env w o
    · rw [hSame, hAside.tokens]
    · obtain ⟨seen, hSeen, hSub⟩ := hAllows
      have hAddress : (Outside.payload w.choice sub expiresIn).address = some (seen.email, seen.id) := by
        obtain ⟨rfl, _⟩ | ⟨rfl, _⟩ := hSub <;> rfl
      obtain ⟨id, email, hId, hEmail, hNeId, hNeEmail⟩ := h.seen seen hSeen
      rw [hNew, List.filter_append, hAside.tokens, List.filter_cons_of_neg, List.filter_nil,
        List.append_nil]
      rw [Issued.names, hAddress, hId, hEmail]
      simp [hNeId, hNeEmail]

theorem other_found {query : UserWhere} {found : UserRow} {manager : Option Tx}
    (hAside : Aside row start w) (hRow : row ∈ start.base.users.rows)
    (hFound : found ∈ (w.view env manager).users.rows) (hSelects : query.Selects env found = true)
    (hNot : ¬ query.Selects env row = true) : Other row found.entity := by
  have hNe : found ≠ row := by
    rintro rfl
    exact hNot hSelects
  obtain ⟨hId, hEmail⟩ := other_of_ne (hAside.holds hRow manager).stored hFound hNe
  exact ⟨found.id, found.email, rfl, rfl, hId, hEmail⟩

theorem otherCode_found {id : String} {code : OtpObject} (hAside : Aside row start w)
    (hRow : row ∈ start.base.users.rows) (hNe : id ≠ row.id)
    (h : (transactional env (.store (.findOtp .LOGIN_OTP (.val id))) w).1 = .ok (some code)) :
    OtherCode start.base row code := by
  obtain hRefused | ⟨manager, hAnswer⟩ := TxWorld.store_answer env (.findOtp .LOGIN_OTP (.val id)) w
  · rw [hRefused] at h
    cases h
  rw [hAnswer, Database.exec] at h
  split at h
  · cases h
  obtain ⟨found, hFound, rfl⟩ := Option.map_eq_some_iff.mp (Except.ok.inj h)
  obtain ⟨hMem, hOfType⟩ := OtpTable.findByType_mem hFound
  simp only [OtpTable.ofType, Bool.and_eq_true, beq_iff_eq] at hOfType
  refine ⟨found.id, rfl, rfl, fun r hr hSame => ?_⟩
  rw [← (hAside.holds hRow manager).codes] at hr
  obtain ⟨hr, hUser⟩ := List.mem_filter.mp hr
  have hEq : r = found := List.inj_on_of_nodup_map (OtpTable.nodupId _) hr hMem hSame
  rw [hEq, hOfType.2] at hUser
  exact hNe (by simpa using hUser)

theorem elsewhere_learns {w' : TxWorld} {γ' : Conduct} (hAside : Aside row start w)
    (hRow : row ∈ start.base.users.rows) (h : Elsewhere env row start.base γ)
    (hLearns : Learns env γ w w' γ') : Elsewhere env row start.base γ' := by
  cases hLearns with
  | nothing => exact h
  | @found query found manager hLookup hFound hSelects =>
    refine ⟨h.request, ?_, h.code⟩
    rintro _ ⟨rfl⟩
    exact other_found hAside hRow hFound hSelects fun hOwn => h.request ⟨query, hLookup, hOwn⟩
  | @opened e new users manager _ hNew hRows =>
    refine ⟨h.request, ?_, h.code⟩
    rintro _ ⟨rfl⟩
    obtain ⟨hId, hEmail⟩ := ne_of_inserted hRows (hAside.holds hRow manager).stored
    have hAgrees := agrees_returning hNew
    exact ⟨new.id, new.email, hAgrees.id, hAgrees.email, hId, hEmail⟩
  | @code seen code hSeen hAnswer =>
    obtain ⟨id, _, hId, _, hNe, _⟩ := h.seen seen hSeen
    rw [hId] at hAnswer
    refine ⟨h.request, h.seen, ?_⟩
    rintro _ ⟨rfl⟩
    exact otherCode_found hAside hRow hNe hAnswer
  | saved _ => exact ⟨h.request, h.seen, h.code⟩
  | roles _ _ => exact ⟨h.request, h.seen, h.code⟩
  | signed _ _ _ _ _ => exact ⟨h.request, h.seen, h.code⟩

theorem maintains (hUuid : env.uuid row.id = some row.id) (hRow : row ∈ start.base.users.rows) :
    Maintains (transactional env) (protocol env) (Aside row start) fun _ =>
      Elsewhere env row start.base where
  world _ _ _ hAside h hAllows := aside_op hUuid hAside h hAllows
  own _ _ _ hAside h hAllows := elsewhere_learns hAside hRow h (learns hAllows)
  others _ _ _ _ _ _ _ h := h

end Requests

end Apart

open Apart in
/-- Whatever requests about other accounts do at the same time, and however they end up in each
other's transactions: this account, its codes, its mail and the tokens that name it stay as they
were. -/
theorem accounts_apart {ι : Type} [DecidableEq ι] (env : Env) (w : TxWorld) (requests : ι → Request)
    (schedule : List ι) {row : UserRow} (hIdle : w.journal.entries = [])
    (hRow : row ∈ w.base.users.rows) (hUuid : env.uuid row.id = some row.id)
    (hApart : ∀ i, ¬ (requests i).About env row) :
    Untouched env row w
      ((Requests.started env w requests).run (transactional env) (protocol env) schedule).world := by
  have hNone : w.carriedOut = [] := by rw [TxWorld.carriedOut, hIdle, List.map_nil]
  have hStart : Requests.Holds env requests (Aside row w) (fun _ => Elsewhere env row w.base)
      (Requests.started env w requests) := by
    refine Requests.holds_started ⟨rfl, fun item hItem => ?_, rfl, rfl⟩ fun i => ⟨hApart i, ?_, ?_⟩
    · rw [hNone] at hItem
      cases hItem
    · exact fun _ h => by cases h
    · exact fun _ h => by cases h
  have hEnd := (hStart.run (maintains hUuid hRow) schedule).world
  exact ⟨fun manager => (hEnd.holds hRow manager).stored,
    fun manager => (hEnd.holds hRow manager).codes, hEnd.mails, hEnd.tokens⟩

/-- Bob registers and logs in at the same time. -/
def Sample.bobsRequests : Fin 2 → Request
  | 0 => .createUser ⟨"Bob", "bob@x.io", "pw", "2"⟩
  | 1 => .loginUser ⟨"bob@x.io", "pw", none⟩

theorem accounts_apart_sample :
    Untouched (Sample.env []) Sample.row (Sample.txWorld (Sample.oneUser Sample.row) 20)
      ((Requests.started (Sample.env []) (Sample.txWorld (Sample.oneUser Sample.row) 20)
        Sample.bobsRequests).run (transactional (Sample.env [])) (protocol (Sample.env []))
        [0, 0, 0, 0, 0, 0, 0, 1, 1, 0, 0, 0, 1]).world :=
  accounts_apart _ _ _ _ rfl List.mem_cons_self rfl (by decide)

end Manejaplus
