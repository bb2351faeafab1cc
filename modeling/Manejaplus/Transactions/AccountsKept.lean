import Manejaplus.Sequential.RoleSets
import Manejaplus.Transactions.OwnSessions

/-! # What an account is known by, and what it may do

Every transaction sees every account under the columns it was opened with. A
role comes from a request that names the account and the role, and a mail goes
to the account it is about.
-/
namespace Manejaplus
open Effect Prog Conduct
set_option autoImplicit false

/-- The request gives this account this role, which is an active one. -/
def Request.Grants (env : Env) (base : Database) (id role : String) (q : Request) : Prop :=
  ∃ assignRoleModel, q = .assignRole assignRoleModel ∧ env.uuid assignRoleModel.userId = some id ∧
    (∃ text ∈ assignRoleModel.rolesId, env.uuid text = some role) ∧
    ∃ row ∈ base.roles, row.id = role ∧ row.status = true

structure AccountsKept {ι : Type} (env : Env) (base : Database) (requests : ι → Request)
    (db : Database) : Prop where
  identity : IdentityKept base.users db.users
  roles : ∀ row ∈ db.users.rows, ∀ role ∈ row.roles,
    (∃ old ∈ base.users.rows, old.id = row.id ∧ role ∈ old.roles) ∨
      ∃ i, (requests i).Grants env base row.id role

/-- The id and the e-mail of the object lead to the same accounts. -/
def UserObject.OneAccount (base : Database) (user : UserObject) : Prop :=
  ∀ row ∈ base.users.rows, user.id = .val row.id ↔ user.email = .val row.email

/-- A mail to the account it is about: with a code that has been saved for it, or a link whose
token names it. -/
inductive Mail.Own (base : Database) (w : TxWorld) : Mail → Prop
  | loginOtp {user : UserObject} (otpCode : String) : user.OneAccount base →
      StoreOp.saveOtp (OtpService.newCode user otpCode) ∈ w.carriedOut.map Write.op →
      Mail.Own base w ⟨user.email, TypeOtp.text .LOGIN_OTP, { user, otpCode := some otpCode }⟩
  | verifyAccount {user : UserObject} (t : Issued) : user.OneAccount base → t ∈ w.outside.issued →
      t.Link user →
      Mail.Own base w ⟨user.email, "VERIFY_ACCOUNT", { user, callbackUrl := some (verifyLink t.token) }⟩

/-- Every mail of a run is one to the account it is about. -/
def MailsOwn (start w : TxWorld) : Prop :=
  ∀ mail ∈ w.outside.mails, mail ∈ start.outside.mails ∨ mail.Own start.base w

namespace AccountsKept
variable {ι : Type} {env : Env} {base db : Database} {requests : ι → Request}

/-- The object carries the identity of every account it could be taken for. -/
def Stands (base : Database) (e : UserEntity) : Prop :=
  ∀ row ∈ base.users.rows, e.id = .val row.id → Agrees e row

/-- A save that leaves the accounts as they are known, and their roles as they are granted. -/
structure Faithful (env : Env) (base : Database) (requests : ι → Request) (e : UserEntity) : Prop where
  stands : Stands base e
  canonical : ∀ text id, e.id = .val text → env.uuid text = some id → env.uuid id = some id
  roles : e.roles = .undefined ∨ ∃ text roles, e.id = .val text ∧ e.roles = .val roles ∧
    ∀ role ∈ roles, ∀ id, env.uuid text = some id → ∃ i, (requests i).Grants env base id role.id

/-- What every manager is to see. -/
structure Seen (env : Env) (base : Database) (requests : ι → Request) (db : Database) : Prop where
  kept : AccountsKept env base requests db
  roles : db.roles = base.roles
  canonical : ∀ row ∈ db.users.rows, env.uuid row.id = some row.id

/-- An object of one account, under the identity that is stored for it. -/
structure Known (env : Env) (base : Database) (seen : UserEntity) : Prop where
  address : ∃ id email, seen.id = .val id ∧ seen.email = .val email ∧ env.uuid id = some id
  roles : seen.roles = .undefined
  agrees : ∀ row ∈ base.users.rows, seen.id = .val row.id ∨ seen.email = .val row.email →
    Agrees seen row

section Statements

theorem same_symm {a b : UserRow} (h : a.SameIdentity b) : b.SameIdentity a :=
  ⟨h.id.symm, h.email.symm, h.name.symm, h.password.symm, h.phone.symm, h.origin.symm,
    h.createdAt.symm⟩

theorem ofEntity_roles {id : String} {now : Time} {e : UserEntity} {row : UserRow}
    (h : UserRow.ofEntity id now e = some row) :
    row.roles = ((UserRow.roleIds e.roles).write (some [])).getD [] := by
  simp only [UserRow.ofEntity, Option.bind_eq_bind, Option.bind_eq_some_iff] at h
  obtain ⟨_, _, _, _, _, _, _, _, _, _, hRow⟩ := h
  cases hRow
  rfl

theorem identityKept_replace {old new : UserRow} {e : UserEntity} {t t' : UserTable} {updatedAt : Time}
    (hStands : Stands base e) (hOld : old ∈ t.rows) (hId : e.id = .val old.id)
    (hWrite : old.write e = some new)
    (hRows : t'.rows = UserTable.replace { new with updatedAt } t.rows)
    (h : IdentityKept base.users t) : IdentityKept base.users t' := by
  intro row hRow
  obtain ⟨row', hRow', hSame⟩ := h row hRow
  have hNewId : new.id = old.id := (UserRow.write_id hWrite).1
  by_cases hOwn : row'.id = old.id
  · have hEq : row' = old := UserTable.eq_of_nodup t.nodupId hRow' hOld hOwn
    subst hEq
    have hAgrees := (hStands row hRow (by rw [hId, hSame.id])).of_same hSame
    have hWritten : row'.SameIdentity { new with updatedAt } := by
      have h := hAgrees.written ⟨rfl, rfl, rfl, rfl, rfl, rfl⟩ hWrite
      exact ⟨h.id, h.email, h.name, h.password, h.phone, h.origin, h.createdAt⟩
    refine ⟨_, ?_, hSame.trans hWritten⟩
    rw [hRows]
    exact List.mem_map.mpr ⟨row', hRow', if_pos hNewId.symm⟩
  · refine ⟨row', ?_, hSame⟩
    rw [hRows]
    exact List.mem_map.mpr ⟨row', hRow', if_neg fun h => hOwn (h.trans hNewId)⟩

theorem seen_updated {e : UserEntity} {old new : UserRow} {users : UserTable} {updatedAt : Time}
    (hFaithful : Faithful env base requests e) (hOld : old ∈ db.users.rows) (hId : e.id = .val old.id)
    (hWrite : old.write e = some new)
    (hRows : users.rows = UserTable.replace { new with updatedAt } db.users.rows)
    (h : Seen env base requests db) : Seen env base requests { db with users } := by
  have hNewId : new.id = old.id := (UserRow.write_id hWrite).1
  have hMem : ∀ row ∈ users.rows, row = { new with updatedAt } ∨ row ∈ db.users.rows := by
    intro row hRow
    rw [hRows] at hRow
    obtain ⟨r, hr, rfl⟩ := List.mem_map.mp hRow
    split
    · exact .inl rfl
    · exact .inr hr
  refine ⟨⟨identityKept_replace hFaithful.stands hOld hId hWrite hRows h.kept.identity, ?_⟩, h.roles, ?_⟩
  · intro row hRow role hRole
    obtain rfl | hRow := hMem row hRow
    · change role ∈ new.roles at hRole
      change (∃ old ∈ base.users.rows, old.id = new.id ∧ role ∈ old.roles) ∨
        ∃ i, (requests i).Grants env base new.id role
      rw [hNewId]
      obtain ⟨_, _, _, _, _, _, _, _, _, _, _, _, rfl⟩ := UserRow.write_eq_some hWrite
      obtain hNone | ⟨text, roles, hText, hSome, hGrants⟩ := hFaithful.roles
      · rw [hNone] at hRole
        exact h.kept.roles old hOld role hRole
      · rw [hSome] at hRole
        obtain ⟨granted, hGranted, rfl⟩ := List.mem_map.mp hRole
        cases hId.symm.trans hText
        exact .inr (hGrants granted hGranted old.id (h.canonical old hOld))
    · exact h.kept.roles row hRow role hRole
  · intro row hRow
    obtain rfl | hRow := hMem row hRow
    · change env.uuid new.id = some new.id
      rw [hNewId]
      exact h.canonical old hOld
    · exact h.canonical row hRow

theorem seen_inserted {c : Choice} {e : UserEntity} {id : String} {new : UserRow} {users : UserTable}
    (hFresh : env.uuid c.uuid = some c.uuid) (hFaithful : Faithful env base requests e)
    (hNewId : UserEntity.newId env c e = some id) (hInsert : UserRow.ofEntity id c.now e = some new)
    (hRows : users.rows = db.users.rows ++ [new]) (h : Seen env base requests db) :
    Seen env base requests { db with users } := by
  have hMem : ∀ row ∈ users.rows, row ∈ db.users.rows ∨ row = new := by
    intro row hRow
    rw [hRows] at hRow
    exact (List.mem_append.mp hRow).imp_right List.mem_singleton.mp
  have hIdColumn : new.id = id := UserRow.ofEntity_id hInsert
  refine ⟨⟨h.kept.identity.trans fun row hRow => ⟨row, ?_, .refl row⟩, ?_⟩, h.roles, ?_⟩
  · rw [hRows]
    exact List.mem_append_left _ hRow
  · intro row hRow role hRole
    obtain hOld | rfl := hMem row hRow
    · exact h.kept.roles row hOld role hRole
    rw [ofEntity_roles hInsert] at hRole
    obtain hNone | ⟨text, roles, hText, hSome, hGrants⟩ := hFaithful.roles
    · rw [hNone] at hRole
      cases hRole
    · rw [hSome] at hRole
      obtain ⟨granted, hGranted, rfl⟩ := List.mem_map.mp hRole
      rw [UserEntity.newId, hText] at hNewId
      rw [hIdColumn]
      exact .inr (hGrants granted hGranted id hNewId)
  · intro row hRow
    obtain hOld | rfl := hMem row hRow
    · exact h.canonical row hOld
    rw [hIdColumn]
    unfold UserEntity.newId at hNewId
    split at hNewId
    · exact hFaithful.canonical _ _ ‹_› hNewId
    · cases hNewId
      exact hFresh

theorem seen_exec {c : Choice} {o : StoreOp} (hFresh : env.uuid c.uuid = some c.uuid)
    (hFaithful : ∀ e, o = .saveUser e → Faithful env base requests e) (h : Seen env base requests db) :
    Seen env base requests (db.exec env c o).2 := by
  cases o with
  | saveUser e =>
    have hSaved := exec_saveUser env c db e
    generalize (db.exec env c (.saveUser e)).1 = r, (db.exec env c (.saveUser e)).2 = db' at hSaved
    cases hSaved with
    | refused => exact h
    | updated _ hOld hId hWrite hRows => exact seen_updated (hFaithful e rfl) hOld hId hWrite hRows h
    | inserted hNewId hInsert hRows =>
      exact seen_inserted hFresh (hFaithful e rfl) hNewId hInsert hRows h
  | saveOtp e =>
    have hSaved := exec_saveOtp env c db e
    generalize (db.exec env c (.saveOtp e)).1 = r, (db.exec env c (.saveOtp e)).2 = db' at hSaved
    cases hSaved <;> exact ⟨⟨h.kept.identity, h.kept.roles⟩, h.roles, h.canonical⟩
  | _ =>
    rw [exec_unsaved (fun _ h => by cases h) fun _ h => by cases h]
    exact h

theorem known_found {found : UserRow} (h : Seen env base requests db) (hFound : found ∈ db.users.rows) :
    Known env base found.entity := by
  refine ⟨⟨found.id, found.email, rfl, rfl, h.canonical found hFound⟩, rfl, fun row hRow hSame => ?_⟩
  obtain ⟨row', hRow', hIdentity⟩ := h.kept.identity row hRow
  have hEq : found = row' := by
    obtain hId | hEmail := hSame
    · exact UserTable.eq_of_nodup db.users.nodupId hFound hRow'
        ((Js.val.inj hId).trans hIdentity.id.symm)
    · exact UserTable.eq_of_nodup db.users.nodupEmail hFound hRow'
        ((Js.val.inj hEmail).trans hIdentity.email.symm)
  rw [hEq]
  exact (agrees_entity row').of_same (same_symm hIdentity)

end Statements

section Requests
variable {start w w' : TxWorld} {γ : Conduct} {issued : List Issued}

/-- What has been saved so far leaves the accounts as they are known, and what has been mailed went
to the accounts it is about. -/
structure Sound (env : Env) (requests : ι → Request) (start w : TxWorld) : Prop where
  base : w.base = start.base
  fresh : ∀ n, env.uuid (w.outside.tape n).uuid = some (w.outside.tape n).uuid
  faithful : ∀ item ∈ w.carriedOut, (∀ e, item.op = .saveUser e → Faithful env start.base requests e) ∧
    env.uuid item.choice.uuid = some item.choice.uuid
  mails : MailsOwn start w

/-- What a request has come by is one account's, and its own. -/
structure Honest (env : Env) (requests : ι → Request) (base : Database) (w : TxWorld) (γ : Conduct) :
    Prop where
  request : ∃ i, requests i = γ.request
  seen : ∀ seen ∈ γ.seen, Known env base seen
  signed : ∀ t ∈ γ.signed, t ∈ w.outside.issued
  saved : ∀ e ∈ γ.saved, StoreOp.saveOtp e ∈ w.carriedOut.map Write.op
  roles : ∀ role ∈ γ.roles, role ∈ base.roles ∧ role.status = true ∧
    ∃ assignRoleModel, γ.request = .assignRole assignRoleModel ∧
      ∃ text ∈ assignRoleModel.rolesId, env.uuid text = some role.id

theorem Sound.seen (hCanonical : ∀ row ∈ start.base.users.rows, env.uuid row.id = some row.id)
    (h : Sound env requests start w) (manager : Option Tx) :
    Seen env start.base requests (w.view env manager) := by
  apply TxWorld.view_induction
  · rw [h.base]
    exact ⟨⟨identityKept_refl _, fun row hRow role hRole => .inl ⟨row, hRow, rfl, hRole⟩⟩, rfl, hCanonical⟩
  · intro item hItem db hdb
    obtain ⟨hFaithful, hFresh⟩ := h.faithful item hItem
    exact seen_exec hFresh hFaithful hdb

theorem carriedOut_grows (o : Op) : w.carriedOut ⊆ (transactional env o w).2.carriedOut := by
  cases o with
  | store o =>
    rw [TxWorld.carriedOut, TxWorld.carriedOut, store_journal]
    split
    · rw [Journal.write, List.map_append]
      exact List.subset_append_left _ _
    · exact List.Subset.refl _
  | outside o => exact List.Subset.refl _
  | transaction o =>
    cases o with
    | begin =>
      simp only [transactional, TxWorld.execTransaction]
      split <;> exact List.Subset.refl _
    | _ => exact List.Subset.refl _

theorem mail_grows {mail : Mail} (hCarried : w.carriedOut ⊆ w'.carriedOut)
    (hIssued : w.outside.issued ⊆ w'.outside.issued) (h : mail.Own base w) : mail.Own base w' := by
  cases h with
  | loginOtp otpCode hOne hSaved => exact .loginOtp otpCode hOne (List.map_subset _ hCarried hSaved)
  | verifyAccount t hOne ht hLink => exact .verifyAccount t hOne (hIssued ht) hLink

theorem Honest.grows (hCarried : w.carriedOut ⊆ w'.carriedOut)
    (hIssued : w.outside.issued ⊆ w'.outside.issued) (h : Honest env requests base w γ) :
    Honest env requests base w' γ :=
  ⟨h.request, h.seen, fun t ht => hIssued (h.signed t ht),
    fun e he => List.map_subset _ hCarried (h.saved e he), h.roles⟩

theorem Known.oneAccount {seen : UserEntity} (h : Known env base seen) : seen.OneAccount base := by
  intro row hRow
  constructor
  · exact fun hId => (h.agrees row hRow (.inl hId)).email
  · exact fun hEmail => (h.agrees row hRow (.inr hEmail)).id

theorem agrees_carried {seen e : UserEntity} {row : UserRow} (hId : e.id = .val row.id)
    (hCarries : Holding.Carries seen e) (h : Agrees seen row) : Agrees e row := by
  obtain ⟨hName, hEmail, hPassword, hPhone, hOrigin, hCreated⟩ := hCarries
  refine ⟨hId, ?_, ?_, ?_, ?_, ?_, ?_⟩
  · rw [hEmail, h.email]
  · rw [hName, h.name]
  · rw [hPassword, h.password]
  · rw [hPhone, h.phone]
  · rw [hOrigin, h.origin]
  · rw [hCreated, h.createdAt]

theorem faithful_allowed {e : UserEntity}
    (hCanonical : ∀ row ∈ base.users.rows, env.uuid row.id = some row.id)
    (h : Honest env requests base w γ) (hAllows : γ.SavesUser env e) :
    Faithful env base requests e := by
  unfold SavesUser at hAllows
  cases hSeen : γ.seen with
  | none =>
    rw [hSeen] at hAllows
    refine ⟨fun row _ hId => ?_, fun text _ hId => ?_, .inl hAllows.roles⟩ <;>
      cases hAllows.id.symm.trans hId
  | some seen =>
    rw [hSeen] at hAllows
    have hKnown := h.seen seen hSeen
    obtain ⟨id, email, hId, _, hUuid⟩ := hKnown.address
    -- however the request spells the id, it is read as the one that has been seen
    have hReads : ∀ text, e.id = .val text → env.uuid text = some id := by
      intro text hText
      obtain hSame | ⟨text', id', hText', hReads, hId'⟩ := hAllows.id
      · cases hText.symm.trans (hSame.trans hId)
        exact hUuid
      · cases hText.symm.trans hText'
        cases hId.symm.trans hId'
        exact hReads
    refine ⟨fun row hRow hOwn => ?_, fun text id' hText hReads' => ?_, ?_⟩
    · have hSame : id = row.id := Option.some.inj ((hReads _ hOwn).symm.trans (hCanonical row hRow))
      exact agrees_carried hOwn hAllows.carries (hKnown.agrees row hRow (.inl (hSame ▸ hId)))
    · cases (hReads text hText).symm.trans hReads'
      exact hUuid
    · obtain hSame | ⟨assignRoleModel, hRequest, hText, hRoles⟩ := hAllows.roles
      · exact .inl (hSame.trans hKnown.roles)
      · refine .inr ⟨_, _, hText, hRoles, fun role hRole id' hReads' => ?_⟩
        obtain ⟨i, hi⟩ := h.request
        obtain ⟨hStored, hActive, assignRoleModel', hRequest', hListed⟩ := h.roles role hRole
        cases hRequest.symm.trans hRequest'
        exact ⟨i, assignRoleModel, hi.trans hRequest, hReads', hListed, role, hStored, rfl, hActive⟩

theorem own_mail {mail : Mail} (h : Honest env requests base w γ) (hMails : γ.Mails mail) :
    mail.Own base w := by
  obtain ⟨seen, hSeen, hMail⟩ := hMails
  have hOne := (h.seen seen hSeen).oneAccount
  obtain ⟨otpCode, hSaved, rfl⟩ | ⟨t, ht, hLink, rfl⟩ := hMail
  · exact .loginOtp otpCode hOne (h.saved _ hSaved)
  · exact .verifyAccount t hOne (h.signed t ht) hLink

theorem sound_op {o : Op} (hCanonical : ∀ row ∈ start.base.users.rows, env.uuid row.id = some row.id)
    (hSound : Sound env requests start w) (h : Honest env requests start.base w γ)
    (hAllows : (protocol env).allows γ o) : Sound env requests start (transactional env o w).2 := by
  have hCarried : w.carriedOut ⊆ (transactional env o w).2.carriedOut := carriedOut_grows o
  have hIssued : w.outside.issued ⊆ (transactional env o w).2.outside.issued := TxWorld.issued_grows o
  refine ⟨(TxWorld.base_kept o).trans hSound.base, fun n => ?_, fun item hItem => ?_, fun mail hMail => ?_⟩
  · obtain ⟨k, hTape⟩ := TxWorld.tape_after env w o
    rw [hTape]
    exact hSound.fresh _
  · obtain hOld | ⟨o', rfl, rfl⟩ := TxWorld.mem_carriedOut hItem
    · exact hSound.faithful item hOld
    · refine ⟨?_, hSound.fresh 0⟩
      rintro e rfl
      exact faithful_allowed hCanonical h hAllows
  · obtain hSame | ⟨sent, rfl, hNew⟩ := TxWorld.mails_after env w o
    · rw [hSame] at hMail
      exact (hSound.mails mail hMail).imp_right (mail_grows hCarried hIssued)
    · rw [hNew] at hMail
      obtain hOld | hMail := List.mem_append.mp hMail
      · exact (hSound.mails mail hOld).imp_right (mail_grows hCarried hIssued)
      · rw [List.mem_singleton.mp hMail]
        exact .inr (mail_grows hCarried hIssued (own_mail h hAllows))

theorem known_inserted {e : UserEntity} {new : UserRow} {users : UserTable} {manager : Option Tx}
    (hCanonical : ∀ row ∈ start.base.users.rows, env.uuid row.id = some row.id)
    (hSound : Sound env requests start w) (hOpens : γ.Opens env e)
    (hNew : UserRow.ofEntity w.choice.uuid w.choice.now e = some new)
    (hRows : users.rows = (w.view env manager).users.rows ++ [new]) :
    Known env start.base (new.returning e) := by
  have hAgrees := agrees_returning hNew
  have hFresh : env.uuid new.id = some new.id := by
    rw [UserRow.ofEntity_id hNew]
    exact hSound.fresh 0
  refine ⟨⟨new.id, new.email, hAgrees.id, hAgrees.email, hFresh⟩, hOpens.roles, fun row hRow hSame => ?_⟩
  obtain ⟨row', hRow', hIdentity⟩ := (hSound.seen hCanonical manager).kept.identity row hRow
  obtain ⟨hId, hEmail⟩ := ne_of_inserted hRows hRow'
  obtain hSame | hSame := hSame
  · exact absurd ((Js.val.inj (hAgrees.id.symm.trans hSame)).trans hIdentity.id.symm) hId
  · exact absurd ((Js.val.inj (hAgrees.email.symm.trans hSame)).trans hIdentity.email.symm) hEmail

theorem roles_found {assignRoleModel : AssignRoleModel} {roles : List RoleRow}
    (hCanonical : ∀ row ∈ start.base.users.rows, env.uuid row.id = some row.id)
    (hSound : Sound env requests start w) (hRequest : γ.request = .assignRole assignRoleModel)
    (h : (transactional env (.store (.findRoles assignRoleModel.rolesId)) w).1 = .ok roles) :
    ∀ role ∈ roles, role ∈ start.base.roles ∧ role.status = true ∧
      ∃ assignRoleModel, γ.request = .assignRole assignRoleModel ∧
        ∃ text ∈ assignRoleModel.rolesId, env.uuid text = some role.id := by
  obtain hRefused | ⟨manager, hAnswer⟩ := TxWorld.store_answer env (.findRoles assignRoleModel.rolesId) w
  · rw [hRefused] at h
    cases h
  rw [hAnswer, Database.exec] at h
  split at h
  · cases h
  cases hActive : (w.view env manager).activeRoles env.uuid assignRoleModel.rolesId with
  | none =>
    rw [hActive] at h
    cases h
  | some active =>
    rw [hActive] at h
    cases h
    obtain ⟨read, hRead, rfl⟩ := Option.map_eq_some_iff.mp hActive
    intro role hRole
    rw [(hSound.seen hCanonical manager).roles] at hRole
    obtain ⟨hStored, hChosen⟩ := List.mem_filter.mp hRole
    simp only [Bool.and_eq_true, List.contains_iff_mem] at hChosen
    obtain ⟨_, _, hFrom⟩ := mem_mapM hRead
    exact ⟨hStored, hChosen.2, assignRoleModel, hRequest, hFrom role.id hChosen.1⟩

theorem honest_learns {γ' : Conduct}
    (hCanonical : ∀ row ∈ start.base.users.rows, env.uuid row.id = some row.id)
    (hSound : Sound env requests start w) (h : Honest env requests start.base w γ)
    (hCarried : w.carriedOut ⊆ w'.carriedOut) (hIssued : w.outside.issued ⊆ w'.outside.issued)
    (hLearns : Learns env γ w w' γ') : Honest env requests start.base w' γ' := by
  have hLater : Honest env requests start.base w' γ := h.grows hCarried hIssued
  cases hLearns with
  | nothing => exact hLater
  | found manager _ hFound _ =>
    refine { hLater with seen := ?_ }
    rintro _ ⟨rfl⟩
    exact known_found (hSound.seen hCanonical manager) hFound
  | opened manager hOpens hNew hRows =>
    refine { hLater with seen := ?_ }
    rintro _ ⟨rfl⟩
    exact known_inserted hCanonical hSound hOpens hNew hRows
  | code _ _ => exact { hLater with }
  | saved hSaved => exact { hLater with saved := List.forall_mem_cons.mpr ⟨hSaved, hLater.saved⟩ }
  | roles hRequest hAnswer =>
    exact { hLater with roles := roles_found hCanonical hSound hRequest hAnswer }
  | signed _ _ hNew _ _ =>
    exact { hLater with signed := List.forall_mem_cons.mpr ⟨hNew, hLater.signed⟩ }

theorem maintains (hCanonical : ∀ row ∈ start.base.users.rows, env.uuid row.id = some row.id) :
    Maintains (transactional env) (protocol env) (Sound env requests start)
      (Honest env requests start.base) where
  world _ _ _ hSound h hAllows := sound_op hCanonical hSound h hAllows
  own _ _ o hSound h hAllows := honest_learns hCanonical hSound h (carriedOut_grows o)
    (TxWorld.issued_grows o) (learns hAllows)
  others _ _ _ o _ _ _ h := h.grows (carriedOut_grows o) (TxWorld.issued_grows o)

theorem sound_run [DecidableEq ι] (schedule : List ι) (hIdle : w.journal.entries = [])
    (hUuids : CanonicalUuids env w) :
    Sound env requests w ((Requests.started env w requests).run (transactional env) (protocol env)
      schedule).world := by
  have hNone : w.carriedOut = [] := by rw [TxWorld.carriedOut, hIdle, List.map_nil]
  have hStart : Requests.Holds env requests (Sound env requests w) (Honest env requests w.base)
      (Requests.started env w requests) := by
    refine Requests.holds_started ⟨rfl, hUuids.fresh, fun item hItem => ?_, fun _ h => .inl h⟩
      fun i => ⟨⟨i, rfl⟩, ?_, ?_, ?_, ?_⟩
    · rw [hNone] at hItem
      cases hItem
    all_goals exact fun _ h => by cases h
  exact (hStart.run (maintains hUuids.stored) schedule).world

end Requests

end AccountsKept

/-- In every interleaving, and in whichever transactions, every account stays known by the columns
it was opened with, and comes by a role only where a request asks for just that. -/
theorem accounts_kept {ι : Type} [DecidableEq ι] (env : Env) (w : TxWorld) (requests : ι → Request)
    (schedule : List ι) (hIdle : w.journal.entries = []) (hUuids : CanonicalUuids env w)
    (manager : Option Tx) :
    AccountsKept env w.base requests
      (((Requests.started env w requests).run (transactional env) (protocol env)
        schedule).world.view env manager) :=
  ((AccountsKept.sound_run schedule hIdle hUuids).seen hUuids.stored manager).kept

/-- In every interleaving, a mail only goes to the account whose code or link it carries. -/
theorem mails_own {ι : Type} [DecidableEq ι] (env : Env) (w : TxWorld) (requests : ι → Request)
    (schedule : List ι) (hIdle : w.journal.entries = []) (hUuids : CanonicalUuids env w) :
    MailsOwn w ((Requests.started env w requests).run (transactional env) (protocol env)
      schedule).world :=
  (AccountsKept.sound_run schedule hIdle hUuids).mails

namespace Sample

/-- Bob registers while Ana is given a role. -/
def roleForAna : Fin 2 → Request
  | 0 => .createUser ⟨"Bob", "bob@x.io", "pw", "2"⟩
  | 1 => .assignRole ⟨"u", ["r"]⟩

def roleWorld : TxWorld :=
  let w := txWorld (oneUser row) 30
  { w with base := { w.base with roles := [{ id := "r", name := "admin", description := "Runs the shop", status := true }] } }

end Sample

theorem accounts_kept_sample :
    AccountsKept (Sample.env []) Sample.roleWorld.base Sample.roleForAna
      (((Requests.started (Sample.env []) Sample.roleWorld Sample.roleForAna).run
        (transactional (Sample.env [])) (protocol (Sample.env [])) Sample.crossed).world.view
          (Sample.env []) none) :=
  accounts_kept _ _ _ _ rfl (Sample.canonicalUuids _) none

theorem mails_own_sample :
    MailsOwn Sample.roleWorld
      ((Requests.started (Sample.env []) Sample.roleWorld Sample.roleForAna).run
        (transactional (Sample.env [])) (protocol (Sample.env [])) Sample.crossed).world :=
  mails_own _ _ _ _ rfl (Sample.canonicalUuids _)

end Manejaplus
