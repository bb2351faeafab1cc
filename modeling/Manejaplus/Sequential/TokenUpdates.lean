import Manejaplus.Sequential.Success
import Manejaplus.Sequential.TokenPurpose

/-! # Which account a token updates -/
namespace Manejaplus
open Effect Prog
set_option autoImplicit false

variable {env : Env} {w w' : World} {token : String} {row : UserRow}

/-- The token names this account by its e-mail and its id, as they are stored. -/
def Addresses (env : Env) (token : String) (row : UserRow) : Prop :=
  (env.decode token).bind Payload.address = some (.val row.email, .val row.id)

instance : Decidable (Addresses env token row) := inferInstanceAs (Decidable (_ = _))

/-- Either the account that the token names has its flag set, or the token is refused. -/
def UpdatesAddressee (env : Env) (p : Async AccountInfo) (flag : UserRow → UserRow) (token : String)
    (w : World) : Prop :=
  (∃ info row users, (run (alone env) p w).1 = .ok info ∧ row ∈ w.db.users.rows ∧
    Addresses env token row ∧ w.db.users.Updated users row (flag row) ∧
    (run (alone env) p w).2.db = { w.db with users }) ∨
  (run (alone env) p w).1 = .error .verifingAccount ∧ (run (alone env) p w).2.db = w.db

/-- The transaction opens, and no row that the token leads to and that gets saved is named by
anything but its e-mail and its id. -/
def LooksUpAddressee (env : Env) (token : String) (w : World) : Prop :=
  (w.outside.tape 0).fault = false ∧
    ∀ row, (w.outside.tape 2).fault = false → (w.outside.tape 3).fault = false →
      w.db.byToken env token = some row → Addresses env token row

section Success

theorem decode_ok {payload : Option Payload} :
    run (alone env) (Async.decode token) w = (.ok payload, w') ↔
      env.decode token = payload ∧ w.tick = w' := by
  rw [Async.decode, run_outside, World.execOutside, Outside.exec]
  simp [World.tick]

theorem getUserByField_ok {q : UserWhere} {found : Option UserEntity} :
    run (alone env) (UserRepositoryImpl.getUserByField q) w = (.ok found, w') ↔
      ¬ ((UserRepositoryImpl.conditions q).length = 0 ∨
        (UserRepositoryImpl.conditions q).any (· = .undefined)) ∧
      run (alone env) (Async.findUser q) w = (.ok found, w') := by
  unfold UserRepositoryImpl.getUserByField
  split
  · rename_i hFields
    exact iff_of_false (fun h => by cases h) fun h => h.1 hFields
  · rename_i hFields
    exact (and_iff_right hFields).symm

/-- A token leads to a row when its subject has both keys and the query finds the row. -/
theorem byToken_eq_some {db : Database} : db.byToken env token = some row ↔
    ∃ p sub, env.decode token = some p ∧ p.sub = .val sub ∧
      ¬ (sub.email = .undefined ∨ sub.id = .undefined) ∧
      db.users.findOne env.uuid { email := some sub.email, id := some sub.id } = some (some row) := by
  unfold Database.byToken
  constructor
  · intro h
    split at h
    · rename_i sub iat exp hDecode
      split at h
      · cases h
      · exact ⟨_, sub, hDecode, rfl, ‹_›, by simpa [Option.getD_eq_iff] using h⟩
    · cases h
  · rintro ⟨⟨_, iat, exp⟩, sub, hDecode, hSub, hDefined, hFound⟩
    cases hSub
    simp only [hDecode, if_neg hDefined, hFound, Option.getD_some]

theorem conditions_defined {sub : UserObject} :
    ¬ ((UserRepositoryImpl.conditions { email := some sub.email, id := some sub.id }).length = 0 ∨
        (UserRepositoryImpl.conditions { email := some sub.email, id := some sub.id }).any
          (· = .undefined)) ↔
      ¬ (sub.email = .undefined ∨ sub.id = .undefined) := by
  simp [UserRepositoryImpl.conditions]

theorem succeeds_updateByToken {setFlag : UserEntity → UserEntity} {flag : UserRow → UserRow}
    (hSets : Sets setFlag flag) :
    Succeeds env (AuthService.updateByToken setFlag token) w ↔
      (w.outside.tape 0).fault = false ∧ (w.outside.tape 2).fault = false ∧
        (w.outside.tape 3).fault = false ∧ ∃ row, w.db.byToken env token = some row := by
  have hPlain := plain_of_among (performs_updateByToken setFlag token) (by decide)
  refine (succeeds_transactional hPlain).trans (and_congr Iff.rfl ?_)
  apply (succeeds_rethrow fun _ => .verifingAccount).trans
  constructor
  · intro h
    obtain ⟨payload, w₁, hDecode, h₁⟩ := succeeds_bind.mp h
    obtain ⟨hPayload, rfl⟩ := decode_ok.mp hDecode
    obtain ⟨sub, w₂, hSubject, h₂⟩ := succeeds_bind.mp h₁
    obtain ⟨rfl, ⟨_, hError⟩ | ⟨p, sub, rfl, hSub, hOk⟩⟩ := subject_cases hSubject
    · cases hError
    cases hOk
    obtain ⟨found, w₃, hFind, h₃⟩ := succeeds_bind.mp h₂
    obtain ⟨hFields, hFound⟩ := getUserByField_ok.mp hFind
    obtain ⟨hFault, ⟨user, hUser, rfl⟩, rfl⟩ := findUser_ok.mp hFound
    cases user with
    | none => exact absurd h₃ (not_succeeds_throw _ _)
    | some row =>
      obtain ⟨saved, w₄, hSave⟩ := succeeds_map.mp h₃
      refine ⟨hFault, (saveUser_ok.mp hSave).1, row, byToken_eq_some.mpr ?_⟩
      exact ⟨p, sub, hPayload, hSub, conditions_defined.mp hFields, hUser⟩
  · rintro ⟨hFault, hFault₁, row, hToken⟩
    obtain ⟨⟨_, iat, exp⟩, sub, hDecode, hSub, hDefined, hFound⟩ := byToken_eq_some.mp hToken
    cases hSub
    refine succeeds_bind.mpr ⟨_, _, decode_ok.mpr ⟨hDecode, rfl⟩, ?_⟩
    refine succeeds_bind.mpr ⟨sub, _, rfl, ?_⟩
    refine succeeds_bind.mpr ⟨some row.entity, _, getUserByField_ok.mpr
      ⟨conditions_defined.mpr hDefined, findUser_ok.mpr ⟨hFault, ⟨some row, hFound, rfl⟩, rfl⟩⟩, ?_⟩
    have hRow : w.db.users.byId row.id = some row :=
      UserTable.byId_eq_some.mpr ⟨findOne_mem hFound, rfl⟩
    obtain ⟨users, hTable, _⟩ := save_stored hRow (by exact hSets.id _) (hSets.write row)
      (hSets.keepsEmail row)
    exact succeeds_map.mpr ⟨_, _, saveUser_ok.mpr ⟨hFault₁, users, hTable, rfl⟩⟩

end Success

section Exact

variable {setFlag : UserEntity → UserEntity} {flag : UserRow → UserRow}

/-- Once the transaction is open, the catch-all leaves one error. -/
theorem updateByToken_error {e : Exception}
    (hError : (run (alone env) (AuthService.updateByToken setFlag token) w).1 = .error e) :
    e = if w.choice.fault then .external else .verifingAccount := by
  rw [AuthService.updateByToken, transactional_answer
    (plain_of_among (performs_updateByToken setFlag token) (by decide))] at hError
  split at hError
  · rename_i hFault
    rw [if_pos hFault]
    exact (Except.error.inj hError).symm
  · rename_i hFault
    rw [if_neg hFault]
    obtain ⟨_, hOk, _⟩ | ⟨_, _, _, hThrow⟩ := run_catching_cases _ (Prod.ext hError rfl)
    · cases hOk
    · cases hThrow
      rfl

theorem Addresses.unique {db : Database} {found : UserRow} (h : Addresses env token row)
    (hRow : row ∈ db.users.rows) (hToken : db.byToken env token = some found) : found = row := by
  obtain ⟨⟨_, iat, exp⟩, sub, hDecode, hSub, _, hFound⟩ := byToken_eq_some.mp hToken
  cases hSub
  simp only [Addresses, hDecode, Option.bind_some, Payload.address, Option.some.injEq,
    Prod.mk.injEq] at h
  rw [h.1, h.2] at hFound
  exact UserTable.eq_of_nodup db.users.nodupEmail (findOne_mem hFound) hRow (findOne_both hFound).1

theorem updatesAddressee_iff (hSets : Sets setFlag flag) :
    UpdatesAddressee env (AuthService.updateByToken setFlag token) flag token w ↔
      LooksUpAddressee env token w := by
  constructor
  · rintro (⟨info, row, users, hOk, hRow, hAddresses, _⟩ | ⟨hRefused, _⟩)
    · obtain ⟨hFault, _⟩ := (succeeds_updateByToken hSets).mp (succeeds_iff.mpr ⟨info, hOk⟩)
      refine ⟨hFault, fun found _ _ hToken => ?_⟩
      exact hAddresses.unique hRow hToken ▸ hAddresses
    · have hError := updateByToken_error hRefused
      cases hFault : w.choice.fault with
      | true =>
        rw [hFault] at hError
        cases hError
      | false =>
        refine ⟨hFault, fun found hFault₂ hFault₃ hToken => ?_⟩
        obtain ⟨info, hOk⟩ := succeeds_iff.mp ((succeeds_updateByToken hSets).mpr
          ⟨hFault, hFault₂, hFault₃, found, hToken⟩)
        cases hRefused.symm.trans hOk
  · rintro ⟨hFault, hExact⟩
    rcases hRun : run (alone env) (AuthService.updateByToken setFlag token) w with ⟨r, w'⟩
    have hEnds := updateByToken_cases hSets hRun
    unfold UpdatesAddressee
    rw [hRun]
    generalize hState : w'.state = s at hEnds
    cases hEnds with
    | refused =>
      have hError := updateByToken_error (congrArg Prod.fst hRun)
      rw [show w.choice.fault = false from hFault] at hError
      cases hError
      exact .inr ⟨rfl, congrArg State.db hState⟩
    | updated hToken hUsers =>
      obtain ⟨_, hFault₂, hFault₃, _⟩ := (succeeds_updateByToken hSets).mp ⟨_, _, hRun⟩
      have hMem := (UserTable.byId_eq_some.mp
        (Request.account_stored (q := .verifyAccount token) hToken)).1
      exact .inl ⟨_, _, _, rfl, hMem, hExact _ hFault₂ hFault₃ hToken, hUsers,
        congrArg State.db hState⟩

/-- Both requests update the account that the token names, or refuse it, exactly when the lookup
leads nowhere else. -/
theorem token_updates (env : Env) (token : String) (w : World) :
    (UpdatesAddressee env (AuthService.verifyAccount token)
      (fun row => { row with isVerified := some true }) token w ↔ LooksUpAddressee env token w) ∧
    (UpdatesAddressee env (AuthService.unlockAccountToken token)
      (fun row => { row with isBlocked := some false }) token w ↔ LooksUpAddressee env token w) :=
  ⟨updatesAddressee_iff sets_isVerified, updatesAddressee_iff sets_isBlocked⟩

end Exact

namespace Sample

def nobody : Payload where
  sub := .val { email := .null, id := .null }
  iat := none
  exp := none

def pending : World := world (oneUser { Sample.row with isVerified := some false })

end Sample

/-- A token that names nobody verifies the first account of the table. -/
theorem verifyAccount_nobody :
    ¬ UpdatesAddressee (Sample.env [Sample.nobody])
        (AuthService.verifyAccount (Sample.sign Sample.nobody))
        (fun row => { row with isVerified := some true }) (Sample.sign Sample.nobody)
        Sample.pending ∧
    (serveAlone (Sample.env [Sample.nobody]) (.verifyAccount (Sample.sign Sample.nobody))
      Sample.pending).2.db.users.rows.map (·.isVerified) = [some true] := by
  refine ⟨?_, by decide⟩
  intro h
  obtain ⟨_, hExact⟩ := (updatesAddressee_iff sets_isVerified).mp h
  exact absurd (hExact { Sample.row with isVerified := some false } rfl rfl (by decide)) (by decide)

end Manejaplus
