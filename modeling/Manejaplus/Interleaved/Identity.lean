import Manejaplus.Interleaved.Flags

/-! # What an account is known by

However old the object is that a request saves, the columns an account is known
by go back as they are stored: no request changes them in what it has read, so
everything in flight agrees with the table.
-/
namespace Manejaplus
open Effect Prog Holding
set_option autoImplicit false

/-- The columns that no request changes. -/
structure UserRow.SameIdentity (row row' : UserRow) : Prop where
  id : row'.id = row.id
  email : row'.email = row.email
  name : row'.name = row.name
  password : row'.password = row.password
  phone : row'.phone = row.phone
  origin : row'.origin = row.origin
  createdAt : row'.createdAt = row.createdAt

instance (row row' : UserRow) : Decidable (row.SameIdentity row') :=
  decidable_of_iff (row'.id = row.id ∧ row'.email = row.email ∧ row'.name = row.name ∧
      row'.password = row.password ∧ row'.phone = row.phone ∧ row'.origin = row.origin ∧
      row'.createdAt = row.createdAt)
    ⟨fun ⟨a, b, c, d, e, f, g⟩ => ⟨a, b, c, d, e, f, g⟩,
      fun ⟨a, b, c, d, e, f, g⟩ => ⟨a, b, c, d, e, f, g⟩⟩

theorem UserRow.SameIdentity.refl (row : UserRow) : row.SameIdentity row :=
  ⟨rfl, rfl, rfl, rfl, rfl, rfl, rfl⟩

theorem UserRow.SameIdentity.trans {a b c : UserRow} (h : a.SameIdentity b)
    (h' : b.SameIdentity c) : a.SameIdentity c where
  id := h'.id.trans h.id
  email := h'.email.trans h.email
  name := h'.name.trans h.name
  password := h'.password.trans h.password
  phone := h'.phone.trans h.phone
  origin := h'.origin.trans h.origin
  createdAt := h'.createdAt.trans h.createdAt

/-- Every account is still there and is known by the same columns. -/
def IdentityKept (t t' : UserTable) : Prop :=
  ∀ row ∈ t.rows, ∃ row' ∈ t'.rows, row.SameIdentity row'

theorem identityKept_refl (t : UserTable) : IdentityKept t t :=
  fun row hRow => ⟨row, hRow, .refl row⟩

theorem IdentityKept.trans {t t' t'' : UserTable} (h : IdentityKept t t')
    (h' : IdentityKept t' t'') : IdentityKept t t'' := by
  intro row hRow
  obtain ⟨row', hRow', hSame⟩ := h row hRow
  obtain ⟨row'', hRow'', hSame'⟩ := h' row' hRow'
  exact ⟨row'', hRow'', hSame.trans hSame'⟩

section Agreement

variable {e seen : UserEntity} {row row' : UserRow}

/-- Saved over the row, the object leaves the columns of its identity as they are. -/
structure Agrees (e : UserEntity) (row : UserRow) : Prop where
  id : e.id = .val row.id
  email : e.email = .val row.email
  name : e.name.writeNotNull row.name = some row.name
  password : e.password.writeNotNull row.password = some row.password
  phone : e.phone.write row.phone = row.phone
  origin : e.origin.write row.origin = row.origin
  createdAt : e.createdAt.writeNotNull row.createdAt = some row.createdAt

theorem Agrees.of_same (h : Agrees e row) (hSame : row.SameIdentity row') : Agrees e row' where
  id := by rw [hSame.id]; exact h.id
  email := by rw [hSame.email]; exact h.email
  name := by rw [hSame.name]; exact h.name
  password := by rw [hSame.password]; exact h.password
  phone := by rw [hSame.phone]; exact h.phone
  origin := by rw [hSame.origin]; exact h.origin
  createdAt := by rw [hSame.createdAt]; exact h.createdAt

theorem agrees_entity (row : UserRow) : Agrees row.entity row := by
  constructor <;> simp [UserRow.entity]

theorem Js.required_eq_some {α : Type} {v : Js α} {a : α} (h : v.required = some a) :
    v = .val a := by
  cases v <;> cases h
  rfl

theorem agrees_returning {id : String} {now : Time} (h : UserRow.ofEntity id now e = some row) :
    Agrees (row.returning e) row := by
  simp only [UserRow.ofEntity, Option.bind_eq_bind, Option.bind_eq_some_iff] at h
  obtain ⟨name, hName, email, hEmail, password, hPassword, status, _, maintainSession, _, hRow⟩ := h
  cases hRow
  refine ⟨rfl, Js.required_eq_some hEmail, ?_, ?_, e.phone.write_returned none,
    e.origin.write_returned (some "web"), rfl⟩
  · rw [UserRow.returning, Js.required_eq_some hName]
    rfl
  · rw [UserRow.returning, Js.required_eq_some hPassword]
    rfl

theorem Agrees.written (h : Agrees seen row) (hCarries : Carries seen e)
    (hWrite : row.write e = some row') : row.SameIdentity row' := by
  obtain ⟨hName, hEmail, hPassword, hPhone, hOrigin, hCreated⟩ := hCarries
  simp only [UserRow.write, hName, hEmail, hPassword, hPhone, hOrigin, hCreated, h.name, h.email,
    h.password, h.phone, h.origin, h.createdAt, Js.writeNotNull_val, Option.bind_eq_bind,
    Option.bind_some, Option.bind_eq_some_iff] at hWrite
  obtain ⟨status, _, maintainSession, _, hRow⟩ := hWrite
  cases hRow
  exact ⟨rfl, rfl, rfl, rfl, rfl, rfl, rfl⟩

end Agreement

section Statements

variable {env : Env} {w : World} {e seen : UserEntity}

/-- A save of what was read from an account, or without an id of its own, leaves the accounts as
they are known. Under another id it would repeat an e-mail, and is refused. -/
theorem identityKept_save
    (he : (∃ seen row, row ∈ w.db.users.rows ∧ Agrees seen row ∧ Carries seen e) ∨
      e.id = .undefined) :
    IdentityKept w.db.users (shared env (.store (.saveUser e)) w).2.db.users := by
  by_cases hAccepts : w.Accepts env e
  · obtain ⟨row, row', updatedAt, hRow, hId, hWrite, hRows⟩ | ⟨new, _, hRows⟩ :=
      shared_accepted hAccepts
    · obtain ⟨seen, stored, hStored, hAgrees, hCarries⟩ | hNone := he
      · have hSame : row'.id = row.id := (UserRow.write_id hWrite).1
        have hNew :
            { row' with updatedAt } ∈ (shared env (.store (.saveUser e)) w).2.db.users.rows := by
          rw [hRows]
          exact List.mem_map.mpr ⟨row, hRow, if_pos hSame.symm⟩
        have hOwn : row = stored := by
          apply UserTable.eq_of_nodup w.db.users.nodupId hRow hStored
          by_contra hNe
          have hOther : stored ∈ (shared env (.store (.saveUser e)) w).2.db.users.rows := by
            rw [hRows]
            exact List.mem_map.mpr ⟨stored, hStored, if_neg fun h => hNe (h.trans hSame).symm⟩
          have hEmail : row'.email = stored.email :=
            UserRow.write_email hWrite (hCarries.2.1.trans hAgrees.email)
          have hEq := UserTable.eq_of_nodup (UserTable.nodupEmail _) hNew hOther hEmail
          have hIds : row'.id = stored.id := by rw [← hEq]
          exact hNe (hSame.symm.trans hIds)
        subst hOwn
        have hWritten := hAgrees.written hCarries hWrite
        intro r hr
        by_cases hEq : r.id = row.id
        · rw [UserTable.eq_of_nodup w.db.users.nodupId hr hRow hEq]
          exact ⟨_, hNew, hWritten.id, hWritten.email, hWritten.name, hWritten.password,
            hWritten.phone, hWritten.origin, hWritten.createdAt⟩
        · refine ⟨r, ?_, .refl r⟩
          rw [hRows]
          exact List.mem_map.mpr ⟨r, hr, if_neg fun h => hEq (h.trans hSame)⟩
      · rw [hNone] at hId
        cases hId
    · intro r hr
      refine ⟨r, ?_, .refl r⟩
      rw [hRows]
      exact List.mem_append_left _ hr
  · rw [shared_refused hAccepts]
    exact identityKept_refl _

theorem shared_findUser_stored {q : UserWhere}
    (h : (shared env (.store (.findUser q)) w).1 = .ok (some e)) :
    ∃ row ∈ w.db.users.rows, e = row.entity := by
  simp only [shared, World.execStore, Database.exec] at h
  split at h
  · cases h
  · cases hFound : w.db.users.findOne env.uuid q with
    | none =>
      rw [hFound] at h
      cases h
    | some found =>
      rw [hFound] at h
      cases found with
      | none => cases h
      | some row =>
        cases h
        exact ⟨row, findOne_mem hFound, rfl⟩

/-- An insert hands back an object that agrees with the row it has become. -/
theorem shared_inserted {e' : UserEntity} (hId : e.id = .undefined)
    (h : (shared env (.store (.saveUser e)) w).1 = .ok e') :
    ∃ row ∈ (shared env (.store (.saveUser e)) w).2.db.users.rows, Agrees e' row := by
  simp only [shared, World.execStore, Database.exec, UserTable.save, hId] at h ⊢
  split at h
  · cases h
  · rename_i hFault
    rw [if_neg hFault]
    cases hSaved : w.db.users.insert w.choice.uuid w.choice.now e with
    | none =>
      rw [hSaved] at h
      cases h
    | some saved =>
      rw [hSaved] at h
      cases h
      simp only [UserTable.insert, Option.bind_eq_bind, Option.bind_eq_some_iff] at hSaved
      obtain ⟨row, hRow, users, hRows, hPair⟩ := hSaved
      cases hPair
      refine ⟨row, ?_, agrees_returning hRow⟩
      change row ∈ users.rows
      rw [UserTable.ofRows?_rows hRows]
      exact List.mem_append_right _ List.mem_cons_self

end Statements

/-- The account object a call holds, if it has read or made one. -/
def Holding.seen (γ : Holding) : Option UserEntity :=
  match γ.snapshot with
  | .none => none
  | .held e => some e
  | .refused e => some e

namespace Identity

def protocol : Protocol services Exception World (Option UserEntity) where
  next γ _ o r := match o, r with
    | .store (.findUser _), .ok (some e) => some e
    | .store (.saveUser _), .ok e => γ.or (some e)
    | _, _ => γ
  allows γ o := match o with
    | .store (.saveUser e) =>
      (∃ seen, γ = some seen ∧ Carries seen e) ∨ (γ = none ∧ e.id = .undefined)
    | _ => True

theorem next_seen (γ : Holding) (w : World) (o : Op) (r : Except Exception (services.Res o)) :
    protocol.next γ.seen w o r = (Holding.protocol.next γ w o r).seen := by
  obtain ⟨request, snapshot⟩ := γ
  cases o with
  | store o =>
    cases o with
    | findUser q =>
      match r with
      | .ok (some e) => rfl
      | .ok none => rfl
      | .error e => rfl
    | saveUser e =>
      cases r with
      | ok e' => cases snapshot <;> rfl
      | error e' => rfl
    | _ => rfl
  | outside o =>
    cases o with
    | comparePasswords passwordTry original =>
      match r with
      | .ok true => rfl
      | .ok false => cases snapshot <;> rfl
      | .error e => cases snapshot <;> rfl
    | _ => rfl
  | transaction o => rfl

theorem allows_seen (γ : Holding) (o : Op) (h : Holding.protocol.allows γ o) :
    protocol.allows γ.seen o := by
  cases o with
  | store o =>
    cases o with
    | saveUser e =>
      obtain ⟨_, _, hSaves⟩ | ⟨hNone, hId⟩ := h
      · cases hSnapshot : γ.snapshot with
        | none =>
          rw [hSnapshot] at hSaves
          exact hSaves.elim
        | held seen =>
          rw [hSnapshot] at hSaves
          exact .inl ⟨seen, by rw [Holding.seen, hSnapshot], hSaves.2⟩
        | refused seen =>
          rw [hSnapshot] at hSaves
          exact .inl ⟨seen, by rw [Holding.seen, hSnapshot], hSaves.2.2⟩
      · exact .inr ⟨by rw [Holding.seen, hNone], hId⟩
    | _ => trivial
  | _ => trivial

end Identity

/-- The calls that read or write accounts. -/
inductive AccountCall where
  | request (q : Request)
  | incrementAttempFailed (id : String)
  deriving DecidableEq, Repr

namespace AccountCall

def prog (cases : CaseMapping) : AccountCall → Async Response
  | .request q => serve cases q
  | .incrementAttempFailed id => do
    UserService.incrementAttempFailed id
    return .done

/-- `incrementAttempFailed` is called for an account that exists. -/
def OnExisting (env : Env) (w : World) : AccountCall → Prop
  | .request _ => True
  | .incrementAttempFailed id => ∃ row ∈ w.db.users.rows, env.uuid id = some row.id

instance (env : Env) (w : World) (call : AccountCall) : Decidable (call.OnExisting env w) :=
  match call with
  | .request _ => isTrue trivial
  | .incrementAttempFailed id =>
    inferInstanceAs (Decidable (∃ row ∈ w.db.users.rows, env.uuid id = some row.id))

end AccountCall

namespace Identity

variable {env : Env}

theorem findUser_existing {w : World} {id : String}
    (hExisting : (AccountCall.incrementAttempFailed id).OnExisting env w) :
    (shared env (.store (.findUser { id := some (.val id) })) w).1 ≠ .ok none := by
  obtain ⟨row, hRow, hUuid⟩ := hExisting
  have hFound : w.db.users.findOne env.uuid { id := some (.val id) } =
      some (w.db.users.byId row.id) := by
    simp [UserTable.findOne, UserTable.idCondition, UserTable.emailCondition, hUuid, UserTable.byId]
  rw [UserTable.byId_eq_some.mpr ⟨hRow, rfl⟩] at hFound
  simp only [shared, World.execStore, Database.exec]
  split
  · exact fun h => by cases h
  · rw [hFound]
    exact fun h => by cases h

theorem obeys_incrementAttempFailed (id : String) :
    Obeys (shared env) protocol
      (fun w => (AccountCall.incrementAttempFailed id).OnExisting env w) none
      ((AccountCall.incrementAttempFailed id).prog env.cases) fun _ _ => True := by
  refine Obeys.seq (R := fun _ _ => True) ?_ (fun _ _ _ => trivial) fun _ _ _ => trivial
  refine Obeys.seq (R := fun γ r => ∀ found, r = .ok found →
    ∃ row : UserRow, found = some row.entity ∧ γ = some row.entity)
    ((Obeys.perform _).mpr ⟨trivial, fun w hExisting found hFound => ?_⟩) ?_ fun _ _ _ => trivial
  · cases found with
    | none => exact absurd hFound (findUser_existing hExisting)
    | some e =>
      obtain ⟨row, _, rfl⟩ := shared_findUser_stored hFound
      rw [hFound]
      exact ⟨row, rfl, rfl⟩
  · intro γ found hFound
    obtain ⟨row, rfl, rfl⟩ := hFound found rfl
    refine Obeys.seq (R := fun _ _ => True)
      ((Obeys.perform _).mpr ⟨.inl ⟨row.entity, rfl, ?_⟩, fun _ _ => trivial⟩) (fun _ _ _ => trivial)
      fun _ _ _ => trivial
    rw [SqlGlobalMapper.mapClass_default, Option.getD_some, SqlGlobalMapper.mapClassMethod_entity]
    exact ⟨rfl, rfl, rfl, rfl, rfl, rfl⟩

theorem obeys_seen {α : Type} {γ : Holding} {p : Async α} {I : World → Prop}
    (hp : Keeps env γ p) : Obeys (shared env) protocol I γ.seen p fun _ _ => True :=
  Obeys.map Holding.seen next_seen allows_seen (fun _ _ => trivial) (fun _ _ h => h) hp

/-- Every call keeps what it has read of the identity of an account. -/
theorem obeys_call (call : AccountCall) :
    Obeys (shared env) protocol (fun w => call.OnExisting env w) none (call.prog env.cases)
      fun _ _ => True := by
  cases call with
  | request q => exact obeys_seen (keeps_serve q)
  | incrementAttempFailed id => exact obeys_incrementAttempFailed id

abbrev Calls (ι : Type) := Pool services Exception World Response (Option UserEntity) ι

variable {ι : Type}

def called (env : Env) (w : World) (calls : ι → AccountCall) : Calls ι where
  world := w
  threads i := ⟨(calls i).prog env.cases, none⟩

structure Known (env : Env) (calls : ι → AccountCall) (p : Calls ι) : Prop where
  obedient : ∀ i, Obeys (shared env) protocol (fun w => (calls i).OnExisting env w)
    (p.threads i).ghost (p.threads i).prog fun _ _ => True
  agrees : ∀ i, ∀ seen ∈ (p.threads i).ghost, ∃ row ∈ p.world.db.users.rows, Agrees seen row

theorem known_called (w : World) (calls : ι → AccountCall) : Known env calls (called env w calls) :=
  ⟨fun i => obeys_call (calls i), fun _ _ hSeen => by cases hSeen⟩

/-- What one operation of a call that keeps to the protocol does to the accounts. -/
theorem identityKept_op {w : World} {γ : Option UserEntity} {o : Op} (hAllows : protocol.allows γ o)
    (hAgrees : ∀ seen ∈ γ, ∃ row ∈ w.db.users.rows, Agrees seen row) :
    IdentityKept w.db.users (shared env o w).2.db.users := by
  by_cases hSave : ∃ e, o = .store (.saveUser e)
  · obtain ⟨e, rfl⟩ := hSave
    apply identityKept_save
    obtain ⟨seen, hSeen, hCarries⟩ | ⟨_, hId⟩ := hAllows
    · obtain ⟨row, hRow, hOwn⟩ := hAgrees seen hSeen
      exact .inl ⟨seen, row, hRow, hOwn, hCarries⟩
    · exact .inr hId
  · rw [shared_users fun e he => hSave ⟨e, he⟩]
    exact identityKept_refl _

/-- What a call holds after an operation agrees with the table that the operation leaves. -/
theorem agrees_op {w : World} {γ : Option UserEntity} {o : Op} (hAllows : protocol.allows γ o)
    (hAgrees : ∀ seen ∈ γ, ∃ row ∈ w.db.users.rows, Agrees seen row) :
    ∀ seen ∈ protocol.next γ w o (shared env o w).1,
      ∃ row ∈ (shared env o w).2.db.users.rows, Agrees seen row := by
  have hKept : IdentityKept w.db.users (shared env o w).2.db.users := identityKept_op hAllows hAgrees
  have hOld : ∀ seen ∈ γ, ∃ row ∈ (shared env o w).2.db.users.rows, Agrees seen row := by
    intro seen hSeen
    obtain ⟨row, hRow, hOwn⟩ := hAgrees seen hSeen
    obtain ⟨row', hRow', hSame⟩ := hKept row hRow
    exact ⟨row', hRow', hOwn.of_same hSame⟩
  cases o with
  | store o =>
    cases o with
    | findUser q =>
      match hAnswer : (shared env (.store (.findUser q)) w).1 with
      | .ok (some e) =>
        rintro _ ⟨rfl⟩
        obtain ⟨row, hRow, rfl⟩ := shared_findUser_stored hAnswer
        rw [shared_findUser_db]
        exact ⟨row, hRow, agrees_entity row⟩
      | .ok none => exact hOld
      | .error e => exact hOld
    | saveUser e =>
      match hAnswer : (shared env (.store (.saveUser e)) w).1 with
      | .ok e' =>
        cases γ with
        | some seen => exact hOld
        | none =>
          rintro _ ⟨rfl⟩
          obtain ⟨_, hSome, _⟩ | ⟨_, hId⟩ := hAllows
          · cases hSome
          · exact shared_inserted hId hAnswer
      | .error e' => exact hOld
    | _ => exact hOld
  | _ => exact hOld

variable [DecidableEq ι] {calls : ι → AccountCall}

theorem identityKept_step (p : Calls ι) (i : ι) (h : Known env calls p) :
    IdentityKept p.world.db.users (p.step (shared env) protocol i).world.db.users := by
  obtain hIdle | ⟨o, k, hProg, hStep⟩ := Pool.step_cases (shared env) protocol p i
  · rw [hIdle]
    exact identityKept_refl _
  · have hObeys := h.obedient i
    rw [hProg] at hObeys
    rw [hStep]
    exact identityKept_op hObeys.1 (h.agrees i)

theorem known_step (p : Calls ι) (i : ι) (h : Known env calls p)
    (hExisting : (calls i).OnExisting env p.world) :
    Known env calls (p.step (shared env) protocol i) := by
  refine ⟨Pool.obeys_step h.obedient i hExisting, fun j seen hSeen => ?_⟩
  have hKept := identityKept_step p i h
  obtain hIdle | ⟨o, k, hProg, hStep⟩ := Pool.step_cases (shared env) protocol p i
  · rw [hIdle] at hSeen ⊢
    exact h.agrees j seen hSeen
  · have hObeys := h.obedient i
    rw [hProg] at hObeys
    rw [hStep] at hKept hSeen ⊢
    by_cases hj : j = i
    · subst hj
      simp only [Function.update_self] at hSeen
      exact agrees_op hObeys.1 (h.agrees j) seen hSeen
    · simp only [Function.update_of_ne hj] at hSeen
      obtain ⟨row, hRow, hOwn⟩ := h.agrees j seen hSeen
      obtain ⟨row', hRow', hSame⟩ := hKept row hRow
      exact ⟨row', hRow', hOwn.of_same hSame⟩

/-- Whenever a call takes a step, the account it is for exists. -/
def AllExisting (env : Env) (calls : ι → AccountCall) (p : Calls ι) (schedule : List ι) : Prop :=
  Pool.Along (shared env) protocol (fun p i => (calls i).OnExisting env p.world) p schedule

instance (env : Env) (calls : ι → AccountCall) (p : Calls ι) (schedule : List ι) :
    Decidable (AllExisting env calls p schedule) :=
  inferInstanceAs (Decidable (Pool.Along _ _ (fun p i => (calls i).OnExisting env p.world) _ _))

theorem known_run {schedule : List ι} {p : Calls ι} (h : Known env calls p)
    (hExisting : AllExisting env calls p schedule) :
    Known env calls (p.run (shared env) protocol schedule) :=
  Pool.run_induction known_step h hExisting

theorem identityKept_run {schedule : List ι} {p : Calls ι} (h : Known env calls p)
    (hExisting : AllExisting env calls p schedule) :
    IdentityKept p.world.db.users (p.run (shared env) protocol schedule).world.db.users := by
  induction schedule generalizing p with
  | nil => exact identityKept_refl _
  | cons i schedule ih =>
    exact (identityKept_step p i h).trans (ih (known_step p i h hExisting.1) hExisting.2)

end Identity

open Identity (AllExisting called known_called known_run identityKept_run) in
/-- In every stretch of every run no account disappears and none changes what it is known by. -/
theorem identity_kept {ι : Type} [DecidableEq ι] (env : Env) (w : World) (calls : ι → AccountCall)
    (earlier stretch : List ι)
    (hExisting : AllExisting env calls (called env w calls) (earlier ++ stretch)) :
    IdentityKept ((called env w calls).run (shared env) Identity.protocol earlier).world.db.users
      ((called env w calls).run (shared env) Identity.protocol
        (earlier ++ stretch)).world.db.users := by
  obtain ⟨hEarlier, hStretch⟩ := Pool.along_append.mp hExisting
  rw [Pool.run_append]
  exact identityKept_run (known_run (known_called w calls) hEarlier) hStretch

/-- A login and a failed attempt that both hold the row as it was. -/
def Sample.loginAndIncrement : Fin 2 → AccountCall
  | 0 => .request (.refreshToken rightLogin)
  | 1 => .incrementAttempFailed "u"

theorem identity_kept_sample :
    IdentityKept
      ((Identity.called (Sample.env []) Sample.lastGuess Sample.loginAndIncrement).run
        (shared (Sample.env [])) Identity.protocol [0, 1]).world.db.users
      ((Identity.called (Sample.env []) Sample.lastGuess Sample.loginAndIncrement).run
        (shared (Sample.env [])) Identity.protocol ([0, 1] ++ [1, 0, 0, 0])).world.db.users :=
  identity_kept _ _ _ _ _ (by decide)

end Manejaplus
