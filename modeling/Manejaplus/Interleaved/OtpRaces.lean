import Manejaplus.Effect.OneShot
import Manejaplus.Interleaved.Shared
import Manejaplus.Sequential.OtpWindow

/-! # Logins that check one code at the same time

A check reads the newest row, tests it and saves it back as used, in steps that
others may come between. What it tests is the row as it was read.
-/
namespace Manejaplus
open Effect Prog
set_option autoImplicit false

/-- The stored code that a login has read, and then marked used. -/
inductive CodeCheck where
  | none
  | read (row : OtpRow)
  | accepted (row : OtpRow)
  deriving DecidableEq

namespace CodeCheck

def claimed : CodeCheck → Option Nat
  | .accepted row => some row.id
  | _ => Option.none

theorem claimed_eq_some {γ : CodeCheck} {id : Nat} :
    γ.claimed = some id ↔ ∃ row, γ = .accepted row ∧ row.id = id := by
  cases γ <;> simp [claimed]

end CodeCheck

namespace OtpRaces

abbrev Logins (ι : Type) := Pool services Exception World JWTTokens CodeCheck ι

def protocol : Protocol services Exception World CodeCheck where
  next γ w o r := match o, r with
    | .store (.findOtp typeOtp userId), .ok _ =>
      match w.db.otps.findByType typeOtp userId with
      | some row => .read row
      | none => γ
    | .store (.saveOtp _), .ok _ => match γ with
      | .read row => .accepted row
      | γ => γ
    | _, _ => γ
  allows γ o := match o with
    | .store (.findOtp _ _) => γ = .none
    | .store (.saveOtp e) => match γ with
      | .read row => row.wasUsed = false ∧ e = { row.entity with wasUsed := .val true }
      | _ => e.id = .undefined ∧ e.wasUsed = .undefined
    | _ => True

def requested {ι : Type} (w : World) (q : ι → LoginModel) : Logins ι where
  world := w
  threads i := ⟨AuthService.loginUser (q i), .none⟩

/-- Each stored code is accepted by at most one login, and none gets through a check without. -/
structure OneLogin {ι : Type} (q : ι → LoginModel) (p : Logins ι) : Prop where
  once : ∀ i j row row', (p.threads i).ghost = .accepted row →
    (p.threads j).ghost = .accepted row' → row.id = row'.id → i = j
  through : ∀ i tokens, (p.threads i).prog.result = some (.ok tokens) →
    (p.threads i).ghost = .none ∨
      ∃ row, (p.threads i).ghost = .accepted row ∧ (q i).otpCode = some row.otp

def AcceptsOtp (w : World) (e : OtpObject) : Prop :=
  w.choice.fault = false ∧ (w.db.otps.save w.db.users w.choice.now e).isSome = true

/-- A code that is about to be marked used has not been marked by another login meanwhile. -/
def StillUnused {ι : Type} (p : Logins ι) (i : ι) : Prop :=
  ∀ e, (p.threads i).prog.awaits = some (.store (.saveOtp e)) → e.wasUsed = .val true →
    AcceptsOtp p.world e → ∀ row ∈ p.world.db.otps.rows, e.id = .val row.id → row.wasUsed = false

variable {env : Env} {α β : Type}

section Programs

/-- Of the codes, at most a new one is saved. -/
def Codeless : Op → Prop
  | .store (.findOtp _ _) => False
  | .store (.saveOtp e) => e.id = .undefined ∧ e.wasUsed = .undefined
  | _ => True

theorem codeless_of_kind {o : Op} (h : o.kind ∉ [.findOtp, .saveOtp]) : Codeless o := by
  cases o with
  | store o =>
    cases o with
    | saveOtp e =>
      by_cases hNew : e.id = .undefined ∧ e.wasUsed = .undefined
      · exact hNew
      · simp [hNew] at h
    | findOtp typeOtp userId => simp at h
    | _ => trivial
  | _ => trivial

theorem codeless_of_among {kinds : List OpKind} {p : Async α} (hp : p.Uses (Op.Among kinds))
    (h : ∀ kind ∈ kinds, kind ∉ [OpKind.findOtp, .saveOtp]) : p.Uses Codeless :=
  hp.mono fun _ ho => codeless_of_kind (h _ ho)

theorem obeys_codeless {γ : CodeCheck} {p : Async α} (hp : p.Uses Codeless)
    (hγ : ∀ row, γ ≠ .read row) :
    Obeys (shared env) protocol (fun _ => True) γ p fun γ' _ => γ' = γ := by
  refine Obeys.of_uses hp ?_ ?_ rfl
  · rintro γ' o rfl ho
    cases o with
    | store o =>
      cases o with
      | findOtp typeOtp userId => exact ho.elim
      | saveOtp e =>
        cases γ' with
        | read row => exact absurd rfl (hγ row)
        | none => exact ho
        | accepted row => exact ho
      | _ => trivial
    | _ => trivial
  · rintro γ' w o r rfl ho
    cases o with
    | store o =>
      cases o with
      | findOtp typeOtp userId => exact ho.elim
      | saveOtp e =>
        cases r with
        | error e => rfl
        | ok e =>
          cases γ' with
          | read row => exact absurd rfl (hγ row)
          | none => rfl
          | accepted row => rfl
      | _ => rfl
    | _ => rfl

theorem codeless_sendOtpCode (user : UserModel) :
    (OtpService.sendOtpCode .LOGIN_OTP user).Uses Codeless :=
  uses_transactional (fun _ => trivial)
    (codeless_of_among (performs_sendOtpCode .LOGIN_OTP user) (by decide))

/-- How a check ends, and what it has come across by then. -/
def Checked (otpCode : String) (γ : CodeCheck) : Except Exception Bool → Prop
  | .ok true => ∃ row, γ = .accepted row ∧ row.otp = otpCode
  | _ => True

theorem obeys_checkOtpCodeIsValid (typeOtp : TypeOtp) (otpCode : String) (userId : Js String) :
    Obeys (shared env) protocol (fun _ => True) .none
      (OtpService.checkOtpCodeIsValid typeOtp otpCode userId) (Checked otpCode) := by
  refine Obeys.seq (R := fun γ r => ∀ e, r = .ok (some e) →
    ∃ row : OtpRow, γ = .read row ∧ e = row.entity) ?_ ?_ fun _ _ _ => trivial
  · refine (Obeys.perform _).mpr ⟨rfl, fun w _ e hFound => ?_⟩
    simp only [shared, World.execStore, Database.exec] at hFound ⊢
    split at hFound
    · cases hFound
    · rename_i hFault
      simp only [hFault, Bool.false_eq_true, if_false, protocol]
      cases hRow : w.db.otps.findByType typeOtp userId with
      | none =>
        rw [hRow] at hFound
        cases hFound
      | some row =>
        rw [hRow] at hFound
        cases hFound
        exact ⟨row, rfl, rfl⟩
  · intro γ found hFound
    cases found with
    | none => trivial
    | some e =>
      obtain ⟨row, rfl, rfl⟩ := hFound e rfl
      simp only
      split
      · rename_i hAccepts
        obtain ⟨hCode, _, hUnused⟩ := OtpWindow.acceptsOtp_row hAccepts
        refine Obeys.seq (R := fun γ r => ∀ saved, r = .ok saved → γ = .accepted row) ?_ ?_
          fun _ _ _ => trivial
        · refine (Obeys.perform _).mpr ⟨⟨hUnused, rfl⟩, fun w _ saved hSaved => ?_⟩
          simp only [protocol, hSaved]
        · intro γ saved hSaved
          exact ⟨row, hSaved saved rfl, hCode⟩
      · trivial

/-- How a login ends: without a check, or with a code of its own accepted. -/
def Ended (loginModel : LoginModel) (γ : CodeCheck) : Except Exception JWTTokens → Prop
  | .ok _ => γ = .none ∨ ∃ row, γ = .accepted row ∧ loginModel.otpCode = some row.otp
  | .error _ => True

theorem obeys_handleOtpIfRequired (user : UserModel) (loginModel : LoginModel) :
    Obeys (shared env) protocol (fun _ => True) .none
      (AuthService.handleOtpIfRequired user loginModel) fun γ r => r = .ok () →
        γ = .none ∨ ∃ row, γ = .accepted row ∧ loginModel.otpCode = some row.otp := by
  have hNone : ∀ row, CodeCheck.none ≠ .read row := fun _ h => by cases h
  have hNeeds := codeless_of_among (performs_validateNeedOtpToLogin user) (by decide)
  refine Obeys.seq (obeys_codeless hNeeds hNone) ?_ fun _ _ _ h => by cases h
  rintro γ needs rfl
  split
  · refine Obeys.seq (obeys_codeless (codeless_sendOtpCode user) hNone) ?_
      fun _ _ _ h => by cases h
    exact fun _ _ _ h => by cases h
  · refine Obeys.seq (obeys_codeless hNeeds hNone) ?_ fun _ _ _ h => by cases h
    rintro γ needs' rfl
    split
    · rename_i hHas
      refine Obeys.seq (obeys_checkOtpCodeIsValid _ _ _) ?_ fun _ _ _ h => by cases h
      intro γ isValid hChecked
      cases isValid with
      | false => exact fun h => by cases h
      | true =>
        obtain ⟨row, rfl, hCode⟩ := hChecked
        refine fun _ => .inr ⟨row, rfl, ?_⟩
        cases hGiven : loginModel.otpCode with
        | none => simp [AuthService.hasOtpCode, hGiven] at hHas
        | some code =>
          rw [hCode, hGiven]
          rfl
    · exact fun _ => .inl rfl

theorem obeys_loginUser (loginModel : LoginModel) :
    Obeys (shared env) protocol (fun _ => True) .none (AuthService.loginUser loginModel)
      (Ended loginModel) := by
  have hNone : ∀ row, CodeCheck.none ≠ .read row := fun _ h => by cases h
  have hCredentials := codeless_of_among (performs_validateUserCredentials loginModel) (by decide)
  refine Obeys.seq (obeys_codeless hCredentials hNone) ?_ fun _ _ _ => trivial
  rintro γ user rfl
  have hStatus := codeless_of_among (performs_checkUserStatus user) (by decide)
  refine Obeys.seq (obeys_codeless hStatus hNone) ?_ fun _ _ _ => trivial
  rintro γ _ rfl
  refine Obeys.seq (obeys_handleOtpIfRequired user loginModel) ?_ fun _ _ _ => trivial
  intro γ _ hHandled
  have hEnded := hHandled rfl
  have hRead : ∀ row, γ ≠ .read row := by
    rintro row rfl
    obtain h | ⟨_, h, _⟩ := hEnded <;> cases h
  have hLogin := codeless_of_among (performs_handleUserLogin user) (by decide)
  refine Obeys.mono ?_ (obeys_codeless hLogin hRead)
  rintro γ' r rfl
  cases r with
  | error e => trivial
  | ok tokens => exact hEnded

end Programs

section Step
variable {ι : Type} {w : World}

/-- What an operation that keeps to the protocol does to the codes and to what a login has seen. -/
inductive Moves (t : OtpTable) (γ : CodeCheck) : OtpTable → CodeCheck → Prop
  | stays : Moves t γ t γ
  | reads {row : OtpRow} : γ = .none → row ∈ t.rows → Moves t γ t (.read row)
  | adds {t' : OtpTable} {row : OtpRow} : row.wasUsed = false → t'.rows = t.rows ++ [row] →
      Moves t γ t' γ
  | marks {t' : OtpTable} {row stored used : OtpRow} : γ = .read row → row.wasUsed = false →
      stored ∈ t.rows → stored.id = row.id → used.id = stored.id → used.wasUsed = true →
      t'.rows = OtpTable.replace used t.rows → Moves t γ t' (.accepted row)

theorem shared_otps {o : Op} (ho : ∀ e, o ≠ .store (.saveOtp e)) :
    (shared env o w).2.db.otps = w.db.otps := by
  by_cases hUser : ∃ e, o = .store (.saveUser e)
  · obtain ⟨e, rfl⟩ := hUser
    simp only [shared, World.execStore, Database.exec]
    split
    · rfl
    · cases w.db.users.save env.uuid w.choice.uuid w.choice.now e <;> rfl
  · rw [shared_db (fun e h => hUser ⟨e, h⟩) ho]

theorem shared_saveOtp (env : Env) (w : World) (e : OtpObject) :
    ((shared env (.store (.saveOtp e)) w).2.db.otps = w.db.otps ∧ ¬ AcceptsOtp w e ∧
      ∃ x, (shared env (.store (.saveOtp e)) w).1 = .error x) ∨
    (AcceptsOtp w e ∧ ∃ e' otps, w.db.otps.save w.db.users w.choice.now e = some (e', otps) ∧
      (shared env (.store (.saveOtp e)) w).2.db.otps = otps ∧
      (shared env (.store (.saveOtp e)) w).1 = .ok e') := by
  simp only [shared, World.execStore, Database.exec, AcceptsOtp]
  cases hFault : w.choice.fault with
  | true => exact .inl ⟨rfl, fun h => Bool.noConfusion h.1, _, rfl⟩
  | false =>
    cases hSaved : w.db.otps.save w.db.users w.choice.now e with
    | none => exact .inl ⟨rfl, fun h => Bool.noConfusion h.2, _, rfl⟩
    | some saved => exact .inr ⟨⟨rfl, rfl⟩, saved.1, saved.2, rfl, rfl, rfl⟩

theorem save_new {t otps : OtpTable} {users : UserTable} {now : Time} {e e' : OtpObject}
    (hId : e.id = .undefined) (hUsed : e.wasUsed = .undefined)
    (h : t.save users now e = some (e', otps)) :
    ∃ row : OtpRow, row.wasUsed = false ∧ otps.rows = t.rows ++ [row] := by
  simp only [OtpTable.save, hId, Option.bind_eq_bind, Option.bind_eq_some_iff] at h
  obtain ⟨row, hRow, otps', hRows, hEq⟩ := h
  cases hEq
  simp only [OtpTable.ofEntity, hUsed, Option.bind_eq_bind, Option.bind_eq_some_iff] at hRow
  obtain ⟨_, _, _, _, wasUsed, hWasUsed, _, _, hEq⟩ := hRow
  cases hEq
  cases hWasUsed
  exact ⟨_, rfl, OtpTable.ofRows?_rows hRows⟩

theorem save_held {t otps : OtpTable} {users : UserTable} {now : Time} {row stored : OtpRow}
    {e' : OtpObject} (hStored : stored ∈ t.rows) (hId : stored.id = row.id)
    (h : t.save users now { row.entity with wasUsed := .val true } = some (e', otps)) :
    ∃ used : OtpRow, used.id = stored.id ∧ used.wasUsed = true ∧
      otps.rows = OtpTable.replace used t.rows := by
  have hFound : t.byId row.id = some stored := hId ▸ OtpTable.byId_of_mem hStored
  simp only [OtpTable.save, OtpRow.entity, hFound, Option.bind_eq_bind,
    Option.bind_eq_some_iff] at h
  obtain ⟨used, hUsed, otps', hRows, hEq⟩ := h
  cases hEq
  simp only [OtpTable.write, Option.bind_eq_bind, Option.bind_eq_some_iff] at hUsed
  obtain ⟨_, _, _, _, wasUsed, hWasUsed, _, _, _, _, hEq⟩ := hUsed
  cases hWasUsed
  refine ⟨used, ?_, ?_, OtpTable.ofRows?_rows hRows⟩
  · rw [← Option.some.inj hEq]
    split <;> rfl
  · rw [← Option.some.inj hEq]
    split
    · rename_i hSame
      rw [← hSame]
    · rfl

theorem moves_exec (env : Env) {γ : CodeCheck} {o : Op} (hAllows : protocol.allows γ o)
    (hStored : ∀ row, γ = .read row → ∃ stored ∈ w.db.otps.rows, stored.id = row.id) :
    Moves w.db.otps γ (shared env o w).2.db.otps
      (protocol.next γ w o (shared env o w).1) := by
  by_cases hSave : ∃ e, o = .store (.saveOtp e)
  · obtain ⟨e, rfl⟩ := hSave
    obtain ⟨hSame, _, x, hFails⟩ | ⟨_, e', otps, hSaved, hOtps, hOk⟩ := shared_saveOtp env w e
    · rw [hSame, hFails]
      exact .stays
    · rw [hOtps, hOk]
      cases γ with
      | none =>
        obtain ⟨row, hUnused, hRows⟩ := save_new hAllows.1 hAllows.2 hSaved
        exact .adds hUnused hRows
      | accepted seen =>
        obtain ⟨row, hUnused, hRows⟩ := save_new hAllows.1 hAllows.2 hSaved
        exact .adds hUnused hRows
      | read row =>
        obtain ⟨hUnused, rfl⟩ := hAllows
        obtain ⟨stored, hMem, hId⟩ := hStored row rfl
        obtain ⟨used, hUsedId, hUsed, hRows⟩ := save_held hMem hId hSaved
        exact .marks rfl hUnused hMem hId hUsedId hUsed hRows
  · rw [shared_otps fun e he => hSave ⟨e, he⟩]
    by_cases hFind : ∃ typeOtp userId, o = .store (.findOtp typeOtp userId)
    · obtain ⟨typeOtp, userId, rfl⟩ := hFind
      cases (shared env (.store (.findOtp typeOtp userId)) w).1 with
      | error e => exact .stays
      | ok found =>
        simp only [protocol]
        cases hRow : w.db.otps.findByType typeOtp userId with
        | none => exact .stays
        | some row => exact .reads hAllows (OtpTable.findByType_mem hRow).1
    · have hNext : protocol.next γ w o (shared env o w).1 = γ := by
        cases o with
        | store o =>
          cases o with
          | findOtp typeOtp userId => exact absurd ⟨typeOtp, userId, rfl⟩ hFind
          | saveOtp e => exact absurd ⟨e, rfl⟩ hSave
          | _ => rfl
        | _ => rfl
      rw [hNext]
      exact .stays

end Step

section Run
variable {ι : Type}

def Used (t : OtpTable) (id : Nat) : Prop := ∃ row ∈ t.rows, row.id = id ∧ row.wasUsed = true

/-- The accepted codes as things that logins claim. -/
def ledger (p : Logins ι) : OneShot ι Nat where
  claimed i := (p.threads i).ghost.claimed
  used := Used p.world.db.otps

theorem once_iff {p : Logins ι} : (ledger p).Once ↔ ∀ i j row row',
    (p.threads i).ghost = .accepted row → (p.threads j).ghost = .accepted row' →
    row.id = row'.id → i = j := by
  constructor
  · intro hOnce i j row row' hi hj hId
    refine hOnce i j row.id ?_ ?_
    · exact congrArg CodeCheck.claimed hi
    · exact (congrArg CodeCheck.claimed hj).trans (congrArg some hId.symm)
  · intro hRows i j id hi hj
    obtain ⟨row, hRow, hId⟩ := CodeCheck.claimed_eq_some.mp hi
    obtain ⟨row', hRow', hId'⟩ := CodeCheck.claimed_eq_some.mp hj
    exact hRows i j row row' hRow hRow' (hId.trans hId'.symm)

theorem used_adds {t t' : OtpTable} {row : OtpRow} (hUnused : row.wasUsed = false)
    (hRows : t'.rows = t.rows ++ [row]) : Used t' = Used t := by
  funext id
  apply propext
  unfold Used
  rw [hRows]
  constructor
  · rintro ⟨r, hr, hId, hUsed⟩
    obtain hr | hr := List.mem_append.mp hr
    · exact ⟨r, hr, hId, hUsed⟩
    · rw [List.mem_singleton.mp hr, hUnused] at hUsed
      cases hUsed
  · rintro ⟨r, hr, hId, hUsed⟩
    exact ⟨r, List.mem_append_left _ hr, hId, hUsed⟩

theorem used_marks {t t' : OtpTable} {stored used : OtpRow} (hStored : stored ∈ t.rows)
    (hId : used.id = stored.id) (hUsed : used.wasUsed = true)
    (hRows : t'.rows = OtpTable.replace used t.rows) :
    Used t' = fun id => Used t id ∨ id = stored.id := by
  funext id
  apply propext
  unfold Used
  rw [hRows]
  constructor
  · rintro ⟨r, hr, rfl, hrUsed⟩
    obtain rfl | ⟨hr, _⟩ := (OtpTable.mem_replace hStored hId).mp hr
    · exact .inr hId
    · exact .inl ⟨r, hr, rfl, hrUsed⟩
  · rintro (⟨r, hr, rfl, hrUsed⟩ | rfl)
    · by_cases hEq : r = stored
      · exact ⟨used, (OtpTable.mem_replace hStored hId).mpr (.inl rfl), hEq ▸ hId, hUsed⟩
      · exact ⟨r, (OtpTable.mem_replace hStored hId).mpr (.inr ⟨hr, hEq⟩), rfl, hrUsed⟩
    · exact ⟨used, (OtpTable.mem_replace hStored hId).mpr (.inl rfl), hId, hUsed⟩

/-- What a login holds has been stored all along, and was not used to begin with if it is not so
in what it holds. -/
structure Tally (env : Env) (q : ι → LoginModel) (start : OtpTable) (p : Logins ι) : Prop where
  obedient : p.Obedient (shared env) protocol (fun _ => True) fun i => Ended (q i)
  balanced : (ledger p).Balanced (Used start)
  read : ∀ i row, (p.threads i).ghost = .read row →
    (∃ stored ∈ p.world.db.otps.rows, stored.id = row.id) ∧
      (row.wasUsed = false → ¬ Used start row.id)

theorem used_of_mem {t : OtpTable} {row : OtpRow} (hRow : row ∈ t.rows) :
    Used t row.id ↔ row.wasUsed = true := by
  constructor
  · rintro ⟨r, hr, hId, hUsed⟩
    rwa [← List.inj_on_of_nodup_map t.nodupId hr hRow hId]
  · exact fun hUsed => ⟨row, hRow, rfl, hUsed⟩

theorem Moves.stored {t t' : OtpTable} {γ γ' : CodeCheck} (h : Moves t γ t' γ') {id : Nat}
    (hStored : ∃ stored ∈ t.rows, stored.id = id) : ∃ stored ∈ t'.rows, stored.id = id := by
  obtain ⟨r, hr, rfl⟩ := hStored
  cases h with
  | stays => exact ⟨r, hr, rfl⟩
  | reads => exact ⟨r, hr, rfl⟩
  | adds _ hRows =>
    rw [hRows]
    exact ⟨r, List.mem_append_left _ hr, rfl⟩
  | @marks _ _ stored used _ _ hMem _ hUsedId _ hRows =>
    rw [hRows]
    by_cases hEq : r = stored
    · exact ⟨used, (OtpTable.mem_replace hMem hUsedId).mpr (.inl rfl), hEq ▸ hUsedId⟩
    · exact ⟨r, (OtpTable.mem_replace hMem hUsedId).mpr (.inr ⟨hr, hEq⟩), rfl⟩

theorem Moves.read {t t' : OtpTable} {γ : CodeCheck} {row : OtpRow}
    (h : Moves t γ t' (.read row)) : γ = .read row ∨ row ∈ t.rows := by
  cases h with
  | stays => exact .inl rfl
  | reads _ hMem => exact .inr hMem
  | adds => exact .inl rfl

theorem stillUnused_iff (env : Env) {p : Logins ι} {i : ι} {o : Op}
    {k : Except Exception (services.Res o) → Async JWTTokens}
    (hProg : (p.threads i).prog = .op o k) (hAllows : protocol.allows (p.threads i).ghost o) :
    StillUnused p i ↔ ∀ row, (p.threads i).ghost = .read row →
      protocol.next (p.threads i).ghost p.world o (shared env o p.world).1 = .accepted row →
      ¬ Used p.world.db.otps row.id := by
  have hAwaits : (p.threads i).prog.awaits = some o := by rw [hProg]; rfl
  constructor
  · intro hStill row hRead hAccepted hUsed
    obtain ⟨r, hr, hId, hrUsed⟩ := hUsed
    rw [hRead] at hAllows hAccepted
    cases o with
    | store o =>
      cases o with
      | findOtp typeOtp userId => cases hAllows
      | saveOtp e =>
        obtain ⟨_, rfl⟩ := hAllows
        obtain ⟨_, _, x, hFails⟩ | ⟨hAccepts, _⟩ :=
          shared_saveOtp env p.world { row.entity with wasUsed := .val true }
        · rw [hFails] at hAccepted
          cases hAccepted
        · have hUnused := hStill _ hAwaits rfl hAccepts r hr (congrArg Js.val hId.symm)
          rw [hrUsed] at hUnused
          cases hUnused
      | _ => cases hAccepted
    | _ => cases hAccepted
  · intro hUnused e hAwaits' hUsed hAccepts r hr hId
    cases hAwaits.symm.trans hAwaits'
    cases hGhost : (p.threads i).ghost with
    | none =>
      rw [hGhost] at hAllows
      rw [hAllows.2] at hUsed
      cases hUsed
    | accepted row =>
      rw [hGhost] at hAllows
      rw [hAllows.2] at hUsed
      cases hUsed
    | read row =>
      rw [hGhost] at hAllows
      obtain ⟨_, rfl⟩ := hAllows
      obtain ⟨_, hRefused, _⟩ | ⟨_, e', _, _, _, hOk⟩ :=
        shared_saveOtp env p.world { row.entity with wasUsed := .val true }
      · exact absurd hAccepts hRefused
      · have hNot := hUnused row hGhost (by rw [hGhost, hOk]; rfl)
        have hId' : row.id = r.id := Js.val.inj hId
        rw [hId', used_of_mem hr] at hNot
        simpa using hNot

variable [DecidableEq ι]

theorem ledger_update {p : Logins ι} {i : ι} (w : World)
    (thread : Thread services Exception JWTTokens CodeCheck) :
    ledger ⟨w, Function.update p.threads i thread⟩ =
      ⟨Function.update (ledger p).claimed i thread.ghost.claimed, Used w.db.otps⟩ := by
  apply congrArg (fun f => OneShot.mk f _)
  funext j
  by_cases hj : j = i
  · subst hj
    simp
  · simp [ledger, hj]

/-- A login that has ended neither moves the codes nor comes to mark one. -/
theorem ledger_idle {p : Logins ι} {i : ι} (hDone : (p.threads i).prog.result.isSome) :
    ledger (p.step (shared env) protocol i) = ledger p ∧ StillUnused p i := by
  refine ⟨congrArg ledger (Pool.step_idle hDone), fun e hAwaits => ?_⟩
  cases hProg : (p.threads i).prog with
  | op o k =>
    rw [hProg] at hDone
    cases hDone
  | pure a =>
    rw [hProg] at hAwaits
    cases hAwaits
  | throw x =>
    rw [hProg] at hAwaits
    cases hAwaits

/-- A step leaves the codes alone, or marks one that the login has read unused. -/
theorem ledger_step {q : ι → LoginModel} {start : OtpTable} (p : Logins ι) (i : ι)
    (h : Tally env q start p) :
    (ledger (p.step (shared env) protocol i) = ledger p ∧ StillUnused p i) ∨
    ∃ row, (p.threads i).ghost = .read row ∧ row.wasUsed = false ∧
      ledger (p.step (shared env) protocol i) = (ledger p).claim i row.id ∧
      (StillUnused p i ↔ ¬ (ledger p).used row.id) := by
  match hProg : (p.threads i).prog with
  | .pure a => exact .inl (ledger_idle (by rw [hProg]; rfl))
  | .throw e => exact .inl (ledger_idle (by rw [hProg]; rfl))
  | .op o k =>
    have hAllows := h.obedient.allows hProg
    have hMoves := moves_exec env (w := p.world) hAllows fun row hRow => (h.read i row hRow).1
    have hStill := stillUnused_iff env hProg hAllows
    have hStep : ledger (p.step (shared env) protocol i) =
        ⟨Function.update (ledger p).claimed i (protocol.next (p.threads i).ghost p.world o
          (shared env o p.world).1).claimed, Used (shared env o p.world).2.db.otps⟩ := by
      rw [Pool.step_op hProg, ledger_update]
    rw [hStep]
    generalize protocol.next (p.threads i).ghost p.world o (shared env o p.world).1 = γ'
      at hMoves hStill ⊢
    generalize (shared env o p.world).2.db.otps = t' at hMoves ⊢
    have hSame : Function.update (ledger p).claimed i (p.threads i).ghost.claimed =
        (ledger p).claimed := Function.update_eq_self i _
    cases hMoves with
    | stays =>
      rw [hSame]
      refine .inl ⟨rfl, hStill.mpr fun row hRead hAccepted => ?_⟩
      rw [hRead] at hAccepted
      cases hAccepted
    | reads hNone hMem =>
      rw [hNone] at hSame
      refine .inl ⟨?_, hStill.mpr fun row hRead => ?_⟩
      · exact congrArg (fun f => OneShot.mk f _) hSame
      · rw [hNone] at hRead
        cases hRead
    | adds hUnused hRows =>
      rw [hSame, used_adds hUnused hRows]
      refine .inl ⟨rfl, hStill.mpr fun row hRead hAccepted => ?_⟩
      rw [hRead] at hAccepted
      cases hAccepted
    | @marks _ row stored used hRead hUnused hMem hId hUsedId hUsed hRows =>
      refine .inr ⟨row, hRead, hUnused, ?_, ?_⟩
      · rw [used_marks hMem hUsedId hUsed hRows, hId]
        rfl
      · refine hStill.trans ⟨fun hNot => hNot row hRead rfl, fun hNot row' hRead' _ => ?_⟩
        cases hRead.symm.trans hRead'
        exact hNot

theorem tally_step {q : ι → LoginModel} {start : OtpTable} (p : Logins ι) (i : ι)
    (h : Tally env q start p) :
    Tally env q start (p.step (shared env) protocol i) := by
  refine ⟨Pool.obedient_step h.obedient trivial i, ?_, ?_⟩
  · obtain ⟨hSame, _⟩ | ⟨row, hRead, hUnused, hClaim, _⟩ := ledger_step p i h
    · rw [hSame]
      exact h.balanced
    · rw [hClaim]
      exact OneShot.balanced_claim h.balanced (congrArg CodeCheck.claimed hRead)
  · intro j row hRead
    obtain hIdle | ⟨o, k, hProg, hStep⟩ := Pool.step_cases (shared env) protocol p i
    · rw [hIdle] at hRead ⊢
      exact h.read j row hRead
    · have hMoves := moves_exec env (w := p.world) (h.obedient.allows hProg)
        fun row hRow => (h.read i row hRow).1
      rw [hStep] at hRead ⊢
      simp only at hRead ⊢
      by_cases hj : j = i
      · subst hj
        rw [Function.update_self] at hRead
        rw [(show protocol.next _ _ _ _ = _ from hRead)] at hMoves
        obtain hBefore | hMem := hMoves.read
        · exact ⟨hMoves.stored (h.read j row hBefore).1, (h.read j row hBefore).2⟩
        · refine ⟨hMoves.stored ⟨row, hMem, rfl⟩, fun hUnused hUsed => ?_⟩
          have hMarked := (used_of_mem hMem).mp ((h.balanced row.id).mpr (.inl hUsed))
          rw [hUnused] at hMarked
          cases hMarked
      · rw [Function.update_of_ne hj] at hRead
        exact ⟨hMoves.stored (h.read j row hRead).1, (h.read j row hRead).2⟩

omit [DecidableEq ι] in
theorem tally_requested (env : Env) (w : World) (q : ι → LoginModel) :
    Tally env q w.db.otps (requested w q) where
  obedient i := obeys_loginUser (q i)
  balanced := OneShot.balanced_start fun _ => rfl
  read i row hRead := by cases hRead

end Run

end OtpRaces

open OtpRaces in
/-- Every stored code lets at most one login in exactly if none is marked used on the strength of
a read that another login has overtaken. -/
theorem otp_used_by_one {ι : Type} [DecidableEq ι] (env : Env) (w : World) (q : ι → LoginModel)
    (schedule : List ι) :
    OneLogin q ((requested w q).run (shared env) protocol schedule) ↔
      Pool.Along (shared env) protocol StillUnused (requested w q) schedule := by
  have hStart := tally_requested env w q
  have hKeeps : ∀ (p : Logins ι) i, Tally env q w.db.otps p →
      Tally env q w.db.otps (p.step (shared env) protocol i) := tally_step
  have hEnd := Pool.run_invariant hKeeps hStart schedule
  have hExact := Pool.run_exact (K := fun p => (ledger p).Once) (C := StillUnused)
    hKeeps (fun p i h => by
      obtain ⟨hSame, hStill⟩ | ⟨row, hRead, hUnused, hClaim, hStill⟩ := ledger_step p i h
      · rw [hSame, and_iff_left hStill]
      · rw [hClaim, hStill]
        exact OneShot.once_claim h.balanced (congrArg CodeCheck.claimed hRead)
          ((h.read i row hRead).2 hUnused)) hStart schedule
  have hOnce : (ledger (requested w q)).Once := OneShot.once_start fun _ => rfl
  rw [and_iff_right hOnce, once_iff] at hExact
  rw [← hExact]
  refine ⟨fun h => h.once, fun hOnce => ⟨hOnce, fun i tokens hResult => ?_⟩⟩
  obtain ⟨r, hEnded, hQ⟩ := hEnd.obedient.ended (i := i) (by rw [hResult]; rfl)
  cases hEnded.symm.trans hResult
  exact hQ

namespace Sample

/-- A code has been sent to the one account. -/
def codeSent : World :=
  (callAt (env []) ⟨100000000, .loginUser rightLogin⟩ otpWorld).2

/-- Two logins with the same code. -/
def sameCode (_ : Fin 2) : LoginModel := ⟨"ana@x.io", "pw", some "100000"⟩

def raced (schedule : List (Fin 2)) : OtpRaces.Logins (Fin 2) :=
  (OtpRaces.requested codeSent sameCode).run (shared (env [])) OtpRaces.protocol schedule

end Sample

/-- Both have read the code before either marks it, and both get in. -/
theorem otp_used_by_both : ¬ ∀ (ι : Type) [DecidableEq ι] (env : Env) (w : World)
    (q : ι → LoginModel) (schedule : List ι), (∀ i, AuthService.hasOtpCode (q i) = true) →
    OtpRaces.OneLogin q ((OtpRaces.requested w q).run (shared env) OtpRaces.protocol schedule) := by
  intro h
  have hOnce := (h (Fin 2) (Sample.env []) Sample.codeSent Sample.sameCode
    [0, 0, 0, 0, 0, 1, 1, 1, 1, 1, 0, 1, 0, 0, 0, 0, 0, 0, 1, 1, 1, 1, 1, 1] (by decide)).once
  have hBoth : ∀ i, ((Sample.raced [0, 0, 0, 0, 0, 1, 1, 1, 1, 1, 0, 1, 0, 0, 0, 0, 0, 0, 1, 1, 1, 1,
      1, 1]).threads i).ghost = .accepted (Sample.codeRow 100000000 false) := by decide
  exact absurd (hOnce 0 1 _ _ (hBoth 0) (hBoth 1) rfl) (by decide)

end Manejaplus
