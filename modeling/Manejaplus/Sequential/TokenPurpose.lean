import Manejaplus.Sequential.Served

/-! # Account tokens and what they were issued for -/
namespace Manejaplus
open Effect Prog
set_option autoImplicit false

variable {env : Env} {w : World}

def issuedTokens (ev : Served.Event) : List Issued :=
  ev.after.outside.issued.drop ev.before.outside.issued.length

def Payload.address (p : Payload) : Option (Js String × Js String) :=
  match p.sub with
  | .val sub => some (sub.email, sub.id)
  | _ => none

/-- `JwtService.decode` gives back the subject that the token was signed for. -/
def Parses (env : Env) (t : Issued) : Prop :=
  (env.decode t.token).bind Payload.address = t.payload.address

instance (env : Env) (t : Issued) : Decidable (Parses env t) :=
  inferInstanceAs (Decidable (_ = _))

namespace Issued

def Names (env : Env) (t : Issued) (row : UserRow) : Prop :=
  ∃ sub id, t.payload.sub = .val sub ∧ sub.email = .val row.email ∧ sub.id = .val id ∧
    env.uuid id = some row.id

/-- `JwtService.verify` would find the token unexpired at this time. -/
def Live (t : Issued) (now : Time) : Prop := ∀ exp, t.payload.exp = some exp → now / 1000 < exp

def For (purpose : Request → Bool) (past : List Served.Event) (t : Issued) : Prop :=
  ∃ ev ∈ past, purpose ev.request = true ∧ t ∈ issuedTokens ev

end Issued

namespace Request

def registers : Request → Bool
  | .createUser _ => true
  | _ => false

def linksUnlock : Request → Bool
  | .unlockAccount _ => true
  | _ => false

end Request

def Entitled (env : Env) (purpose : Request → Bool) (past : List Served.Event) (now : Time)
    (token : String) (row : UserRow) : Prop :=
  ∃ t : Issued, t.token = token ∧ t.For purpose past ∧ t.Live now ∧ t.Names env row

/-- Flags change by token only where the token entitles to it. -/
structure PurposeKept (env : Env) (past : List Served.Event) (ev : Served.Event) : Prop where
  verified : ∀ token row row', ev.request = .verifyAccount token →
    ev.before.db.users.byId row.id = some row → ev.after.db.users.byId row.id = some row' →
    row.isVerified ≠ some true → row'.isVerified = some true →
    Entitled env Request.registers past ev.before.choice.now token row
  unlocked : ∀ token row row', ev.request = .unlockAccountToken token →
    ev.before.db.users.byId row.id = some row → ev.after.db.users.byId row.id = some row' →
    row.isBlocked = some true → row'.isBlocked ≠ some true →
    Entitled env Request.linksUnlock past ev.before.choice.now token row

/-- The token was issued for this purpose and is live, or it leads to no row still to be changed. -/
def HonestToken (env : Env) (purpose : Request → Bool) (pending : UserRow → Prop)
    (past : List Served.Event) (w : World) (token : String) : Prop :=
  (∃ t : Issued, t.token = token ∧ t.For purpose past ∧ t.Live w.choice.now) ∨
    ∀ row, w.db.byToken env token = some row → ¬ pending row

def HonestTokens (env : Env) (past : List Served.Event) (w : World) (q : Request) : Prop :=
  (∀ token, q = .verifyAccount token →
    HonestToken env Request.registers (fun row => row.isVerified ≠ some true) past w token) ∧
  ∀ token, q = .unlockAccountToken token →
    HonestToken env Request.linksUnlock (fun row => row.isBlocked = some true) past w token

section Issuing

/-- The payload carries an e-mail and an id, neither of them missing. -/
def Issued.Addressed (t : Issued) : Prop :=
  ∃ sub email id, t.payload.sub = .val sub ∧ sub.email = .val email ∧ sub.id = .val id

theorem addressed_singleton {t : Issued} {c : Choice} {sub : UserObject} {email id : String}
    {expiresIn : Nat} {payload : Payload} (hPayload : payload = Outside.payload c sub expiresIn)
    (hEmail : sub.email = .val email) (hId : sub.id = .val id)
    (ht : t ∈ [(⟨env.sign payload, payload⟩ : Issued)]) : t.Addressed := by
  rw [List.mem_singleton.mp ht, hPayload]
  exact ⟨sub, email, id, rfl, hEmail, hId⟩

theorem issued_createUser {dto : CreateUserDto} {r : Except Exception UserModel} {s : State}
    (h : RegistrationEnds env dto w r s) :
    ∃ new, s.issued = w.outside.issued ++ new ∧ ∀ t ∈ new, t.Addressed := by
  cases h with
  | refused => exact ⟨[], (List.append_nil _).symm, List.forall_mem_nil _⟩
  | undone c payload hPayload =>
    exact ⟨[⟨env.sign payload, payload⟩], rfl, fun t ht => addressed_singleton hPayload rfl rfl ht⟩
  | registered c payload _ _ hSaved hPayload =>
    subst hSaved
    exact ⟨[⟨env.sign payload, payload⟩], rfl, fun t ht => addressed_singleton hPayload rfl rfl ht⟩

theorem issued_unlockAccount {loginModel : LoginModel} {r : Except Exception String} {s : State}
    (h : LinkEnds env loginModel w r s) :
    ∃ new, s.issued = w.outside.issued ++ new ∧ ∀ t ∈ new, t.Addressed := by
  cases h with
  | rejected hRejected =>
    refine ⟨[], ?_, List.forall_mem_nil _⟩
    cases hRejected <;> exact (List.append_nil _).symm
  | refused => exact ⟨[], (List.append_nil _).symm, List.forall_mem_nil _⟩
  | linked c payload _ _ _ _ hPayload =>
    exact ⟨[⟨env.sign payload, payload⟩], rfl, fun t ht => addressed_singleton hPayload rfl rfl ht⟩

theorem addressed {q : Request} (hPurpose : q.registers = true ∨ q.linksUnlock = true) {t : Issued}
    (ht : t ∈ issuedTokens (serveEvent (serveAlone env) q w)) : t.Addressed := by
  have hNew : ∃ new, (serveAlone env q w).2.outside.issued = w.outside.issued ++ new ∧
      ∀ t ∈ new, t.Addressed := by
    rcases hServe : serveAlone env q w with ⟨out, w'⟩
    cases q with
    | createUser dto =>
      obtain ⟨r, hRun, _⟩ := run_map_cases _ hServe
      exact issued_createUser (createUser_cases hRun)
    | unlockAccount loginModel =>
      obtain ⟨r, hRun, _⟩ := run_map_cases _ hServe
      exact issued_unlockAccount (unlockAccount_cases hRun)
    | _ => simp [Request.registers, Request.linksUnlock] at hPurpose
  obtain ⟨new, hIssued, hAddressed⟩ := hNew
  simp only [issuedTokens, serveEvent, hIssued, List.drop_left] at ht
  exact hAddressed t ht

end Issuing

theorem findOne_both {t : UserTable} {uuid : String → Option String} {email id : String}
    {row : UserRow}
    (h : t.findOne uuid { email := some (.val email), id := some (.val id) } = some (some row)) :
    row.email = email ∧ uuid id = some row.id := by
  simp only [UserTable.findOne, UserTable.idCondition, Option.bind_eq_bind, Option.bind_eq_some_iff,
    Option.map_eq_some_iff, Option.some.injEq] at h
  obtain ⟨sameId, ⟨id', hUuid, rfl⟩, hFind⟩ := h
  have hBoth := List.find?_some hFind
  simp only [UserTable.emailCondition, Bool.and_eq_true, beq_iff_eq] at hBoth
  exact ⟨hBoth.1, hUuid.trans (congrArg some hBoth.2.symm)⟩

theorem names_of_byToken {t : Issued} {row : UserRow} (hAddressed : t.Addressed)
    (hParses : Parses env t) (hToken : w.db.byToken env t.token = some row) : t.Names env row := by
  obtain ⟨sub, email, id, hSub, hEmail, hId⟩ := hAddressed
  have hAddress : t.payload.address = some (.val email, .val id) := by
    simp only [Payload.address, hSub, hEmail, hId]
  obtain ⟨⟨decoded, iat, exp⟩, hDecode, hSame⟩ :=
    Option.bind_eq_some_iff.mp (hParses.trans hAddress)
  cases decoded with
  | undefined => cases hSame
  | null => cases hSame
  | val sub' =>
    obtain ⟨hEmail', hId'⟩ := Prod.mk.inj (Option.some.inj hSame)
    simp only [Database.byToken, hDecode, hEmail', hId', reduceCtorEq, or_self, if_false] at hToken
    obtain ⟨hRowEmail, hUuid⟩ := findOne_both (by simpa [Option.getD_eq_iff] using hToken)
    exact ⟨sub, id, hSub, hRowEmail ▸ hEmail, hId, hUuid⟩

theorem HonestToken.entitled {purpose : Request → Bool} {pending : UserRow → Prop}
    {past : List Served.Event} {token : String} {row : UserRow}
    (hPurpose : ∀ q : Request, purpose q = true → q.registers = true ∨ q.linksUnlock = true)
    (hPast : ∀ ev ∈ past, ∃ q w, ev = serveEvent (serveAlone env) q w)
    (hParses : ∀ ev ∈ past, ∀ t ∈ issuedTokens ev, Parses env t)
    (h : HonestToken env purpose pending past w token) (hPending : pending row)
    (hToken : w.db.byToken env token = some row) :
    Entitled env purpose past w.choice.now token row := by
  obtain ⟨t, rfl, ⟨ev, hMem, hFor, hIssued⟩, hLive⟩ | hNone := h
  · obtain ⟨q, w', rfl⟩ := hPast ev hMem
    have hAddressed := addressed (hPurpose q hFor) hIssued
    exact ⟨t, rfl, ⟨_, hMem, hFor, hIssued⟩, hLive,
      names_of_byToken hAddressed (hParses _ hMem t hIssued) hToken⟩
  · exact absurd hPending (hNone row hToken)

theorem purposeKept_step {past : List Served.Event} {q : Request}
    (hPast : ∀ ev ∈ past, ∃ q w, ev = serveEvent (serveAlone env) q w)
    (hParses : ∀ ev ∈ past, ∀ t ∈ issuedTokens ev, Parses env t)
    (hHonest : HonestTokens env past w q) :
    PurposeKept env past (serveEvent (serveAlone env) q w) := by
  have hServed := served_event env q w
  constructor
  · intro token row row' hq hBefore hAfter hPending hDone
    obtain ⟨changed, updatedAt, rfl, hChange⟩ := hServed.stored_eq hBefore hAfter
    change q = _ at hq
    subst hq
    obtain ⟨hAccount, hChange⟩ | ⟨_, rfl⟩ := hChange
    · exact (hHonest.1 token rfl).entitled (fun _ => .inl) hPast hParses hPending hAccount
    · exact absurd hDone hPending
  · intro token row row' hq hBefore hAfter hPending hDone
    obtain ⟨changed, updatedAt, rfl, hChange⟩ := hServed.stored_eq hBefore hAfter
    change q = _ at hq
    subst hq
    obtain ⟨hAccount, hChange⟩ | ⟨_, rfl⟩ := hChange
    · exact (hHonest.2 token rfl).entitled (fun _ => .inr) hPast hParses hPending hAccount
    · exact absurd hPending hDone

/-- Runs whose token requests are honest change flags by token for the right purpose only. -/
theorem purpose_kept (env : Env) (start : World) (rs : List Request)
    (hParses : ∀ ev ∈ history (serveAlone env) start rs, ∀ t ∈ issuedTokens ev, Parses env t)
    (hHonest : Steps (serveAlone env) start (HonestTokens env) rs) :
    Steps (serveAlone env) start
      (fun past w q => PurposeKept env past (serveEvent (serveAlone env) q w)) rs := by
  induction rs with
  | nil => trivial
  | cons q rs ih =>
    have hPast : ∀ ev ∈ history (serveAlone env) start rs, ∀ t ∈ issuedTokens ev, Parses env t :=
      fun ev hMem => hParses ev (List.mem_cons_of_mem _ hMem)
    exact ⟨purposeKept_step (fun _ => mem_history) hPast hHonest.1, ih hPast hHonest.2⟩

theorem purpose_kept_sample :
    Steps (serveAlone Sample.tokenEnv) (Sample.world Sample.noUsers)
      (fun past w q =>
        PurposeKept Sample.tokenEnv past (serveEvent (serveAlone Sample.tokenEnv) q w))
      [.verifyAccount Sample.verifyToken, .createUser Sample.registration] := by
  have hIssued : ((issuedTokens (serveEvent (serveAlone Sample.tokenEnv)
      (.createUser Sample.registration) (Sample.world Sample.noUsers))).any fun t =>
        decide (t.token = Sample.verifyToken ∧ t.payload.exp = some 1804)) = true := by decide
  have hFirst : HonestTokens Sample.tokenEnv [] (Sample.world Sample.noUsers)
      (.createUser Sample.registration) := ⟨fun _ hq => (by cases hq), fun _ hq => (by cases hq)⟩
  refine purpose_kept Sample.tokenEnv (Sample.world Sample.noUsers) _ (by decide)
    ⟨⟨?_, fun _ hq => (by cases hq)⟩, hFirst, trivial⟩
  intro token hq
  cases hq
  obtain ⟨t, hMem, hBoth⟩ := List.any_eq_true.mp hIssued
  obtain ⟨hToken, hExp⟩ := of_decide_eq_true hBoth
  refine .inl ⟨t, hToken, ⟨_, List.mem_cons_self, rfl, hMem⟩, ?_⟩
  intro exp hSome
  cases hExp.symm.trans hSome
  decide

/-- A token that the server never signed verifies an account. -/
theorem verifyAccount_forged :
    ¬ Steps (serveAlone Sample.tokenEnv) (Sample.world Sample.noUsers)
      (fun past w q =>
        PurposeKept Sample.tokenEnv past (serveEvent (serveAlone Sample.tokenEnv) q w))
      [.verifyAccount Sample.forgedToken, .createUser Sample.registration] := by
  intro h
  obtain ⟨t, hToken, ⟨ev, hMem, _, hIssued⟩, _⟩ := h.1.verified Sample.forgedToken
    (Sample.registration.row "u3" "hash:pw" 3000)
    { Sample.registration.row "u3" "hash:pw" 3000 with isVerified := some true, updatedAt := 9000 }
    rfl (by decide) (by decide) (by decide) (by decide)
  have hNever : ∀ ev ∈ history (serveAlone Sample.tokenEnv) (Sample.world Sample.noUsers)
      [.createUser Sample.registration], ∀ t ∈ issuedTokens ev, t.token ≠ Sample.forgedToken := by
    decide
  exact hNever ev hMem t hIssued hToken

end Manejaplus
