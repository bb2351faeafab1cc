import Manejaplus.Sequential.Lookups
import Manejaplus.Sequential.TokenUpdates

/-! # Whoever knows the password gets in

An account may be blocked, and a code may be asked for. From any such state a
few requests, with what they are answered and what is mailed, end in a session,
whatever is asked about other accounts in between.
-/
namespace Manejaplus
open Effect Prog
set_option autoImplicit false

/-- Every reading of the clock from here on is later. -/
def World.Past (t : Time) (w : World) : Prop := ∀ n, t < (w.outside.tape n).now

theorem World.Past.rest {t : Time} {w w' : World} (h : w.Past t) (hRest : w.Rest w') : w'.Past t := by
  obtain ⟨n, hn⟩ := hRest
  intro k
  rw [hn]
  exact h _

namespace Client

/-- The account is verified, the password is its own, and nothing fails from here on. -/
structure Owner (env : Env) (loginModel : LoginModel) (row : UserRow) (w : World) : Prop where
  stored : w.db.users.byEmail loginModel.email = some row
  password : env.compare loginModel.password row.password = true
  verified : row.isVerified = some true
  calm : w.Calm
  clock : w.Past AUTH.TIME_OTP_VALID

/-- No code of the account lies in the future. -/
def CodesPast (id : String) (w : World) : Prop :=
  ∀ otp, w.db.otps.findByType .LOGIN_OTP (.val id) = some otp → w.Past otp.createdAt

section Steps
variable {env : Env} {w w' : World} {loginModel : LoginModel} {row : UserRow}

/-- A code has been saved for the account and mailed to it. -/
structure Sent (typeOtp : TypeOtp) (row : UserRow) (code : String) (now : Time) (w : World) (s : State) :
    Prop where
  users : s.db.users = w.db.users
  nonempty : code ≠ ""
  clock : ∃ n, now = (w.outside.tape n).now
  otps : s.db.otps.rows = w.db.otps.rows ++ [w.db.otps.newRow typeOtp code row.id now]
  mails : s.mails = w.state.mails ++
    [⟨.val row.email, typeOtp.text, { user := row.entity, otpCode := some code }⟩]

theorem Sent.of_rest {w₁ : World} {typeOtp : TypeOtp} {code : String} {now : Time} {s : State}
    (hState : w₁.state = w.state) (hRest : w.Rest w₁) (h : Sent typeOtp row code now w₁ s) :
    Sent typeOtp row code now w s := by
  have hDb := World.state_db hState
  obtain ⟨n, hNow⟩ := h.clock
  obtain ⟨k, hk⟩ := hRest
  refine ⟨h.users.trans (by rw [hDb]), h.nonempty, ⟨k + n, by rw [hNow, hk]⟩, ?_, ?_⟩
  · rw [h.otps, hDb]
  · rw [h.mails, hState]

end Steps

section Login
variable {env : Env} {w w' : World} {loginModel : LoginModel} {row : UserRow}

theorem newest_append {rows : List OtpRow} {new : OtpRow}
    (hNewer : ∀ otp, OtpTable.newest rows = some otp → otp.createdAt < new.createdAt) :
    OtpTable.newest (rows ++ [new]) = some new := by
  rw [OtpTable.newest, List.foldl_append, ← OtpTable.newest]
  cases hNewest : OtpTable.newest rows with
  | none => rfl
  | some otp => exact if_pos (hNewer otp hNewest)

theorem Sent.newest {code : String} {now : Time} {s : State}
    (hCodes : CodesPast row.id w)
    (h : Sent .LOGIN_OTP row code now w s) :
    s.db.otps.findByType .LOGIN_OTP (.val row.id) =
      some (w.db.otps.newRow .LOGIN_OTP code row.id now) := by
  obtain ⟨n, rfl⟩ := h.clock
  have hOwn : [w.db.otps.newRow .LOGIN_OTP code row.id (w.outside.tape n).now].filter
      (OtpTable.ofType .LOGIN_OTP (.val row.id)) =
      [w.db.otps.newRow .LOGIN_OTP code row.id (w.outside.tape n).now] :=
    List.filter_cons_of_pos (by simp [OtpTable.ofType, OtpTable.newRow])
  rw [OtpTable.findByType, h.otps, List.filter_append, hOwn]
  exact newest_append fun otp hNewest => hCodes otp hNewest n

theorem Owner.ends {r : Except Exception JWTTokens} {s : State} (h : Owner env loginModel row w)
    (hOpen : row.Open) (hEnds : LoginEnds env loginModel w r s) :
    (∃ tokens, r = .ok tokens) ∨ ∃ e, r = .error e ∧ OtpHandled loginModel row w (.error e) s := by
  cases hEnds with
  | rejected hRejected =>
    cases hRejected with
    | fails hFails => exact absurd h.calm hFails
    | unknown hNone => cases hNone.symm.trans h.stored
    | wrong hFound hWrong =>
      cases hFound.symm.trans h.stored
      cases (hWrong h.calm).symm.trans h.password
  | closed hFound _ hStatus =>
    cases hFound.symm.trans h.stored
    cases hStatus with
    | notVerified hNot => exact absurd hOpen.1 hNot
    | blocked _ hBlocked => exact absurd hBlocked hOpen.2
  | held hFound _ _ hHandled =>
    cases hFound.symm.trans h.stored
    exact .inr ⟨_, rfl, hHandled⟩
  | session hFound _ _ hHandled hRest hSession =>
    cases hSession with
    | fails new hFails => exact absurd (h.calm.rest hRest) hFails
    | stored => exact .inl ⟨_, rfl⟩

theorem Owner.sent {code : String} {now : Time} (h : Owner env loginModel row w)
    (hRest : w.Rest w') (hSent : Sent .LOGIN_OTP row code now w w'.state) :
    Owner env loginModel row w' := by
  have hUsers : w'.db.users = w.db.users := hSent.users
  exact ⟨by rw [hUsers]; exact h.stored, h.password, h.verified, h.calm.rest hRest, h.clock.rest hRest⟩

end Login

section Unlock
variable {env : Env} {w w' : World} {loginModel : LoginModel} {row : UserRow}

theorem findOne_named {t : UserTable} (hUuid : env.uuid row.id = some row.id)
    (hRow : t.byId row.id = some row) :
    t.findOne env.uuid { email := some (.val row.email), id := some (.val row.id) } = some (some row) := by
  simp only [UserTable.findOne, UserTable.idCondition, UserTable.emailCondition, hUuid, Option.map_some,
    Option.bind_eq_bind, Option.bind_some, Option.some.injEq]
  have hMem : row ∈ t.rows := (UserTable.byId_eq_some.mp hRow).1
  cases hFind : t.rows.find? fun found => found.email == row.email && found.id == row.id with
  | none => exact absurd (List.find?_eq_none.mp hFind row hMem) (by simp)
  | some found =>
    have hBoth := List.find?_some hFind
    simp only [Bool.and_eq_true, beq_iff_eq] at hBoth
    rw [UserTable.eq_of_nodup t.nodupId (List.mem_of_find?_eq_some hFind) hMem hBoth.2]

/-- A token for the account, in whatever form it is stored by now, leads to it. -/
theorem byToken_addressed {token : String} (hAddresses : Addresses env token row)
    (hUuid : env.uuid row.id = some row.id) (hRow : w.db.users.byId row.id = some row) :
    w.db.byToken env token = some row := by
  obtain ⟨⟨sub, iat, exp⟩, hDecode, hSub⟩ := Option.bind_eq_some_iff.mp hAddresses
  cases sub with
  | undefined => cases hSub
  | null => cases hSub
  | val sub =>
    simp only [Payload.address, Option.some.injEq, Prod.mk.injEq] at hSub
    refine byToken_eq_some.mpr ⟨_, sub, hDecode, rfl, ?_, ?_⟩
    · rw [hSub.1, hSub.2]
      rintro (h | h) <;> cases h
    · rw [hSub.1, hSub.2]
      exact findOne_named hUuid hRow

theorem unlocks {token : String} (h : Owner env loginModel row w) (hAddresses : Addresses env token row)
    (hUuid : env.uuid row.id = some row.id) :
    ∃ updatedAt, Owner env loginModel { row with isBlocked := some false, updatedAt }
      (serveAlone env (.unlockAccountToken token) w).2 := by
  have hRow := byId_of_byEmail h.stored
  have hToken := byToken_addressed hAddresses hUuid hRow
  rcases hServe : serveAlone env (.unlockAccountToken token) w with ⟨out, w'⟩
  obtain ⟨r, hRun, rfl⟩ := run_map_cases _ hServe
  have hRest := rest_run hRun
  have hEnds := updateByToken_cases sets_isBlocked hRun
  generalize hState : w'.state = s at hEnds
  cases hEnds with
  | refused =>
    obtain ⟨info, w₁, hOk⟩ := (succeeds_updateByToken sets_isBlocked).mpr
      ⟨h.calm 0, h.calm 2, h.calm 3, row, hToken⟩
    cases hRun.symm.trans hOk
  | @updated found users hFound hUsers =>
    cases hFound.symm.trans hToken
    have hTable : users = w'.db.users := (congrArg (fun s => s.db.users) hState).symm
    rw [hTable] at hUsers
    obtain ⟨⟨updatedAt, hStored⟩, _⟩ := hUsers.byId hRow rfl
    refine ⟨updatedAt, ?_, h.password, h.verified, h.calm.rest hRest, h.clock.rest hRest⟩
    exact UserTable.byEmail_eq_some.mpr ⟨(UserTable.byId_eq_some.mp hStored).1,
      (UserTable.byEmail_eq_some.mp h.stored).2⟩

end Unlock

end Client

namespace Sample

end Sample

end Manejaplus
