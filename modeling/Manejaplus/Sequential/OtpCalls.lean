import Mathlib.Data.List.Infix
import Manejaplus.Effect.History
import Manejaplus.Sequential.Otp

/-! # Runs of the two one-time password calls

`sendOtpCode` adds a row, `checkOtpCodeIsValid` looks at the newest one of its
user and type and marks it used. Rows are never removed, so a table only grows.
-/
namespace Manejaplus
open Effect Prog
set_option autoImplicit false

inductive OtpCall where
  | sendOtpCode (type : TypeOtp) (userModel : UserModel)
  | checkOtpCodeIsValid (typeOtp : TypeOtp) (otpCode userId : String)
  deriving DecidableEq, Repr

inductive OtpAnswer where
  | sent (user : UserModel)
  | valid (isValid : Bool)
  deriving DecidableEq, Repr

def OtpCall.prog : OtpCall → Async OtpAnswer
  | .sendOtpCode type userModel => do return .sent (← OtpService.sendOtpCode type userModel)
  | .checkOtpCodeIsValid typeOtp otpCode userId => do
    return .valid (← OtpService.checkOtpCodeIsValid typeOtp otpCode (.val userId))

def callAlone (env : Env) (c : OtpCall) (w : World) : Except Exception OtpAnswer × World :=
  run (alone env) c.prog w

/-- Still the row of the same code; what has been used stays used. -/
structure OtpRow.Keeps (row row' : OtpRow) : Prop where
  id : row'.id = row.id
  otp : row'.otp = row.otp
  typeOtp : row'.typeOtp = row.typeOtp
  user : row'.user = row.user
  createdAt : row'.createdAt = row.createdAt
  wasUsed : row.wasUsed = true → row'.wasUsed = true

theorem OtpRow.keeps_used (row : OtpRow) (now : Time) :
    row.Keeps { row with wasUsed := true, updatedAt := now } :=
  ⟨rfl, rfl, rfl, rfl, rfl, fun _ => rfl⟩

namespace OtpTable

/-- The table has gone on to the second one: rows were kept, and others added behind them. -/
structure Grows (t t' : OtpTable) : Prop where
  kept : ∀ row ∈ t.rows, ∃ row' ∈ t'.rows, row.Keeps row'
  times : (t.rows.map (·.createdAt)) <+: (t'.rows.map (·.createdAt))

/-- Rows lie in the order of their creation, no two of one time. -/
def InOrder (t : OtpTable) : Prop := (t.rows.map (·.createdAt)).Pairwise (· < ·)

instance (t : OtpTable) : Decidable t.InOrder := inferInstanceAs (Decidable (List.Pairwise _ _))

structure Newest (t : OtpTable) (type : TypeOtp) (userId : String) (row : OtpRow) : Prop where
  mem : row ∈ t.rows
  typeOtp : row.typeOtp = type
  user : row.user = some userId
  newest : ∀ r ∈ t.rows, r.typeOtp = type → r.user = some userId → r ≠ row →
    r.createdAt < row.createdAt

theorem Grows.refl (t : OtpTable) : t.Grows t where
  kept row hRow := ⟨row, hRow, rfl, rfl, rfl, rfl, rfl, fun h => h⟩
  times := List.prefix_rfl

theorem Grows.trans {t t' t'' : OtpTable} (h : t.Grows t') (h' : t'.Grows t'') :
    t.Grows t'' where
  kept row hRow := by
    obtain ⟨row', hRow', hKeeps⟩ := h.kept row hRow
    obtain ⟨row'', hRow'', hKeeps'⟩ := h'.kept row' hRow'
    exact ⟨row'', hRow'', hKeeps'.id.trans hKeeps.id, hKeeps'.otp.trans hKeeps.otp,
      hKeeps'.typeOtp.trans hKeeps.typeOtp, hKeeps'.user.trans hKeeps.user,
      hKeeps'.createdAt.trans hKeeps.createdAt, fun hUsed => hKeeps'.wasUsed (hKeeps.wasUsed hUsed)⟩
  times := h.times.trans h'.times

theorem InOrder.of_grows {t t' : OtpTable} (h : t'.InOrder) (hGrows : t.Grows t') : t.InOrder :=
  List.Pairwise.sublist hGrows.times.sublist h

theorem grows_append {t t' : OtpTable} {row : OtpRow} (hRows : t'.rows = t.rows ++ [row]) :
    t.Grows t' where
  kept r hr := ⟨r, by rw [hRows]; exact List.mem_append_left _ hr, rfl, rfl, rfl, rfl, rfl,
    fun h => h⟩
  times := by
    rw [hRows, List.map_append]
    exact List.prefix_append _ _

theorem mem_replace {t : OtpTable} {row row' : OtpRow} (hRow : row ∈ t.rows)
    (hId : row'.id = row.id) {r : OtpRow} :
    r ∈ replace row' t.rows ↔ r = row' ∨ (r ∈ t.rows ∧ r ≠ row) := by
  rw [replace, List.mem_map]
  constructor
  · rintro ⟨old, hOld, rfl⟩
    split
    · exact .inl rfl
    · rename_i hNe
      exact .inr ⟨hOld, fun h => hNe (by rw [h, hId])⟩
  · rintro (rfl | ⟨hr, hNe⟩)
    · exact ⟨row, hRow, if_pos hId.symm⟩
    · refine ⟨r, hr, if_neg fun h => hNe ?_⟩
      exact List.inj_on_of_nodup_map t.nodupId hr hRow (h.trans hId)

theorem grows_replace {t t' : OtpTable} {row row' : OtpRow} (hRow : row ∈ t.rows)
    (hKeeps : row.Keeps row') (hRows : t'.rows = replace row' t.rows) : t.Grows t' where
  kept r hr := by
    rw [hRows]
    by_cases hEq : r = row
    · exact ⟨row', (mem_replace hRow hKeeps.id).mpr (.inl rfl), hEq ▸ hKeeps⟩
    · exact ⟨r, (mem_replace hRow hKeeps.id).mpr (.inr ⟨hr, hEq⟩), rfl, rfl, rfl, rfl, rfl,
        fun h => h⟩
  times := by
    have hTimes : (replace row' t.rows).map (·.createdAt) = t.rows.map (·.createdAt) := by
      rw [replace, List.map_map]
      apply List.map_congr_left
      intro r hr
      simp only [Function.comp]
      split
      · rename_i h
        rw [List.inj_on_of_nodup_map t.nodupId hr hRow (h.trans hKeeps.id), hKeeps.createdAt]
      · rfl
    rw [hRows, hTimes]

theorem latest_le {step : Option OtpRow → OtpRow → Option OtpRow}
    (hStep : ∀ best row, ∃ b, step best row = some b ∧ row.createdAt ≤ b.createdAt ∧
      ∀ b', best = some b' → b'.createdAt ≤ b.createdAt)
    {rows : List OtpRow} {best : Option OtpRow} {row : OtpRow} (h : rows.foldl step best = some row) :
    (∀ b, best = some b → b.createdAt ≤ row.createdAt) ∧
      ∀ r ∈ rows, r.createdAt ≤ row.createdAt := by
  induction rows generalizing best with
  | nil =>
    refine ⟨fun b hb => ?_, List.forall_mem_nil _⟩
    cases hb.symm.trans h
    exact Nat.le_refl _
  | cons r rows ih =>
    obtain ⟨hBest, hRest⟩ := ih h
    obtain ⟨b, hSome, hRow, hBefore⟩ := hStep best r
    have hb := hBest b hSome
    exact ⟨fun b' h' => Nat.le_trans (hBefore b' h') hb,
      List.forall_mem_cons.mpr ⟨Nat.le_trans hRow hb, hRest⟩⟩

theorem newest_le {rows : List OtpRow} {row : OtpRow} (h : newest rows = some row) :
    ∀ r ∈ rows, r.createdAt ≤ row.createdAt := by
  refine (latest_le (fun best r => ?_) h).2
  cases best with
  | none => exact ⟨r, rfl, Nat.le_refl _, fun b hb => absurd hb (Option.some_ne_none b).symm⟩
  | some b =>
    by_cases hLt : b.createdAt < r.createdAt
    · refine ⟨r, if_pos hLt, Nat.le_refl _, fun b' hb' => ?_⟩
      cases hb'
      exact Nat.le_of_lt hLt
    · refine ⟨b, if_neg hLt, Nat.le_of_not_lt hLt, fun b' hb' => ?_⟩
      cases hb'
      exact Nat.le_refl _

theorem eq_of_createdAt {t : OtpTable} (h : t.InOrder) {row row' : OtpRow} (hRow : row ∈ t.rows)
    (hRow' : row' ∈ t.rows) (hTime : row.createdAt = row'.createdAt) : row = row' := by
  have hNodup : (t.rows.map (·.createdAt)).Nodup := List.Pairwise.imp (fun h => Nat.ne_of_lt h) h
  exact List.inj_on_of_nodup_map hNodup hRow hRow' hTime

theorem newest_of_findByType {t : OtpTable} {typeOtp : TypeOtp} {userId : String} {row : OtpRow}
    (hOrder : t.InOrder) (h : t.findByType typeOtp (.val userId) = some row) :
    t.Newest typeOtp userId row := by
  obtain ⟨hMem, hOfType⟩ := findByType_mem h
  simp only [ofType, Bool.and_eq_true, beq_iff_eq] at hOfType
  refine ⟨hMem, hOfType.1, hOfType.2, fun r hr hType hUser hNe => ?_⟩
  have hLe : r.createdAt ≤ row.createdAt := newest_le h r
    (List.mem_filter.mpr ⟨hr, by simp [ofType, hType, hUser]⟩)
  have hDiffer : r.createdAt ≠ row.createdAt := fun hTime =>
    hNe (eq_of_createdAt hOrder hr hMem hTime)
  exact Nat.lt_of_le_of_ne hLe hDiffer

theorem Newest.unique {t : OtpTable} {type : TypeOtp} {userId : String} {row row' : OtpRow}
    (h : t.Newest type userId row) (h' : t.Newest type userId row') : row = row' := by
  by_contra hNe
  have hLt := h'.newest row h.mem h.typeOtp h.user hNe
  have hGt := h.newest row' h'.mem h'.typeOtp h'.user (Ne.symm hNe)
  exact Nat.lt_asymm hLt hGt

end OtpTable

variable {env : Env} {w w' : World}

inductive OtpServed (w : World) : OtpCall → Except Exception OtpAnswer → Database → Prop
  | failed {c : OtpCall} {e : Exception} : OtpServed w c (.error e) w.db
  | sent {type : TypeOtp} {userModel user : UserModel} {otps : OtpTable} (userId code : String)
      (now : Time) : userModel.id = .val userId →
      otps.rows = w.db.otps.rows ++ [w.db.otps.newRow type code userId now] →
      OtpServed w (.sendOtpCode type userModel) (.ok (.sent user)) { w.db with otps }
  | refused {typeOtp : TypeOtp} {otpCode userId : String} :
      OtpServed w (.checkOtpCodeIsValid typeOtp otpCode userId) (.ok (.valid false)) w.db
  | accepted {typeOtp : TypeOtp} {otpCode userId : String} {row : OtpRow} {otps : OtpTable}
      (now : Time) : w.db.otps.findByType typeOtp (.val userId) = some row →
      OtpService.acceptsOtp otpCode row.entity = true →
      otps.rows = OtpTable.replace { row with wasUsed := true, updatedAt := now } w.db.otps.rows →
      OtpServed w (.checkOtpCodeIsValid typeOtp otpCode userId) (.ok (.valid true))
        { w.db with otps }

/-- A code for a user object that names no stored row is refused by the foreign key. -/
theorem saveOtpOf_cases {typeOtp : TypeOtp} {code : String} {user : UserEntity}
    {r : Except Exception OtpObject} (hRun : run (alone env) (OtpRepositoryImpl.save
      { typeOtp := .val typeOtp, otp := .val code, user := .val user }) w = (r, w')) :
    (w'.state = w.state ∧ ∃ e, r = .error e) ∨
    ∃ saved otps userId now, r = .ok saved ∧ user.id = .val userId ∧
      otps.rows = w.db.otps.rows ++ [w.db.otps.newRow typeOtp code userId now] ∧
      w'.state = { w.state with db := { w.db with otps } } := by
  obtain ⟨hState, hFails⟩ | hSave := saveOtp_cases hRun
  · exact .inl ⟨hState, _, hFails.1⟩
  · cases hKey : OtpTable.userKey w.db.users none (.val user) with
    | none =>
      have hNew : w.db.otps.save w.db.users w.choice.now
          { typeOtp := .val typeOtp, otp := .val code, user := .val user } = none := by
        simp [OtpTable.save, OtpTable.ofEntity, Js.required, hKey]
      rw [hNew] at hSave
      exact .inl ⟨hSave.2, _, hSave.1⟩
    | some key =>
      have hUser : ∃ userId, user.id = .val userId ∧ key = some userId := by
        simp only [OtpTable.userKey] at hKey
        split at hKey
        · rename_i userId hId
          obtain ⟨row, hRow, rfl⟩ := Option.map_eq_some_iff.mp hKey
          exact ⟨userId, hId, congrArg some (UserTable.byId_eq_some.mp hRow).2⟩
        · cases hKey
      obtain ⟨userId, hId, rfl⟩ := hUser
      obtain ⟨otps, hRows, hOtps⟩ := @OtpTable.ofRows?_append w.db.otps
        (w.db.otps.newRow typeOtp code userId w.choice.now) rfl
      have hNew : OtpTable.ofEntity w.db.users w.db.otps.nextId w.choice.now
          { typeOtp := .val typeOtp, otp := .val code, user := .val user } =
          some (w.db.otps.newRow typeOtp code userId w.choice.now) := by
        simp [OtpTable.ofEntity, Js.required, hKey, OtpTable.newRow]
      simp only [OtpTable.save, hNew, hRows, Option.bind_eq_bind, Option.bind_some] at hSave
      exact .inr ⟨_, otps, userId, _, hSave.1, hId, hOtps, hSave.2⟩

theorem sendOtpCodeTo_cases {type : TypeOtp} {userModel : UserModel}
    {r : Except Exception UserModel}
    (hRun : run (alone env) (OtpService.sendOtpCode type userModel) w = (r, w')) :
    (w'.db = w.db ∧ ∃ e, r = .error e) ∨
    ∃ user otps userId code now, r = .ok user ∧ userModel.id = .val userId ∧
      otps.rows = w.db.otps.rows ++ [w.db.otps.newRow type code userId now] ∧
      w'.state = { w.state with
        db := { w.db with otps }
        mails := w.state.mails ++
          [⟨userModel.email, type.text, { user := userModel, otpCode := some code }⟩] } := by
  unfold OtpService.sendOtpCode at hRun
  obtain ⟨hState, hFails⟩ | ⟨w₁, w₂, hState₁, _, hBody, hState⟩ :=
      transactional_cases (plain_of_among (performs_sendOtpCode _ _) (by decide)) hRun
  · exact .inl ⟨World.state_db hState, _, hFails.1⟩
  cases r with
  | error e => exact .inl ⟨congrArg State.db hState, e, rfl⟩
  | ok user =>
    obtain ⟨e, hErr, _⟩ | ⟨code, w₃, hCode, hBody₁⟩ := run_bind_cases _ hBody
    · cases hErr
    have hState₃ : w₃.state = w.state := (generateOtp_run hCode).1.trans hState₁
    rw [SqlGlobalMapper.mapClass_default] at hBody₁
    obtain ⟨e, hErr, _⟩ | ⟨saved, w₄, hSave, hBody₂⟩ := run_bind_cases _ hBody₁
    · cases hErr
    obtain ⟨_, e, hErr⟩ | ⟨_, otps, userId, now, _, hId, hOtps, hState₄⟩ := saveOtpOf_cases hSave
    · cases hErr
    obtain ⟨e, hErr, _⟩ | ⟨_, w₅, hMail, hEnd⟩ := run_bind_cases _ hBody₂
    · cases hErr
    obtain ⟨_, hFails⟩ | ⟨_, hState₅⟩ := sendEmail_cases hMail
    · cases hFails.1
    cases hEnd
    rw [World.state_db hState₃] at hOtps hState₄
    refine .inr ⟨_, otps, userId, code, now, rfl, hId, hOtps, ?_⟩
    rw [hState, State.settle, hState₅, hState₄, hState₃]

theorem callAlone_cases {c : OtpCall} {out : Except Exception OtpAnswer}
    (hCall : callAlone env c w = (out, w')) : OtpServed w c out w'.db := by
  cases c with
  | sendOtpCode type userModel =>
    obtain ⟨r, hRun, rfl⟩ := run_map_cases _ hCall
    obtain ⟨hDb, e, rfl⟩ | ⟨user, otps, userId, code, now, rfl, hId, hOtps, hState⟩ :=
        sendOtpCodeTo_cases hRun
    · exact hDb ▸ .failed
    · have hDb : w'.db = { w.db with otps } := congrArg State.db hState
      exact hDb ▸ .sent userId code now hId hOtps
  | checkOtpCodeIsValid typeOtp otpCode userId =>
    obtain ⟨r, hRun, rfl⟩ := run_map_cases _ hCall
    have hChecked := checkOtpCodeIsValid_cases hRun
    have hDb : w'.db = w'.state.db := rfl
    rw [hDb]
    generalize w'.state = s at hChecked
    cases hChecked with
    | fails _ => exact .failed
    | missing _ => exact .failed
    | refused _ _ => exact .refused
    | accepted now hRow hAccepts hOtps => exact .accepted now hRow hAccepts hOtps

theorem served_call (env : Env) (c : OtpCall) (w : World) :
    OtpServed w c (serveEvent (callAlone env) c w).outcome
      (serveEvent (callAlone env) c w).after.db := callAlone_cases rfl

end Manejaplus
