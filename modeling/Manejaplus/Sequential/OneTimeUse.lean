import Manejaplus.Sequential.OtpCalls

/-! # A one-time password is accepted once, and only while it is the newest

Codes may collide as values, so the rules are about the rows that hold them.
-/
namespace Manejaplus
open Effect
set_option autoImplicit false

namespace OtpCalls

abbrev Event := Effect.Event World OtpCall (Except Exception OtpAnswer)

def Accepts (ev : Event) (typeOtp : TypeOtp) (otpCode userId : String) : Prop :=
  ev.request = .checkOtpCodeIsValid typeOtp otpCode userId ∧ ev.outcome = .ok (.valid true)

def Sends (ev : Event) (type : TypeOtp) (userId : String) : Prop :=
  ∃ userModel user, ev.request = .sendOtpCode type userModel ∧ userModel.id = .val userId ∧
    ev.outcome = .ok (.sent user)

/-- The row of this number came with the event. -/
def Issues (ev : Event) (id : Nat) : Prop :=
  id ∈ ev.after.db.otps.rows.map (·.id) ∧ id ∉ ev.before.db.otps.rows.map (·.id)

/-- The event has marked this row used, and changed nothing else in the database. -/
def MarksUsed (ev : Event) (row : OtpRow) : Prop :=
  ∃ now, ev.after.db.otps.rows =
      OtpTable.replace { row with wasUsed := true, updatedAt := now } ev.before.db.otps.rows ∧
    ev.after.db = { ev.before.db with otps := ev.after.db.otps }

/-- The rules of a run, the latest call first. -/
structure OneTimeUse (past : List Event) : Prop where
  newest : ∀ ev ∈ past, ∀ typeOtp otpCode userId, Accepts ev typeOtp otpCode userId →
    ∃ row, ev.before.db.otps.Newest typeOtp userId row ∧ row.otp = otpCode ∧
      row.wasUsed = false ∧ MarksUsed ev row
  superseded : ∀ newer ev older, past = newer ++ ev :: older →
    ∀ typeOtp otpCode userId, Accepts ev typeOtp otpCode userId →
    ∀ row, ev.before.db.otps.Newest typeOtp userId row →
    ∀ sent ∈ older, Sends sent typeOtp userId → row.id ∉ sent.before.db.otps.rows.map (·.id)
  apart : ∀ newer ev older, past = newer ++ ev :: older →
    ∀ typeOtp otpCode userId, Accepts ev typeOtp otpCode userId →
    ∀ row, ev.before.db.otps.Newest typeOtp userId row →
    ∀ sent ∈ older, ∀ type user, Sends sent type user → Issues sent row.id →
      type = typeOtp ∧ user = userId
  consumed : ∀ newer ev older, past = newer ++ ev :: older →
    ∀ typeOtp otpCode userId, Accepts ev typeOtp otpCode userId →
    (∀ later ∈ newer, ¬ Sends later typeOtp userId) →
    ∀ later ∈ newer, ∀ otpCode', ¬ Accepts later typeOtp otpCode' userId

def Spent (t : OtpTable) (typeOtp : TypeOtp) (userId : String) : Prop :=
  ∀ row, t.findByType typeOtp (.val userId) = some row → row.wasUsed = true

variable {env : Env} {start w : World} {c : OtpCall} {out : Except Exception OtpAnswer}
  {db : Database} {calls : List OtpCall}

theorem grows_served (h : OtpServed w c out db) : w.db.otps.Grows db.otps := by
  cases h with
  | failed => exact OtpTable.Grows.refl _
  | sent userId code now _ hRows => exact OtpTable.grows_append hRows
  | refused => exact OtpTable.Grows.refl _
  | @accepted _ _ _ row _ now hRow _ hRows =>
    exact OtpTable.grows_replace (OtpTable.findByType_mem hRow).1 (row.keeps_used now) hRows

theorem grows_event {ev : Event} (h : ev ∈ history (callAlone env) start calls) :
    ev.before.db.otps.Grows ev.after.db.otps := by
  obtain ⟨c, w, rfl⟩ := mem_history h
  rw [serveEvent_before]
  exact grows_served (served_call env c w)

theorem grows_reach {ev : Event} (h : ev ∈ history (callAlone env) start calls) :
    ev.after.db.otps.Grows (reach (callAlone env) start calls).db.otps := by
  refine history_invariant (J := fun past w => ∀ ev ∈ past, ev.after.db.otps.Grows w.db.otps)
    (fun _ h => absurd h List.not_mem_nil) (fun past w c hPast => ?_) calls ev h
  have hGrows := grows_served (served_call env c w)
  exact List.forall_mem_cons.mpr
    ⟨OtpTable.Grows.refl _, fun ev hev => (hPast ev hev).trans hGrows⟩

section Filter

theorem findByType_append {t t' : OtpTable} {row : OtpRow} {typeOtp : TypeOtp} {userId : String}
    (hRows : t'.rows = t.rows ++ [row])
    (hOther : ¬ (row.typeOtp = typeOtp ∧ row.user = some userId)) :
    t'.findByType typeOtp (.val userId) = t.findByType typeOtp (.val userId) := by
  have hNone : [row].filter (OtpTable.ofType typeOtp (.val userId)) = [] := by
    rw [List.filter_eq_nil_iff]
    intro r hr hOfType
    rw [List.mem_singleton.mp hr] at hOfType
    simp only [OtpTable.ofType, Bool.and_eq_true, beq_iff_eq] at hOfType
    exact hOther hOfType
  rw [OtpTable.findByType, hRows, List.filter_append, hNone, List.append_nil]
  rfl

theorem findByType_replace {t t' : OtpTable} {row row' : OtpRow} {typeOtp : TypeOtp}
    {userId : String} (hRow : row ∈ t.rows) (hKeeps : row.Keeps row')
    (hRows : t'.rows = OtpTable.replace row' t.rows)
    (hOther : ¬ (row.typeOtp = typeOtp ∧ row.user = some userId)) :
    t'.findByType typeOtp (.val userId) = t.findByType typeOtp (.val userId) := by
  have hNot : ∀ r : OtpRow, r.typeOtp = row.typeOtp → r.user = row.user →
      OtpTable.ofType typeOtp (.val userId) r = false := by
    intro r hType hUser
    rw [← Bool.not_eq_true]
    intro hOfType
    simp only [OtpTable.ofType, hType, hUser, Bool.and_eq_true, beq_iff_eq] at hOfType
    exact hOther hOfType
  have hSame : ∀ r ∈ t.rows, r.id = row'.id → r = row := fun r hr hId =>
    List.inj_on_of_nodup_map t.nodupId hr hRow (hId.trans hKeeps.id)
  rw [OtpTable.findByType, hRows, OtpTable.replace, List.filter_map, OtpTable.findByType]
  congr 1
  have hFilter : t.rows.filter ((OtpTable.ofType typeOtp (.val userId)) ∘
      fun r => if r.id = row'.id then row' else r) =
      t.rows.filter (OtpTable.ofType typeOtp (.val userId)) := by
    apply List.filter_congr
    intro r hr
    simp only [Function.comp]
    split
    · rename_i hId
      rw [hNot row' hKeeps.typeOtp hKeeps.user, hSame r hr hId, hNot row rfl rfl]
    · rfl
  rw [hFilter]
  refine (List.map_congr_left fun r hr => ?_).trans (List.map_id _)
  obtain ⟨hMem, hOfType⟩ := List.mem_filter.mp hr
  apply if_neg
  intro hId
  rw [hSame r hMem hId, hNot row rfl rfl] at hOfType
  cases hOfType

end Filter

theorem spent_served {typeOtp : TypeOtp} {userId : String} (h : OtpServed w c out db)
    (hSpent : Spent w.db.otps typeOtp userId)
    (hSends : ∀ userModel user, c = .sendOtpCode typeOtp userModel → userModel.id = .val userId →
      out ≠ .ok (.sent user)) :
    Spent db.otps typeOtp userId ∧
      ∀ otpCode, c = .checkOtpCodeIsValid typeOtp otpCode userId → out ≠ .ok (.valid true) := by
  cases h with
  | failed => exact ⟨hSpent, fun _ _ => nofun⟩
  | @sent type userModel user otps userId' code now hId hRows =>
    refine ⟨?_, fun _ => nofun⟩
    rw [Spent, findByType_append hRows]
    · exact hSpent
    · rintro ⟨hType, hUser⟩
      cases hType
      cases hUser
      exact hSends userModel user rfl hId rfl
  | refused => exact ⟨hSpent, fun _ _ => nofun⟩
  | @accepted type otpCode userId' row otps now hRow hAccepts hRows =>
    have hUnused := wasUsed_of_accepts hAccepts
    obtain ⟨hMem, hOfType⟩ := OtpTable.findByType_mem hRow
    simp only [OtpTable.ofType, Bool.and_eq_true, beq_iff_eq] at hOfType
    constructor
    · rw [Spent, findByType_replace hMem (row.keeps_used now) hRows]
      · exact hSpent
      · rintro ⟨hType, hUser⟩
        rw [hOfType.1] at hType
        rw [hOfType.2] at hUser
        cases hType
        cases hUser
        rw [hSpent row hRow] at hUnused
        cases hUnused
    · intro otpCode' hCall
      cases hCall
      rw [hSpent row hRow] at hUnused
      cases hUnused

theorem spent_run {typeOtp : TypeOtp} {userId : String} (hSpent : Spent start.db.otps typeOtp userId)
    (hNone : ∀ ev ∈ history (callAlone env) start calls, ¬ Sends ev typeOtp userId) :
    Spent (reach (callAlone env) start calls).db.otps typeOtp userId ∧
      ∀ ev ∈ history (callAlone env) start calls, ∀ otpCode, ¬ Accepts ev typeOtp otpCode userId := by
  induction calls with
  | nil => exact ⟨hSpent, fun _ h => absurd h List.not_mem_nil⟩
  | cons c calls ih =>
    obtain ⟨hLast, hBefore⟩ := List.forall_mem_cons.mp hNone
    obtain ⟨hSpent', hRefused⟩ := ih hBefore
    obtain ⟨hAfter, hNot⟩ := spent_served (served_call env c _) hSpent'
      fun userModel user hCall hId hSent => hLast ⟨userModel, user, hCall, hId, hSent⟩
    refine ⟨hAfter, List.forall_mem_cons.mpr ⟨fun otpCode hAccepts => ?_, hRefused⟩⟩
    exact hNot otpCode hAccepts.1 hAccepts.2

/-- What an accepted check has found, and what it leaves. -/
theorem accepts_cases {typeOtp : TypeOtp} {otpCode userId : String}
    (h : Accepts (serveEvent (callAlone env) c w) typeOtp otpCode userId)
    (hOrder : w.db.otps.InOrder) :
    ∃ row, w.db.otps.Newest typeOtp userId row ∧ row.otp = otpCode ∧ row.wasUsed = false ∧
      MarksUsed (serveEvent (callAlone env) c w) row := by
  obtain ⟨hCall, hOut⟩ := h
  have hServed := served_call env c w
  unfold MarksUsed
  generalize (serveEvent (callAlone env) c w).after.db = db at hServed ⊢
  generalize (serveEvent (callAlone env) c w).outcome = out at hServed hOut
  cases hServed with
  | failed => cases hOut
  | sent => cases hCall
  | refused => cases hOut
  | @accepted _ _ _ row otps now hRow hAccepts hRows =>
    cases hCall
    have hCode : row.otp = otpCode := by
      simp [OtpService.acceptsOtp, OtpRow.entity] at hAccepts
      exact hAccepts.1.1
    exact ⟨row, OtpTable.newest_of_findByType hOrder hRow, hCode, wasUsed_of_accepts hAccepts,
      now, hRows, rfl⟩

theorem sends_cases {type : TypeOtp} {userId : String}
    (h : Sends (serveEvent (callAlone env) c w) type userId) :
    ∃ row, (serveEvent (callAlone env) c w).after.db.otps.rows = w.db.otps.rows ++ [row] ∧
      row.typeOtp = type ∧ row.user = some userId := by
  obtain ⟨userModel, user, hCall, hId, hOut⟩ := h
  have hServed := served_call env c w
  generalize (serveEvent (callAlone env) c w).after.db = db at hServed ⊢
  generalize (serveEvent (callAlone env) c w).outcome = out at hServed hOut
  cases hServed with
  | failed => cases hOut
  | sent userId' code now hId' hRows =>
    cases hCall
    cases hId.symm.trans hId'
    exact ⟨_, hRows, rfl, rfl⟩
  | refused => cases hOut
  | accepted => cases hCall

/-- An accepted row is the newest one, so once marked used it leaves nothing to accept. -/
theorem spent_accepted {typeOtp : TypeOtp} {otpCode userId : String}
    (h : Accepts (serveEvent (callAlone env) c w) typeOtp otpCode userId)
    (hOrder : (serveEvent (callAlone env) c w).after.db.otps.InOrder) :
    Spent (serveEvent (callAlone env) c w).after.db.otps typeOtp userId := by
  have hBefore : w.db.otps.InOrder := hOrder.of_grows (grows_served (served_call env c w))
  obtain ⟨row, hNewest, _, _, now, hRows, _⟩ := accepts_cases h hBefore
  intro found hFound
  have hMem := @OtpTable.mem_replace w.db.otps row { row with wasUsed := true, updatedAt := now }
    hNewest.mem rfl
  rw [serveEvent_before] at hRows
  have hUsed : (serveEvent (callAlone env) c w).after.db.otps.Newest typeOtp userId
      { row with wasUsed := true, updatedAt := now } := by
    refine ⟨?_, hNewest.typeOtp, hNewest.user, fun r hr hType hUser hNe => ?_⟩
    · rw [hRows]
      exact hMem.mpr (.inl rfl)
    · rw [hRows] at hr
      obtain hEq | ⟨hr, hOther⟩ := hMem.mp hr
      · exact absurd hEq hNe
      · exact hNewest.newest r hr hType hUser hOther
  rw [(OtpTable.newest_of_findByType hOrder hFound).unique hUsed]

section Tables
variable {before after later : OtpTable} {sent row : OtpRow} {type : TypeOtp} {userId : String}

theorem keeps_of_id (hGrows : before.Grows later) {old : OtpRow} (hOld : old ∈ before.rows)
    (hRow : row ∈ later.rows) (hId : row.id = old.id) : old.Keeps row := by
  obtain ⟨kept, hKept, hKeeps⟩ := hGrows.kept old hOld
  have hSame : kept = row := List.inj_on_of_nodup_map later.nodupId hKept hRow
    (hKeeps.id.trans hId.symm)
  exact hSame ▸ hKeeps

theorem newer_than_sent (hRows : after.rows = before.rows ++ [sent]) (hGrows : after.Grows later)
    (hOrder : later.InOrder) (hType : sent.typeOtp = type) (hUser : sent.user = some userId)
    (hNewest : later.Newest type userId row) : row.id ∉ before.rows.map (·.id) := by
  intro hOld
  obtain ⟨old, hMem, hId⟩ := List.mem_map.mp hOld
  have hOldAfter : old ∈ after.rows := by
    rw [hRows]
    exact List.mem_append_left _ hMem
  have hKeeps := keeps_of_id hGrows hOldAfter hNewest.mem hId.symm
  have hSentAfter : sent ∈ after.rows := by
    rw [hRows]
    exact List.mem_append_right _ List.mem_cons_self
  obtain ⟨kept, hKept, hKeptSent⟩ := hGrows.kept sent hSentAfter
  have hEarlier : old.createdAt < sent.createdAt := by
    have hAfter : after.InOrder := hOrder.of_grows hGrows
    rw [OtpTable.InOrder, hRows, List.map_append, List.pairwise_append] at hAfter
    exact hAfter.2.2 _ (List.mem_map_of_mem hMem) _ (by simp)
  rw [← hKeeps.createdAt, ← hKeptSent.createdAt] at hEarlier
  have hNe : kept ≠ row := by
    rintro rfl
    exact Nat.lt_irrefl _ hEarlier
  have hLater := hNewest.newest kept hKept (hKeptSent.typeOtp.trans hType)
    (hKeptSent.user.trans hUser) hNe
  exact Nat.lt_asymm hEarlier hLater

theorem keeps_sent (hRows : after.rows = before.rows ++ [sent]) (hGrows : after.Grows later)
    (hRow : row ∈ later.rows) (hAfter : row.id ∈ after.rows.map (·.id))
    (hBefore : row.id ∉ before.rows.map (·.id)) : sent.Keeps row := by
  obtain ⟨issued, hMem, hId⟩ := List.mem_map.mp hAfter
  have hKeeps := keeps_of_id hGrows hMem hRow hId.symm
  rw [hRows] at hMem
  obtain hOld | hSent := List.mem_append.mp hMem
  · exact absurd (hId ▸ List.mem_map_of_mem hOld) hBefore
  · rw [← List.mem_singleton.mp hSent]
    exact hKeeps

end Tables

end OtpCalls

open OtpCalls in
/-- A check says yes to the newest code of its user and type only, marks it used, and then to no
code of theirs until the next one is sent. -/
theorem otp_accepted_once (env : Env) (start : World) (calls : List OtpCall)
    (hOrder : (reach (callAlone env) start calls).db.otps.InOrder) :
    OneTimeUse (history (callAlone env) start calls) := by
  have hEvent : ∀ ev ∈ history (callAlone env) start calls,
      ev.before.db.otps.InOrder ∧ ev.after.db.otps.InOrder := by
    intro ev hev
    have hAfter := hOrder.of_grows (grows_reach hev)
    exact ⟨hAfter.of_grows (grows_event hev), hAfter⟩
  -- what was sent before an event, and how the table has gone on until then
  have hSent : ∀ {newer ev older}, history (callAlone env) start calls = newer ++ ev :: older →
      ∀ sent ∈ older, ∀ type user, Sends sent type user →
      ∃ row, sent.after.db.otps.rows = sent.before.db.otps.rows ++ [row] ∧ row.typeOtp = type ∧
        row.user = some user ∧ sent.after.db.otps.Grows ev.before.db.otps := by
    intro newer ev older hSplit sent hMem type user hSends
    obtain ⟨_, c, earlier, _, _, rfl, rfl⟩ := history_split hSplit
    have hGrows := grows_reach hMem
    obtain ⟨c', w, rfl⟩ := mem_history hMem
    obtain ⟨row, hRows, hType, hUser⟩ := sends_cases hSends
    exact ⟨row, hRows, hType, hUser, hGrows⟩
  have hMember : ∀ {newer ev older}, history (callAlone env) start calls = newer ++ ev :: older →
      ev ∈ history (callAlone env) start calls := by
    intro newer ev older hSplit
    rw [hSplit]
    exact List.mem_append_right _ List.mem_cons_self
  constructor
  case newest =>
    intro ev hev typeOtp otpCode userId hAccepts
    have hBefore := (hEvent ev hev).1
    obtain ⟨c, w, rfl⟩ := mem_history hev
    exact accepts_cases hAccepts hBefore
  case superseded =>
    intro newer ev older hSplit typeOtp otpCode userId _ row hNewest sent hMem hSends
    obtain ⟨issued, hRows, hType, hUser, hGrows⟩ := hSent hSplit sent hMem _ _ hSends
    exact newer_than_sent hRows hGrows (hEvent ev (hMember hSplit)).1 hType hUser hNewest
  case apart =>
    intro newer ev older hSplit typeOtp otpCode userId _ row hNewest sent hMem type user hSends
      hIssues
    obtain ⟨issued, hRows, rfl, hUser, hGrows⟩ := hSent hSplit sent hMem _ _ hSends
    have hKeeps := keeps_sent hRows hGrows hNewest.mem hIssues.1 hIssues.2
    refine ⟨hKeeps.typeOtp.symm.trans hNewest.typeOtp, ?_⟩
    exact Option.some.inj (hUser.symm.trans (hKeeps.user.symm.trans hNewest.user))
  case consumed =>
    intro newer ev older hSplit typeOtp otpCode userId hAccepts hNone
    have hAfter := (hEvent ev (hMember hSplit)).2
    obtain ⟨later, c, earlier, _, rfl, rfl, rfl⟩ := history_split hSplit
    exact (spent_run (spent_accepted hAccepts hAfter) hNone).2

namespace Sample

/-- One account, and a clock past the first minutes of the epoch. -/
def otpWorld : World :=
  { world (oneUser row) with outside := ⟨fun n => { now := 100000 + 1000 * n }, [], []⟩ }

/-- A code is sent, and then tried twice. -/
def otpCalls : List OtpCall :=
  [.checkOtpCodeIsValid .LOGIN_OTP "100000" "u", .checkOtpCodeIsValid .LOGIN_OTP "100000" "u",
    .sendOtpCode .LOGIN_OTP row.entity]

end Sample

theorem otp_accepted_once_sample :
    OtpCalls.OneTimeUse (history (callAlone (Sample.env [])) Sample.otpWorld Sample.otpCalls) ∧
      ((history (callAlone (Sample.env [])) Sample.otpWorld Sample.otpCalls).take 2).map
        (·.outcome) = [.ok (.valid false), .ok (.valid true)] :=
  ⟨otp_accepted_once (Sample.env []) Sample.otpWorld Sample.otpCalls (by decide), by decide⟩

end Manejaplus
