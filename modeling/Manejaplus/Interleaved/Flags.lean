import Manejaplus.Interleaved.Snapshots

/-! # Flags that other requests have set

A save writes both flags over the row, be they what the request has set or what
it had read. A flag that has been set since then goes back to what it was.
-/
namespace Manejaplus
open Effect Prog Holding
set_option autoImplicit false

def World.Accepts (env : Env) (w : World) (e : UserEntity) : Prop :=
  w.choice.fault = false ∧
    (w.db.users.save env.uuid w.choice.uuid w.choice.now e).isSome = true

/-- A flag the row has, the object to be saved has as well: it was read with it, or it is the
request's business to change it. -/
def Holding.UpToDate (γ : Holding) (row : UserRow) : Prop :=
  match γ.snapshot with
  | .none => True
  | .held seen =>
    (row.isVerified = some true → γ.request.verifies = true ∨ seen.isVerified = .val true) ∧
      (row.isBlocked = some true → γ.request.unlocks = true ∨ seen.isBlocked = .val true)
  | .refused seen =>
    (row.isVerified = some true → seen.isVerified = .val true) ∧
      (row.isBlocked = some true → seen.isBlocked = .val true ∨
        UserModel.reachesLimit (UserModel.increment seen.attemptsFailed) = true)

/-- Every account keeps its flags, except that `isBlocked` may have been cleared. -/
def FlagsHold (cleared : Prop) (t t' : UserTable) : Prop :=
  ∀ row ∈ t.rows, ∃ row' ∈ t'.rows, row'.id = row.id ∧
    (row.isVerified = some true → row'.isVerified = some true) ∧
    (row.isBlocked = some true → row'.isBlocked = some true ∨ cleared)

instance (cleared : Prop) [Decidable cleared] (t t' : UserTable) :
    Decidable (FlagsHold cleared t t') :=
  inferInstanceAs (Decidable (∀ row ∈ t.rows, ∃ row' ∈ t'.rows, _))

theorem flagsHold_refl (cleared : Prop) (t : UserTable) : FlagsHold cleared t t :=
  fun row hRow => ⟨row, hRow, rfl, id, .inl⟩

theorem FlagsHold.trans {a b : Prop} {t t' t'' : UserTable} (h : FlagsHold a t t')
    (h' : FlagsHold b t' t'') : FlagsHold (a ∨ b) t t'' := by
  intro row hRow
  obtain ⟨row', hRow', hId', hVerified', hBlocked'⟩ := h row hRow
  obtain ⟨row'', hRow'', hId'', hVerified'', hBlocked''⟩ := h' row' hRow'
  refine ⟨row'', hRow'', hId''.trans hId', fun hv => hVerified'' (hVerified' hv), ?_⟩
  intro hb
  obtain hb | ha := hBlocked' hb
  · obtain hb | hb := hBlocked'' hb
    · exact .inl hb
    · exact .inr (.inr hb)
  · exact .inr (.inl ha)

theorem FlagsHold.mono {a b : Prop} {t t' : UserTable} (hab : a → b) (h : FlagsHold a t t') :
    FlagsHold b t t' := by
  intro row hRow
  obtain ⟨row', hRow', hId, hVerified, hBlocked⟩ := h row hRow
  exact ⟨row', hRow', hId, hVerified, fun hb => (hBlocked hb).imp_right hab⟩

theorem UserRow.write_flags {row row' : UserRow} {e : UserEntity} (h : row.write e = some row') :
    row'.isVerified = e.isVerified.write row.isVerified ∧
      row'.isBlocked = e.isBlocked.write row.isBlocked := by
  obtain ⟨_, _, _, _, _, _, _, _, _, _, _, _, rfl⟩ := write_eq_some h
  exact ⟨rfl, rfl⟩

/-- Writing a loaded value over a flag keeps it set exactly if the value is a set flag too. -/
theorem Js.write_set {v : Js Bool} {flag : Option Bool} (hv : v ≠ .undefined) :
    v.write flag = some true ↔ v = .val true := by
  cases v with
  | undefined => exact absurd rfl hv
  | null => simp [Js.write]
  | val b => simp [Js.write]

theorem flags_written {γ : Holding} {row row' : UserRow} {e : UserEntity} (he : γ.Saves e)
    (hWrite : row.write e = some row') :
    ((row.isVerified = some true → row'.isVerified = some true) ∧
      (row.isBlocked = some true → row'.isBlocked = some true ∨ γ.request.unlocks = true)) ↔
    γ.UpToDate row := by
  obtain ⟨hVerified, hBlocked⟩ := UserRow.write_flags hWrite
  obtain ⟨hSavedVerified, hSavedBlocked, hSnapshot⟩ := he
  rw [hVerified, hBlocked, hSavedVerified, hSavedBlocked]
  unfold Holding.isVerified Holding.isBlocked Holding.UpToDate
  cases hSeen : γ.snapshot with
  | none =>
    rw [hSeen] at hSnapshot
    exact hSnapshot.elim
  | held seen =>
    rw [hSeen] at hSnapshot
    obtain ⟨⟨hv, hb⟩, _⟩ := hSnapshot
    simp only
    refine and_congr (imp_congr_right fun _ => ?_) (imp_congr_right fun _ => ?_)
    · cases hVerifies : γ.request.verifies <;> simp [Js.write_set hv]
    · cases hUnlocks : γ.request.unlocks <;> simp [Js.write_set hb]
  | refused seen =>
    rw [hSeen] at hSnapshot
    obtain ⟨hUnlocks, ⟨hv, hb⟩, _⟩ := hSnapshot
    simp only
    refine and_congr (imp_congr_right fun _ => ?_) (imp_congr_right fun _ => ?_)
    · exact Js.write_set hv
    · simp only [UserModel.incrementFailedAttempts, hUnlocks, Bool.false_eq_true, or_false]
      cases hLimit : UserModel.reachesLimit (UserModel.increment seen.attemptsFailed) <;>
        simp [Js.write_set hb]

section Step

variable {env : Env} {w : World}

theorem shared_users {o : Op} (ho : ∀ e, o ≠ .store (.saveUser e)) :
    (shared env o w).2.db.users = w.db.users := by
  by_cases hOtp : ∃ e, o = .store (.saveOtp e)
  · obtain ⟨e, rfl⟩ := hOtp
    simp only [shared, World.execStore, Database.exec]
    split
    · rfl
    · cases w.db.otps.save w.db.users w.choice.now e <;> rfl
  · rw [shared_db ho fun e h => hOtp ⟨e, h⟩]

theorem shared_refused {e : UserEntity} (h : ¬ w.Accepts env e) :
    (shared env (.store (.saveUser e)) w).2.db.users = w.db.users := by
  simp only [shared, World.execStore, Database.exec]
  split
  · rfl
  · rename_i hFault
    have hNone : w.db.users.save env.uuid w.choice.uuid w.choice.now e = none := by
      rw [← Option.not_isSome_iff_eq_none]
      exact fun hSome => h ⟨by simpa using hFault, hSome⟩
    rw [hNone]
    rfl

theorem shared_accepted {e : UserEntity} (h : w.Accepts env e) :
    (∃ row row' updatedAt, row ∈ w.db.users.rows ∧ e.id = .val row.id ∧ row.write e = some row' ∧
      (shared env (.store (.saveUser e)) w).2.db.users.rows =
        UserTable.replace { row' with updatedAt } w.db.users.rows) ∨
    ∃ row, (∀ r ∈ w.db.users.rows, e.id ≠ .val r.id) ∧
      (shared env (.store (.saveUser e)) w).2.db.users.rows = w.db.users.rows ++ [row] := by
  obtain ⟨hFault, hSome⟩ := h
  obtain ⟨⟨e', users⟩, hSaved⟩ := Option.isSome_iff_exists.mp hSome
  rw [shared_saveUser_users hFault hSaved]
  obtain ⟨row, row', hRow, hId, hWrite, hRows⟩ | hInsert := UserTable.save_eq_some hSaved
  · obtain ⟨updatedAt, hTouch⟩ := UserTable.touch_eq w.choice.now row row'
    exact .inl ⟨row, row', updatedAt, hRow, hId, hWrite, hTouch ▸ hRows⟩
  · exact .inr hInsert

/-- An accepted save leaves the flags standing exactly if what it saves is up to date. -/
theorem flagsHold_save {γ : Holding} {e : UserEntity}
    (he : γ.Saves e ∨ (γ.snapshot = .none ∧ e.id = .undefined)) (hAccepts : w.Accepts env e) :
    FlagsHold (γ.request.unlocks = true) w.db.users
        (shared env (.store (.saveUser e)) w).2.db.users ↔
      ∀ row ∈ w.db.users.rows, e.id = .val row.id → γ.UpToDate row := by
  obtain ⟨row, row', updatedAt, hRow, hId, hWrite, hRows⟩ | ⟨new, hNew, hRows⟩ :=
    shared_accepted hAccepts
  · have hSaves : γ.Saves e := by
      obtain hSaves | ⟨_, hNoId⟩ := he
      · exact hSaves
      · rw [hNoId] at hId
        cases hId
    have hSame : row'.id = row.id := (UserRow.write_id hWrite).1
    have hStored :
        { row' with updatedAt } ∈ (shared env (.store (.saveUser e)) w).2.db.users.rows := by
      rw [hRows]
      exact List.mem_map.mpr ⟨row, hRow, if_pos hSame.symm⟩
    constructor
    · intro hHold r hr hId'
      rw [hId] at hId'
      have hEq : r = row := UserTable.eq_of_nodup w.db.users.nodupId hr hRow (Js.val.inj hId').symm
      subst hEq
      obtain ⟨r', hr', hIdr, hFlags⟩ := hHold r hr
      have hEq' : r' = { row' with updatedAt } :=
        UserTable.eq_of_nodup (shared env (.store (.saveUser e)) w).2.db.users.nodupId hr' hStored
          (hIdr.trans hSame.symm)
      rw [hEq'] at hFlags
      exact (flags_written hSaves hWrite).mp hFlags
    · intro hUpToDate r hr
      by_cases hEq : r.id = row.id
      · have hrRow : r = row := UserTable.eq_of_nodup w.db.users.nodupId hr hRow hEq
        subst hrRow
        obtain ⟨hVerified, hBlocked⟩ := (flags_written hSaves hWrite).mpr (hUpToDate r hr hId)
        exact ⟨_, hStored, hSame, hVerified, hBlocked⟩
      · refine ⟨r, ?_, rfl, id, .inl⟩
        rw [hRows]
        exact List.mem_map.mpr ⟨r, hr, if_neg fun h => hEq (h.trans hSame)⟩
  · constructor
    · exact fun _ r hr hId => absurd hId (hNew r hr)
    · intro _ r hr
      refine ⟨r, ?_, rfl, id, .inl⟩
      rw [hRows]
      exact List.mem_append_left _ hr

end Step

namespace Flags

abbrev Requests (ι : Type) := Pool services Exception World Response Holding ι

variable {ι : Type} {env : Env}

def received (env : Env) (w : World) (q : ι → Request) : Requests ι where
  world := w
  threads i := ⟨serve env.cases (q i), ⟨q i, .none⟩⟩

/-- A save that is about to go through saves no flag that is out of date. -/
def CurrentSave (env : Env) (p : Requests ι) (i : ι) : Prop :=
  ∀ e, (p.threads i).prog.awaits = some (.store (.saveUser e)) → p.world.Accepts env e →
    ∀ row ∈ p.world.db.users.rows, e.id = .val row.id → (p.threads i).ghost.UpToDate row

variable [DecidableEq ι]

structure Kept (env : Env) (q : ι → Request) (p : Requests ι) : Prop where
  obedient : p.Obedient (shared env) protocol (fun _ => True) fun _ _ _ => True
  request : ∀ i, (p.threads i).ghost.request = q i

theorem next_request (γ : Holding) (w : World) (o : Op) (r : Except Exception (services.Res o)) :
    (protocol.next γ w o r).request = γ.request := by
  unfold protocol
  simp only
  split <;> (try split) <;> rfl

theorem kept_step {q : ι → Request} (p : Requests ι) (i : ι) (h : Kept env q p) :
    Kept env q (p.step (shared env) protocol i) := by
  refine ⟨Pool.obedient_step h.obedient trivial i, ?_⟩
  intro j
  obtain hIdle | ⟨o, k, _, hStep⟩ := Pool.step_cases (shared env) protocol p i
  · rw [hIdle]
    exact h.request j
  · rw [hStep]
    by_cases hj : j = i
    · subst hj
      simp only [Function.update_self, next_request]
      exact h.request j
    · simp only [Function.update_of_ne hj]
      exact h.request j

omit [DecidableEq ι] in
theorem kept_received (w : World) (q : ι → Request) : Kept env q (received env w q) :=
  ⟨fun i => keeps_serve (q i), fun _ => rfl⟩

theorem flagsHold_step {q : ι → Request} (p : Requests ι) (i : ι) (h : Kept env q p) :
    FlagsHold ((q i).unlocks = true) p.world.db.users
        (p.step (shared env) protocol i).world.db.users ↔ CurrentSave env p i := by
  rw [← h.request i]
  have hSame : ∀ users : UserTable, users = p.world.db.users →
      (∀ e, (p.threads i).prog.awaits = some (.store (.saveUser e)) → ¬ p.world.Accepts env e) →
      (FlagsHold ((p.threads i).ghost.request.unlocks = true) p.world.db.users users ↔
        CurrentSave env p i) := by
    rintro users rfl hNone
    exact iff_of_true (flagsHold_refl _ _) fun e hAwaits hAccepts =>
      absurd hAccepts (hNone e hAwaits)
  match hProg : (p.threads i).prog with
  | .pure a =>
    rw [Pool.step_idle (by rw [hProg]; rfl)]
    exact hSame _ rfl fun e hAwaits => by rw [hProg] at hAwaits; cases hAwaits
  | .throw e =>
    rw [Pool.step_idle (by rw [hProg]; rfl)]
    exact hSame _ rfl fun e hAwaits => by rw [hProg] at hAwaits; cases hAwaits
  | .op o k =>
    have hAwaits : (p.threads i).prog.awaits = some o := by rw [hProg]; rfl
    rw [Pool.step_op hProg]
    by_cases hSave : ∃ e, o = .store (.saveUser e)
    · obtain ⟨e, rfl⟩ := hSave
      by_cases hAccepts : p.world.Accepts env e
      · apply (flagsHold_save (h.obedient.allows hProg) hAccepts).trans
        constructor
        · intro hUpToDate e' hAwaits' _
          cases hAwaits.symm.trans hAwaits'
          exact hUpToDate
        · exact fun hCurrent => hCurrent e hAwaits hAccepts
      · apply hSame _ (shared_refused hAccepts)
        intro e' hAwaits'
        cases hAwaits.symm.trans hAwaits'
        exact hAccepts
    · apply hSame _ (shared_users fun e he => hSave ⟨e, he⟩)
      intro e hAwaits'
      cases hAwaits.symm.trans hAwaits'
      exact absurd ⟨e, rfl⟩ hSave

theorem flagsHold_run {q : ι → Request} {schedule : List ι} {p : Requests ι} (h : Kept env q p)
    (hCurrent : Pool.Along (shared env) protocol (CurrentSave env) p schedule) :
    FlagsHold (∃ i ∈ schedule, (q i).unlocks = true) p.world.db.users
      (p.run (shared env) protocol schedule).world.db.users := by
  induction schedule generalizing p with
  | nil => exact flagsHold_refl _ _
  | cons i schedule ih =>
    have hStep := (flagsHold_step p i h).mpr hCurrent.1
    apply (hStep.trans (ih (kept_step p i h) hCurrent.2)).mono
    rintro (hUnlocks | ⟨j, hj, hUnlocks⟩)
    · exact ⟨i, List.mem_cons_self, hUnlocks⟩
    · exact ⟨j, List.mem_cons_of_mem i hj, hUnlocks⟩

end Flags

open Flags in
/-- In every stretch of a run a set `isVerified` stays set, and a set `isBlocked` unless an
`unlockAccountToken` is in it, exactly if no save of the run writes a flag back that is out of
date. -/
theorem flags_kept {ι : Type} [DecidableEq ι] (env : Env) (w : World) (q : ι → Request)
    (schedule : List ι) :
    (∀ earlier stretch later, schedule = earlier ++ stretch ++ later →
      FlagsHold (∃ i ∈ stretch, (q i).unlocks = true)
        ((received env w q).run (shared env) protocol earlier).world.db.users
        ((received env w q).run (shared env) protocol (earlier ++ stretch)).world.db.users) ↔
    Pool.Along (shared env) protocol (CurrentSave env) (received env w q) schedule := by
  have hKept : ∀ earlier, Kept env q ((received env w q).run (shared env) protocol earlier) :=
    fun earlier => Pool.run_invariant kept_step (kept_received w q) earlier
  constructor
  · intro hHold
    apply Pool.along_iff.mpr
    rintro earlier i later rfl
    have hStep := hHold earlier [i] later (by simp)
    rw [Pool.run_append] at hStep
    refine (flagsHold_step _ i (hKept earlier)).mp (hStep.mono ?_)
    rintro ⟨j, hj, hUnlocks⟩
    rw [List.mem_singleton.mp hj] at hUnlocks
    exact hUnlocks
  · rintro hCurrent earlier stretch later rfl
    rw [Pool.run_append]
    have hStretch := (Pool.along_append.mp (Pool.along_append.mp hCurrent).1).2
    exact flagsHold_run (hKept earlier) hStretch

/-- A renewal and a wrong guess at the password of an account one guess short of its block. -/
def Sample.renewalAndGuess : Fin 2 → Request
  | 0 => .refreshToken rightLogin
  | 1 => .loginUser wrongLogin

def Sample.lastGuess : World :=
  world (oneUser { row with refreshToken := some "jwt", attemptsFailed := some 2 })

/-- The guess blocks the account, and the renewal, which has read it before, unblocks it. -/
theorem refreshToken_unblocks :
    ¬ ∀ earlier stretch later, [0, 0, 0, 1, 1, 1, 0] = earlier ++ stretch ++ later →
      FlagsHold (∃ i ∈ stretch, (Sample.renewalAndGuess i).unlocks = true)
        ((Flags.received (Sample.env []) Sample.lastGuess Sample.renewalAndGuess).run
          (shared (Sample.env [])) protocol earlier).world.db.users
        ((Flags.received (Sample.env []) Sample.lastGuess Sample.renewalAndGuess).run
          (shared (Sample.env [])) protocol (earlier ++ stretch)).world.db.users := by
  intro h
  have hStretch := h [0, 0, 0, 1, 1, 1] [0] [] rfl
  revert hStretch
  decide

end Manejaplus
