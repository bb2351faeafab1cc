import Manejaplus.Effect.Counter
import Manejaplus.Interleaved.FailedChecks

/-! # How many of the failed checks are counted

A pool of failed checks on one account moves as a counter that is read and
written later: `attemptsFailed` is the value, and a row that a check holds is
the number it has read.
-/
namespace Manejaplus
open Effect Prog
set_option autoImplicit false

def UserRow.attempts (row : UserRow) : Nat := row.attemptsFailed.getD 0

def UserRow.BlockedAtLimit (row : UserRow) : Prop :=
  USER_CONSTANTS.NUMBER_ATTEMPS_TO_BLOCk_USER ≤ row.attempts → row.isBlocked = some true

theorem blockedAtLimit_recorded (seen current : UserRow) (updatedAt : Time) :
    { seen.recordFailure.under current with updatedAt }.BlockedAtLimit := fun h => if_pos h

def CheckPhase.counted : CheckPhase → Counter.Phase
  | .reading => .idle
  | .holds row => .holds row.attempts
  | .written => .written

namespace FailedChecks

abbrev Checks (ι : Type) := Pool services Exception World Response CheckPhase ι

variable {ι : Type} {env : Env} {base : UserRow}

def begun (w : World) (guess : ι → Guess) : Checks ι where
  world := w
  threads i := ⟨(guess i).prog, .reading⟩

def counter (id : String) (p : Checks ι) : Counter ι where
  value := ((p.world.db.users.byId id).map UserRow.attempts).getD 0
  phase i := (p.threads i).ghost.counted

def act (p : Checks ι) (i : ι) : Counter.Act :=
  match (p.threads i).ghost, (p.threads i).prog.awaits with
  | .reading, some (.store (.findUser _)) => .read
  | .holds _, some (.store (.saveUser _)) => .write
  | _, _ => .rest

/-- A check that is about to write has read the count that is still stored. -/
def FreshWrite (id : String) (p : Checks ι) (i : ι) : Prop := (counter id p).Fresh i (act p i)

instance (id : String) (p : Checks ι) (i : ι) : Decidable (FreshWrite id p i) :=
  inferInstanceAs (Decidable (Counter.Fresh _ _ _))

variable [DecidableEq ι]

theorem phase_update {threads : ι → Thread services Exception Response CheckPhase} {i : ι}
    (t : Thread services Exception Response CheckPhase) :
    (fun j => (Function.update threads i t j).ghost.counted) =
      Function.update (fun j => (threads j).ghost.counted) i t.ghost.counted := by
  funext j
  by_cases hj : j = i
  · subst hj
    simp
  · simp [Function.update_of_ne hj]

/-- What a step of the pool is on the counter, and what it leaves of the account. -/
structure Counted (base : UserRow) (p : Checks ι) (i : ι) (p' : Checks ι) : Prop where
  enabled : (counter base.id p).Enabled i (act p i)
  counter : counter base.id p' = (counter base.id p).act i (act p i)
  quiet : Quiet base p'.world
  limit : act p i = .write →
    ∀ row, p'.world.db.users.byId base.id = some row → row.BlockedAtLimit
  stays : act p i ≠ .write → p'.world.db.users = p.world.db.users

variable {p : Checks ι} {i : ι}

theorem Quiet.of_users {w w' : World} (h : Quiet base w) (hCalm : w'.Calm)
    (hUsers : w'.db.users = w.db.users) : Quiet base w' := by
  refine ⟨hCalm, ?_⟩
  rw [hUsers]
  exact h.2

omit [DecidableEq ι] in
theorem act_idle (hIdle : (p.threads i).prog.awaits = none) : act p i = .rest := by
  unfold act
  rw [hIdle]
  split <;> simp_all

theorem counted_idle (hQuiet : Quiet base p.world) (hIdle : (p.threads i).prog.awaits = none) :
    Counted base p i p := by
  have hAct := act_idle hIdle
  constructor
  · rw [hAct]
    trivial
  · rw [hAct]
    rfl
  · exact hQuiet
  · rw [hAct]
    intro h
    cases h
  · exact fun _ => rfl

theorem counted_rest {w' : World} {t : Thread services Exception Response CheckPhase}
    (hQuiet : Quiet base p.world) (hAct : act p i = .rest) (hCalm : w'.Calm)
    (hUsers : w'.db.users = p.world.db.users) (hGhost : t.ghost = (p.threads i).ghost) :
    Counted base p i ⟨w', Function.update p.threads i t⟩ := by
  constructor
  · rw [hAct]
    trivial
  · rw [hAct, counter, phase_update, hGhost, hUsers]
    exact congrArg _ (Function.update_eq_self i _)
  · exact hQuiet.of_users hCalm hUsers
  · rw [hAct]
    intro h
    cases h
  · exact fun _ => hUsers

theorem counted_read {w' : World} {t : Thread services Exception Response CheckPhase}
    {row : UserRow} (hQuiet : Quiet base p.world) (hAct : act p i = .read)
    (hReading : (p.threads i).ghost = .reading) (hCalm : w'.Calm)
    (hUsers : w'.db.users = p.world.db.users)
    (hRow : p.world.db.users.byId base.id = some row) (hGhost : t.ghost = .holds row) :
    Counted base p i ⟨w', Function.update p.threads i t⟩ := by
  constructor
  · rw [hAct]
    exact congrArg CheckPhase.counted hReading
  · rw [hAct, counter, phase_update, hGhost, hUsers, Counter.act, counter, hRow]
    rfl
  · exact hQuiet.of_users hCalm hUsers
  · rw [hAct]
    intro h
    cases h
  · exact fun _ => hUsers

theorem counted_write {w' : World} {t : Thread services Exception Response CheckPhase}
    {seen current : UserRow} {users : UserTable} (hAct : act p i = .write)
    (hHolds : (p.threads i).ghost = .holds seen) (hCalm : w'.Calm) (hUsers : w'.db.users = users)
    (hCurrent : p.world.db.users.byId base.id = some current) (hSame : SameAccount base current)
    (hSeen : SameAccount base seen)
    (hUpdated : p.world.db.users.Updated users current (seen.recordFailure.under current))
    (hGhost : t.ghost = .written) : Counted base p i ⟨w', Function.update p.threads i t⟩ := by
  rw [← hSame.1] at hCurrent
  obtain ⟨⟨updatedAt, hStored⟩, _⟩ := hUpdated.byId hCurrent rfl
  rw [hSame.1] at hStored
  have hPhase : (counter base.id p).phase i = .holds seen.attempts :=
    congrArg CheckPhase.counted hHolds
  constructor
  · rw [hAct]
    exact ⟨_, hPhase⟩
  · rw [hAct, Counter.act_write hPhase, counter, phase_update, hGhost, hUsers, hStored]
    rfl
  · rw [Quiet, hUsers]
    exact ⟨hCalm, _, hStored, hSame.1, hSeen.2⟩
  · intro _ row hRow
    rw [hUsers, hStored] at hRow
    cases hRow
    exact blockedAtLimit_recorded seen current updatedAt
  · exact fun h => absurd hAct h

theorem counted_step {Q : ι → CheckPhase → Except Exception Response → Prop}
    (hUuid : env.uuid base.id = some base.id)
    (hp : p.Obedient (shared env) (protocol env base) (Quiet base) Q)
    (hQuiet : Quiet base p.world) (i : ι) :
    Counted base p i (p.step (shared env) (protocol env base) i) := by
  match hProg : (p.threads i).prog with
  | .pure a =>
    rw [Pool.step_idle (by rw [hProg]; rfl)]
    exact counted_idle hQuiet (by rw [hProg]; rfl)
  | .throw e =>
    rw [Pool.step_idle (by rw [hProg]; rfl)]
    exact counted_idle hQuiet (by rw [hProg]; rfl)
  | .op o k =>
    have hAllows := hp.allows hProg
    have hCalm : (shared env o p.world).2.Calm := calm_shared o hQuiet.1
    rw [Pool.step_op hProg]
    obtain ⟨hReading, q, rfl, hq⟩ | ⟨row, passwordTry, original, hHolds, rfl⟩ |
      ⟨seen, e, hHolds, rfl, hSeen, he⟩ := allows_cases hAllows
    · obtain ⟨row, hRow, hSame⟩ := hQuiet.2
      have hAct : act p i = .read := by simp [act, hReading, hProg, awaits]
      apply counted_read hQuiet hAct hReading hCalm (congrArg _ (shared_findUser_db q)) hRow
      simp only [hReading, protocol, findOne_where hUuid hRow hSame hq]
    · have hAct : act p i = .rest := by simp [act, hHolds, hProg, awaits]
      apply counted_rest hQuiet hAct hCalm rfl
      simp only [hHolds, protocol]
    · obtain ⟨current, hCurrent, hSame⟩ := hQuiet.2
      have hAct : act p i = .write := by simp [act, hHolds, hProg, awaits]
      obtain ⟨e', users, hSaved, hUpdated⟩ := save_recorded env hCurrent hSame hSeen he
      refine counted_write hAct hHolds hCalm (shared_saveUser_users hQuiet.fault hSaved) hCurrent
        hSame hSeen hUpdated ?_
      simp only [hHolds, protocol]

variable [Fintype ι]

/-- What holds all along a run of failed checks that has started at the row `base` of `users`. -/
structure Ledger (env : Env) (base : UserRow) (users : UserTable) (p : Checks ι) : Prop where
  obedient : p.Obedient (shared env) (protocol env base) (Quiet base) fun _ phase _ =>
    phase = .written
  quiet : Quiet base p.world
  bounded : (counter base.id p).Bounded base.attempts
  limit : 0 < (counter base.id p).writes →
    ∀ row, p.world.db.users.byId base.id = some row → row.BlockedAtLimit
  untouched : (counter base.id p).writes = 0 → p.world.db.users = users

theorem ledger_step (users : UserTable) (hUuid : env.uuid base.id = some base.id) (p : Checks ι)
    (i : ι) (h : Ledger env base users p) :
    Ledger env base users (p.step (shared env) (protocol env base) i) := by
  have hCounted := counted_step hUuid h.obedient h.quiet i
  have hWrites := Counter.writes_act hCounted.enabled
  constructor
  · exact Pool.obedient_step h.obedient h.quiet i
  · exact hCounted.quiet
  · rw [hCounted.counter]
    exact Counter.bounded_act h.bounded hCounted.enabled
  · rw [hCounted.counter, hWrites]
    by_cases hAct : act p i = .write
    · exact fun _ => hCounted.limit hAct
    · rw [if_neg hAct, hCounted.stays hAct]
      exact h.limit
  · rw [hCounted.counter, hWrites]
    intro hNone
    by_cases hAct : act p i = .write
    · rw [if_pos hAct] at hNone
      cases hNone
    · rw [if_neg hAct] at hNone
      exact (hCounted.stays hAct).trans (h.untouched hNone)

omit [DecidableEq ι] in
theorem counter_begun {w : World} (guess : ι → Guess)
    (hStored : w.db.users.byId base.id = some base) :
    (counter base.id (begun w guess)).value = base.attempts ∧
      (counter base.id (begun w guess)).writes = 0 :=
  ⟨by simp [counter, begun, hStored], Counter.writes_of_none fun i h => (nomatch h)⟩

omit [DecidableEq ι] in
theorem ledger_begun {w : World} {guess : ι → Guess} (hCalm : w.Calm)
    (hStored : w.db.users.byId base.id = some base) (hUuid : env.uuid base.id = some base.id)
    (hFails : ∀ i, (guess i).FailsOn env base) : Ledger env base w.db.users (begun w guess) := by
  obtain ⟨hValue, hWrites⟩ := counter_begun guess hStored
  constructor
  · exact fun i => obeys_prog hUuid (hFails i)
  · exact ⟨hCalm, base, hStored, rfl, rfl, rfl⟩
  · rw [← hValue]
    exact Counter.bounded_start fun i => rfl
  · rw [hWrites]
    exact fun h => absurd h (Nat.lt_irrefl 0)
  · exact fun _ => rfl

omit [DecidableEq ι] in
theorem Ledger.written {users : UserTable} (h : Ledger env base users p) (hDone : p.Finished) :
    (counter base.id p).writes = Fintype.card ι := by
  apply Counter.writes_of_all
  intro i
  obtain ⟨_, _, hGhost⟩ := h.obedient.ended (hDone i)
  exact congrArg CheckPhase.counted hGhost

end FailedChecks

open FailedChecks in
/-- When all the failed checks have been recorded, the account counts every one of them exactly
if each was written over the count it had been read from. -/
theorem failed_checks_counted {ι : Type} [DecidableEq ι] [Fintype ι] {env : Env} {base : UserRow}
    {w : World} {guess : ι → Guess} (hCalm : w.Calm)
    (hStored : w.db.users.byId base.id = some base) (hUuid : env.uuid base.id = some base.id)
    (hFails : ∀ i, (guess i).FailsOn env base) (schedule : List ι)
    (hDone : ((begun w guess).run (shared env) (protocol env base) schedule).Finished) :
    (∃ row, ((begun w guess).run (shared env) (protocol env base) schedule).world.db.users.byId
        base.id = some row ∧
      row.attempts = base.attempts + Fintype.card ι ∧ row.BlockedAtLimit) ↔
    Pool.Along (shared env) (protocol env base) (FreshWrite base.id) (begun w guess) schedule ∧
      (Fintype.card ι = 0 → base.BlockedAtLimit) := by
  have hStart := ledger_begun hCalm hStored hUuid hFails
  have hEnd := Pool.run_invariant (ledger_step w.db.users hUuid) hStart schedule
  have hExact := Pool.run_exact (K := fun p => (counter base.id p).Exact base.attempts)
    (C := FreshWrite base.id) (ledger_step w.db.users hUuid) (fun p i h => by
      have hCounted := counted_step hUuid h.obedient h.quiet i
      rw [hCounted.counter]
      exact Counter.exact_act h.bounded hCounted.enabled) hStart schedule
  have hBegun : (counter base.id (begun w guess)).Exact base.attempts := by
    rw [Counter.Exact, (counter_begun guess hStored).1, (counter_begun guess hStored).2]
    rfl
  have hWritten := hEnd.written hDone
  generalize (begun w guess).run (shared env) (protocol env base) schedule = p at *
  obtain ⟨row, hRow, _⟩ := hEnd.quiet.2
  have hCount : (counter base.id p).Exact base.attempts ↔
      row.attempts = base.attempts + Fintype.card ι := by
    rw [Counter.Exact, hWritten]
    simp [counter, hRow]
  have hNoChecks : Fintype.card ι = 0 → row = base := by
    intro hNone
    rw [hEnd.untouched (hWritten.trans hNone), hStored] at hRow
    exact (Option.some.inj hRow).symm
  constructor
  · rintro ⟨row', hRow', hAttempts, hBlocked⟩
    cases hRow.symm.trans hRow'
    exact ⟨(hExact.mp (hCount.mpr hAttempts)).2, fun hNone => hNoChecks hNone ▸ hBlocked⟩
  · rintro ⟨hFresh, hBase⟩
    refine ⟨row, hRow, hCount.mp (hExact.mpr ⟨hBegun, hFresh⟩), ?_⟩
    obtain hNone | hSome := Nat.eq_zero_or_pos (Fintype.card ι)
    · exact hNoChecks hNone ▸ hBase hNone
    · exact hEnd.limit (hWritten ▸ hSome) row hRow

namespace Sample

/-- A guess through each of the three calls. -/
def guesses : Fin 3 → Guess
  | 0 => .loginUser wrongLogin
  | 1 => .unlockAccount wrongLogin
  | 2 => .incrementAttempFailed "u"

def guessed (schedule : List (Fin 3)) : FailedChecks.Checks (Fin 3) :=
  (FailedChecks.begun (world (oneUser row)) guesses).run (shared (env []))
    (FailedChecks.protocol (env []) row) schedule

theorem guesses_fail : ∀ i, (guesses i).FailsOn (env []) row
  | 0 => ⟨rfl, by decide⟩
  | 1 => ⟨rfl, by decide⟩
  | 2 => rfl

end Sample

/-- One after the other, three guesses count as three. -/
theorem failed_checks_counted_sample :
    ∃ row, (Sample.guessed [0, 0, 0, 1, 1, 1, 2, 2]).world.db.users.byId Sample.row.id = some row ∧
      row.attempts = Sample.row.attempts + Fintype.card (Fin 3) ∧ row.BlockedAtLimit :=
  (failed_checks_counted (fun _ => rfl) (by decide) rfl Sample.guesses_fail _ (by decide)).mpr
    ⟨by decide, fun h => (by cases h)⟩

/-- Three guesses at once count as one, and block nothing. -/
theorem failed_checks_lost :
    (Sample.guessed [0, 1, 2, 0, 1, 0, 1, 2]).Finished ∧
      ¬ ∃ row, (Sample.guessed [0, 1, 2, 0, 1, 0, 1, 2]).world.db.users.byId Sample.row.id =
          some row ∧
        row.attempts = Sample.row.attempts + Fintype.card (Fin 3) ∧ row.BlockedAtLimit := by
  refine ⟨by decide, ?_⟩
  rintro ⟨row, hRow, hAttempts, _⟩
  have hOne : ((Sample.guessed [0, 1, 2, 0, 1, 0, 1, 2]).world.db.users.byId Sample.row.id).map
      UserRow.attempts = some 1 := by decide
  rw [hRow, Option.map_some, hAttempts] at hOne
  revert hOne
  decide

end Manejaplus
