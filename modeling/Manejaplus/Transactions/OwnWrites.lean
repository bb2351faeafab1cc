import Mathlib.Data.Fintype.Basic
import Manejaplus.Transactions.CallLog

/-! # Whose transaction a write is in

As long as every write goes through the manager of its own call, a decorated
call's writes are committed or rolled back with it, and all others are there at
once.
-/
namespace Manejaplus
open Effect Prog CallLog
set_option autoImplicit false

namespace CallPhase

def own : CallPhase → Option (Tx × TxStatus)
  | .began tx => some (tx, .running)
  | .inside tx => some (tx, .running)
  | .leaving tx => some (tx, .running)
  | .committed tx => some (tx, .committed)
  | .rolledBack tx => some (tx, .rolledBack)
  | _ => none

def live : CallPhase → Option Tx
  | .began tx => some tx
  | .inside tx => some tx
  | .leaving tx => some tx
  | _ => none

/-- The manager is the call's own: that of the transaction it has opened, or the default one
outside of decorated calls. A call that has joined another's transaction has none. -/
def ownManager : CallPhase → Option Tx → Bool
  | .outside, manager => manager == none
  | .inside tx, manager => manager == some tx
  | _, _ => false

theorem live_own {phase : CallPhase} {tx : Tx} (h : phase.own = some (tx, .running)) :
    phase.live = some tx := by
  cases phase <;> simp_all [own, live]

theorem own_live {phase : CallPhase} {tx : Tx} (h : phase.live = some tx) :
    phase.own = some (tx, .running) := by
  cases phase <;> simp_all [own, live]

end CallPhase

def outcome (ok : Bool) : TxStatus := if ok then .committed else .rolledBack

/-- What a call has noted is what the journal says. -/
structure Recorded (j : Journal Write) (γ : CallLog) : Prop where
  plain : ∀ n ∈ γ.plain, j.Under none n
  idle : γ.phase.own = none → γ.writes = []
  current : ∀ tx s, γ.phase.own = some (tx, s) →
    j.Stands tx s ∧ ∀ n ∈ γ.writes, j.Under (some tx) n
  settled : ∀ call ∈ γ.settled, ∀ n ∈ call.writes,
    ∃ tx, j.Under (some tx) n ∧ j.Stands tx (outcome call.ok)

theorem recorded_start (j : Journal Write) : Recorded j {} where
  plain n hn := by cases hn
  idle _ := rfl
  current tx s h := by cases h
  settled call hCall := by cases hCall

theorem outcome_ne_running (ok : Bool) : outcome ok ≠ .running := by cases ok <;> decide

/-- What others do to the journal leaves a call's notes true, unless they end its transaction. -/
theorem Recorded.extends {j j' : Journal Write} {γ : CallLog} {moved : Option Tx}
    (h : Recorded j γ) (hExtends : Journal.Extends moved j j')
    (hOther : ∀ tx, moved = some tx → γ.phase.live ≠ some tx) : Recorded j' γ where
  plain n hn := hExtends.entries _ _ (h.plain n hn)
  idle := h.idle
  current tx s hOwn := by
    obtain ⟨hStands, hWrites⟩ := h.current tx s hOwn
    refine ⟨?_, fun n hn => hExtends.entries _ _ (hWrites n hn)⟩
    by_cases hs : s = .running
    · subst hs
      exact hExtends.status tx _ (fun hMoved => hOther tx hMoved (CallPhase.live_own hOwn)) hStands
    · exact hExtends.ended hs hStands
  settled call hCall n hn := by
    obtain ⟨tx, hUnder, hStands⟩ := h.settled call hCall n hn
    exact ⟨tx, hExtends.entries _ _ hUnder, hExtends.ended (outcome_ne_running _) hStands⟩

/-- One step of a call: at most its own transaction ends, and at most a new one becomes its own. -/
structure Moves (γ γ' : CallLog) (w w' : TxWorld) (moved : Option Tx) : Prop where
  journal : Journal.Extends moved w.journal w'.journal
  own : ∀ tx, moved = some tx → γ.phase.live = some tx
  recorded : Recorded w'.journal γ'
  live : ∀ tx, γ'.phase.live = some tx → γ.phase.live = some tx ∨ tx = w.journal.status.length

section Step

variable {env : Env} {w : TxWorld} {γ : CallLog}

theorem moves_still {w' : TxWorld} {phase : CallPhase} (h : Recorded w.journal γ)
    (hJournal : w'.journal = w.journal) (hOwn : phase.own = γ.phase.own) :
    Moves γ { γ with phase } w w' none where
  journal := hJournal ▸ Journal.extends_refl _
  own tx h := by cases h
  recorded := by
    rw [hJournal]
    exact ⟨h.plain, fun hNone => h.idle (hOwn ▸ hNone),
      fun tx s hSome => h.current tx s (hOwn ▸ hSome), h.settled⟩
  live tx hLive := by
    have hSame := CallPhase.own_live hLive
    rw [show CallLog.phase { γ with phase } = phase from rfl, hOwn] at hSame
    exact .inl (CallPhase.live_own hSame)

omit env w in
theorem wrote_phase (γ : CallLog) (n : Nat) : (γ.wrote n).phase = γ.phase := by
  unfold CallLog.wrote
  split <;> rfl

theorem recorded_wrote {j : Journal Write} {manager : Option Tx} {n : Nat} (h : Recorded j γ)
    (hManager : γ.phase.ownManager manager = true) (hNew : j.Under manager n) :
    Recorded j (γ.wrote n) := by
  obtain ⟨phase, plain, writes, settled⟩ := γ
  obtain ⟨hPlain, hIdle, hCurrent, hSettled⟩ := h
  cases phase with
  | outside =>
    obtain rfl : manager = none := by simpa [CallPhase.ownManager] using hManager
    refine ⟨?_, hIdle, hCurrent, hSettled⟩
    intro m hm
    obtain rfl | hm := List.mem_cons.mp hm
    · exact hNew
    · exact hPlain m hm
  | inside tx =>
    obtain rfl : manager = some tx := by simpa [CallPhase.ownManager] using hManager
    refine ⟨hPlain, fun hNone => (by cases hNone), ?_, hSettled⟩
    rintro tx' s ⟨rfl⟩
    obtain ⟨hStands, hWritten⟩ := hCurrent tx .running rfl
    refine ⟨hStands, fun m hm => ?_⟩
    obtain rfl | hm := List.mem_cons.mp hm
    · exact hNew
    · exact hWritten m hm
  | _ => cases hManager

theorem moves_store {o : StoreOp} (h : Recorded w.journal γ)
    (hOwn : o.writes = true → γ.phase.ownManager (w.getManager o) = true) :
    Moves γ (CallLog.next γ w (.store o) (transactional env (.store o) w).1) w
      (transactional env (.store o) w).2 none := by
  have hJournal := @store_journal env w o
  by_cases hWrites : (o.writes && (transactional env (.store o) w).1.isOk) = true
  · rw [if_pos hWrites] at hJournal
    have hNext : CallLog.next γ w (.store o) (transactional env (.store o) w).1 =
        γ.wrote w.journal.entries.length := if_pos hWrites
    have hManager := hOwn (Bool.and_eq_true_iff.mp hWrites).1
    have hNew := Journal.under_new w.journal (w.getManager o) ⟨o, w.choice⟩
    have hExtends := Journal.extends_write w.journal (w.getManager o) ⟨o, w.choice⟩
    have hKept := h.extends hExtends fun _ hNone => (by cases hNone)
    rw [← hJournal] at hNew hExtends hKept
    rw [hNext]
    refine ⟨hExtends, fun _ hNone => (by cases hNone), recorded_wrote hKept hManager hNew, ?_⟩
    rw [wrote_phase]
    exact fun tx hLive => .inl hLive
  · rw [if_neg hWrites] at hJournal
    have hNext : CallLog.next γ w (.store o) (transactional env (.store o) w).1 = γ :=
      if_neg hWrites
    rw [hNext]
    exact moves_still h hJournal rfl

theorem moves_begin {w' : TxWorld} (h : Recorded w.journal γ) (hNone : γ.phase.own = none)
    (hJournal : w'.journal = w.journal.begin) :
    Moves γ { γ with phase := .began w.journal.status.length } w w' none := by
  have hExtends := Journal.extends_begin w.journal
  have hKept := h.extends hExtends fun _ hNone => (by cases hNone)
  rw [← hJournal] at hExtends hKept
  refine ⟨hExtends, fun _ hNone => (by cases hNone), ?_, ?_⟩
  · refine ⟨hKept.plain, fun hNone => (by cases hNone), ?_, hKept.settled⟩
    rintro tx s ⟨rfl⟩
    refine ⟨hJournal ▸ Journal.stands_begin w.journal, fun n hn => ?_⟩
    rw [show CallLog.writes { γ with phase := _ } = γ.writes from rfl, h.idle hNone] at hn
    cases hn
  · rintro tx ⟨rfl⟩
    exact .inr rfl

theorem moves_finish {w' : TxWorld} {phase : CallPhase} {tx : Tx} {s : TxStatus}
    (h : Recorded w.journal γ) (hLeaving : γ.phase = .leaving tx)
    (hJournal : w'.journal = w.journal.finish tx s) (hOwn : phase.own = some (tx, s))
    (hLive : phase.live = none) : Moves γ { γ with phase } w w' (some tx) := by
  obtain ⟨hRunning, hWrites⟩ := h.current tx .running (by rw [hLeaving]; rfl)
  have hExtends : Journal.Extends (some tx) w.journal (w.journal.finish tx s) :=
    Journal.extends_finish hRunning
  have hStands : (w.journal.finish tx s).Stands tx s := Journal.stands_finish hRunning
  rw [← hJournal] at hExtends hStands
  refine ⟨hExtends, ?_, ?_, ?_⟩
  · rintro _ ⟨rfl⟩
    rw [hLeaving]
    rfl
  · refine ⟨fun n hn => hExtends.entries _ _ (h.plain n hn), ?_, ?_, ?_⟩
    · intro hNone
      rw [show CallLog.phase { γ with phase } = phase from rfl, hOwn] at hNone
      cases hNone
    · intro tx' s' hSome
      rw [show CallLog.phase { γ with phase } = phase from rfl, hOwn] at hSome
      cases hSome
      exact ⟨hStands, fun n hn => hExtends.entries _ _ (hWrites n hn)⟩
    · intro call hCall n hn
      obtain ⟨tx', hUnder, hEnded⟩ := h.settled call hCall n hn
      exact ⟨tx', hExtends.entries _ _ hUnder, hExtends.ended (outcome_ne_running _) hEnded⟩
  · intro tx' hSome
    rw [show CallLog.phase { γ with phase } = phase from rfl, hLive] at hSome
    cases hSome

theorem moves_settle {ok : Bool} (h : Recorded w.journal γ)
    (hEnd : γ.phase.own = none ∨ ∃ tx, γ.phase.own = some (tx, outcome ok)) :
    Moves γ (γ.settle ok) w w none := by
  refine ⟨Journal.extends_refl _, fun _ hNone => (by cases hNone), ?_, fun _ hNone => (by cases hNone)⟩
  refine ⟨h.plain, fun _ => rfl, fun tx s hNone => (by cases hNone), ?_⟩
  intro call hCall n hn
  obtain rfl | hCall := List.mem_cons.mp hCall
  · obtain hNone | ⟨tx, hSome⟩ := hEnd
    · rw [show SettledCall.writes ⟨ok, γ.writes⟩ = γ.writes from rfl, h.idle hNone] at hn
      cases hn
    · obtain ⟨hStands, hWrites⟩ := h.current tx _ hSome
      exact ⟨tx, hWrites n hn, hStands⟩
  · exact h.settled call hCall n hn

/-- The steps of the decorator, in the order the protocol allows. -/
theorem moves_transaction {o : TransactionOp} (h : Recorded w.journal γ)
    (ho : CallLog.Allows γ.phase o) :
    ∃ moved, Moves γ (CallLog.next γ w (.transaction o) (transactional env (.transaction o) w).1) w
      (transactional env (.transaction o) w).2 moved := by
  obtain ⟨phase, plain, writes, settled⟩ := γ
  match phase, o with
  | .outside, .callStarts => exact ⟨none, moves_still h rfl rfl⟩
  | .entered, .managerOf service =>
    refine ⟨none, ?_⟩
    simp only [transactional, TxWorld.execTransaction]
    cases w.serviceManager service with
    | none => exact moves_still h rfl rfl
    | some tx => exact moves_still h rfl rfl
  | .opening, .begin =>
    refine ⟨none, ?_⟩
    simp only [transactional, TxWorld.execTransaction]
    split
    · exact moves_still h rfl rfl
    · exact moves_begin h rfl rfl
  | .began tx, .setManager service manager =>
    cases (show manager = some tx from ho)
    exact ⟨none, moves_still h rfl rfl⟩
  | .inside tx, .setManager service manager =>
    cases (show manager = none from ho)
    exact ⟨none, moves_still h rfl rfl⟩
  | .leaving tx, .commit tx' =>
    cases (show tx' = tx from ho)
    exact ⟨some tx, moves_finish h rfl rfl rfl rfl⟩
  | .leaving tx, .rollback tx' =>
    cases (show tx' = tx from ho)
    exact ⟨some tx, moves_finish h rfl rfl rfl rfl⟩
  | .joined, .callSettles ok => exact ⟨none, moves_settle h (.inl rfl)⟩
  | .opening, .callSettles ok => exact ⟨none, moves_settle h (.inl rfl)⟩
  | .committed tx, .callSettles ok =>
    cases (show ok = true from ho)
    exact ⟨none, moves_settle h (.inr ⟨tx, rfl⟩)⟩
  | .rolledBack tx, .callSettles ok =>
    cases (show ok = false from ho)
    exact ⟨none, moves_settle h (.inr ⟨tx, rfl⟩)⟩

end Step

namespace Transactions

abbrev Calls (ι : Type) := Pool services Exception TxWorld Response CallLog ι

variable {ι : Type} {env : Env}

def called (env : Env) (w : TxWorld) (call : ι → Call) : Calls ι where
  world := w
  threads i := ⟨(call i).prog env.cases, {}⟩

/-- If the next statement of a call writes, its repository holds the manager of this call. -/
def throughOwn (p : Calls ι) (i : ι) : Bool :=
  match (p.threads i).prog.awaits with
  | some (.store o) => !o.writes || (p.threads i).ghost.phase.ownManager (p.world.getManager o)
  | _ => true

/-- What a call that has returned has written is in the database, and nothing that a decorated
call has written that has thrown. -/
def WritesFollow (p : Calls ι) : Prop :=
  ∀ i, (∀ call ∈ (p.threads i).ghost.settled, ∀ n ∈ call.writes,
      p.world.journal.durable n = call.ok) ∧
    ((p.threads i).prog.result.any (·.isOk) = true →
      ∀ n ∈ (p.threads i).ghost.plain, p.world.journal.durable n = true)

/-- Every call is where its notes say, and no two of them run one transaction. -/
structure Sound (env : Env) (p : Calls ι) : Prop where
  obedient : p.Obedient (transactional env) protocol (fun _ => True) fun _ γ _ =>
    γ.phase = .outside
  recorded : ∀ i, Recorded p.world.journal (p.threads i).ghost
  apart : ∀ i j tx, (p.threads i).ghost.phase.live = some tx →
    (p.threads j).ghost.phase.live = some tx → i = j

theorem sound_called (w : TxWorld) (call : ι → Call) : Sound env (called env w call) where
  obedient i := follows_prog (call i) {} rfl
  recorded i := recorded_start _
  apart i j tx h := by cases h

theorem Sound.writesFollow {p : Calls ι} (h : Sound env p) : WritesFollow p := by
  intro i
  constructor
  · intro call hCall n hn
    obtain ⟨tx, hUnder, hStands⟩ := (h.recorded i).settled call hCall n hn
    rw [Journal.durable_some hUnder hStands]
    cases call.ok <;> rfl
  · exact fun _ n hn => Journal.durable_none ((h.recorded i).plain n hn)

variable [DecidableEq ι]

theorem sound_step (p : Calls ι) (i : ι) (h : Sound env p) (hOwn : throughOwn p i = true) :
    Sound env (p.step (transactional env) protocol i) := by
  obtain hIdle | ⟨o, k, hProg, hStep⟩ := Pool.step_cases (transactional env) protocol p i
  · rwa [hIdle]
  have hAllows := h.obedient.allows hProg
  have hObedient := Pool.obedient_step h.obedient trivial i
  have hMoves : ∃ moved, Moves (p.threads i).ghost
      (CallLog.next (p.threads i).ghost p.world o (transactional env o p.world).1) p.world
      (transactional env o p.world).2 moved := by
    cases o with
    | store o =>
      refine ⟨none, moves_store (h.recorded i) fun hWrites => ?_⟩
      simpa [throughOwn, hProg, awaits, hWrites] using hOwn
    | outside o => exact ⟨none, moves_still (h.recorded i) rfl rfl⟩
    | transaction o => exact moves_transaction (h.recorded i) hAllows
  obtain ⟨moved, hJournal, hMoved, hRecorded, hLive⟩ := hMoves
  have hOther : ∀ j, j ≠ i → ∀ tx, moved = some tx → (p.threads j).ghost.phase.live ≠ some tx :=
    fun j hj tx hTx hLive => hj (h.apart j i tx hLive (hMoved tx hTx))
  have hFresh : ∀ j, (p.threads j).ghost.phase.live ≠ some p.world.journal.status.length := by
    intro j hSome
    have hStands := ((h.recorded j).current _ _ (CallPhase.own_live hSome)).1
    exact Journal.fresh_begin hStands rfl
  rw [hStep] at hObedient ⊢
  refine ⟨hObedient, ?_, ?_⟩
  · intro j
    by_cases hj : j = i
    · subst hj
      simp only [Function.update_self]
      exact hRecorded
    · simp only [Function.update_of_ne hj]
      exact (h.recorded j).extends hJournal (hOther j hj)
  · intro j j' tx hj hj'
    by_cases hji : j = i <;> by_cases hji' : j' = i
    · exact hji.trans hji'.symm
    · subst hji
      simp only [Function.update_self] at hj
      simp only [Function.update_of_ne hji'] at hj'
      obtain hOld | rfl := hLive tx hj
      · exact h.apart j j' tx hOld hj'
      · exact absurd hj' (hFresh j')
    · subst hji'
      simp only [Function.update_self] at hj'
      simp only [Function.update_of_ne hji] at hj
      obtain hOld | rfl := hLive tx hj'
      · exact h.apart j j' tx hj hOld
      · exact absurd hj (hFresh j)
    · simp only [Function.update_of_ne hji] at hj
      simp only [Function.update_of_ne hji'] at hj'
      exact h.apart j j' tx hj hj'

end Transactions

open Transactions in
/-- As long as every write goes through its own call's manager, the writes of every call share
that call's fate. -/
theorem writes_follow {ι : Type} [DecidableEq ι] (env : Env) (w : TxWorld) (call : ι → Call)
    (schedule : List ι)
    (hOwn : Pool.Along (transactional env) protocol (fun p i => throughOwn p i = true)
      (called env w call) schedule) :
    WritesFollow ((called env w call).run (transactional env) protocol schedule) :=
  (Pool.run_induction sound_step (sound_called w call) hOwn).writesFollow

namespace Sample

/-- Everything goes well but the operation number `fault`. -/
def txWorld (users : UserTable) (fault : Nat) : TxWorld where
  base := (world users).db
  journal := ⟨[], []⟩
  serviceManager _ := none
  repositoryManager _ := none
  outside := ⟨fun n => { now := 1000 * n, uuid := "u" ++ toString n, fault := n == fault }, [], []⟩

/-- A registration, and a login of somebody else. -/
def registrationAndLogin : Fin 2 → Call
  | 0 => .request (.createUser ⟨"Bob", "bob@x.io", "pw", "2"⟩)
  | 1 => .request (.loginUser rightLogin)

def bothCalled (fault : Nat) : Transactions.Calls (Fin 2) :=
  Transactions.called (env []) (txWorld (oneUser row) fault) registrationAndLogin

/-- The login saves while the registration has set the repository's manager. -/
def crossed : List (Fin 2) :=
  [1, 1, 1, 1, 1, 1, 1, 0, 0, 0, 0, 0, 1, 1, 1, 0, 0, 0, 0, 0, 0, 0]

/-- The registration has come to its end before the login starts. -/
def ordered : List (Fin 2) :=
  [0, 0, 0, 0, 0, 0, 0, 0, 0, 0, 0, 0, 1, 1, 1, 1, 1, 1, 1, 1, 1, 1]

end Sample

theorem writes_follow_sample : Transactions.WritesFollow
    ((Sample.bothCalled 5).run (transactional (Sample.env [])) CallLog.protocol Sample.ordered) :=
  writes_follow _ _ _ _ (by decide)

/-- The registration's mail fails, and its rollback takes with it what the login has saved, whose
tokens have been handed out. -/
theorem createUser_rolls_back_login :
    ((Sample.bothCalled 15).run (transactional (Sample.env [])) CallLog.protocol
        Sample.crossed).Finished ∧
      ¬ Transactions.WritesFollow ((Sample.bothCalled 15).run (transactional (Sample.env []))
        CallLog.protocol Sample.crossed) := by
  refine ⟨by decide, fun h => ?_⟩
  have hDurable := (h 1).2 (by decide) 0 (by decide)
  revert hDurable
  decide

end Manejaplus
