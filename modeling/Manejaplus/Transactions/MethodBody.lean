import Manejaplus.Transactions.Decorator

/-! # Bodies of decorated methods

A body writes, calls decorated methods and ends or throws. A nested call joins
the transaction of a call on the same service around it and opens one of its
own otherwise. When that one ends, the repositories of its service are left
without a manager.
-/
namespace Manejaplus
open Effect Prog
set_option autoImplicit false

/-- A decorated method's body: writes and calls in order, to its end or to an exception. -/
inductive MethodBody (σ ρ : Type) where
  | returns
  | throws (e : Exception)
  | writes (repository : ρ) (rest : MethodBody σ ρ)
  | calls (service : σ) (inner : MethodBody σ ρ) (caught : Bool) (rest : MethodBody σ ρ)

namespace MethodBody

variable {σ ρ : Type}

def prog : MethodBody σ ρ → Method σ ρ Unit
  | .returns => .pure ()
  | .throws e => .throw e
  | .writes repository rest => do
    Method.write repository
    rest.prog
  | .calls service inner caught rest => do
    let call := Method.steps.transactional service inner.prog
    if caught then call.catching fun _ => .pure () else call
    rest.prog

/-- The body comes to its end. -/
def completes : MethodBody σ ρ → Bool
  | .returns => true
  | .throws _ => false
  | .writes _ rest => rest.completes
  | .calls _ inner caught rest => (inner.completes || caught) && rest.completes

end MethodBody

namespace ManagerWorld

section Frames

variable {σ ρ : Type}

/-- No operation to come fails. -/
def Calm (w : ManagerWorld σ ρ) : Prop := w.fails = fun _ => false

theorem Calm.tick {w : ManagerWorld σ ρ} (h : w.Calm) : w.tick = w := by
  obtain ⟨journal, managers, fails⟩ := w
  obtain rfl : fails = fun _ => false := h
  rfl

theorem Calm.succeeds {w : ManagerWorld σ ρ} (h : w.Calm) (n : Nat) : w.fails n = false :=
  congrFun h n

def wrote (w : ManagerWorld σ ρ) (r : ρ) : ManagerWorld σ ρ :=
  { w with journal := w.journal.write (w.managers.ofRepository r) r }

def fate (completed : Bool) : TxStatus := if completed then .committed else .rolledBack

theorem fate_ne_running (completed : Bool) : fate completed ≠ .running := by
  cases completed <;> decide

theorem fate_inj {completed completed' : Bool} (h : fate completed = fate completed') :
    completed = completed' := by
  cases completed <;> cases completed' <;> first | rfl | cases h

/-- What a body leaves of the world it finds. -/
structure Framed (w w' : ManagerWorld σ ρ) : Prop where
  calm : w'.Calm
  services : w'.managers.ofService = w.managers.ofService
  repositories : ∀ r tx, w'.managers.ofRepository r = some tx → w.managers.ofRepository r = some tx
  entries : w.journal.entries <+: w'.journal.entries
  status : ∃ ended, w'.journal.status = w.journal.status ++ ended ∧ .running ∉ ended

/-- The services with a manager are those around the body. -/
def Around (w : ManagerWorld σ ρ) (around : List σ) : Prop :=
  ∀ s, (w.managers.ofService s).isSome ↔ s ∈ around

variable {w w' w'' : ManagerWorld σ ρ} {around : List σ} {service : σ}

theorem framed_refl (hCalm : w.Calm) : Framed w w :=
  ⟨hCalm, rfl, fun _ _ h => h, List.prefix_refl _, [], (List.append_nil _).symm, List.not_mem_nil⟩

theorem Framed.trans (h : Framed w w') (h' : Framed w' w'') : Framed w w'' where
  calm := h'.calm
  services := h'.services.trans h.services
  repositories r tx hHeld := h.repositories r tx (h'.repositories r tx hHeld)
  entries := h.entries.trans h'.entries
  status := by
    obtain ⟨ended, hStatus, hEnded⟩ := h.status
    obtain ⟨ended', hStatus', hEnded'⟩ := h'.status
    refine ⟨ended ++ ended', by rw [hStatus', hStatus, List.append_assoc], ?_⟩
    exact fun hMem => (List.mem_append.mp hMem).elim hEnded hEnded'

theorem framed_wrote (hCalm : w.Calm) (r : ρ) : Framed w (w.wrote r) :=
  ⟨hCalm, rfl, fun _ _ h => h, List.prefix_append _ _, [], (List.append_nil _).symm,
    List.not_mem_nil⟩

theorem Framed.keepsAround (h : Framed w w') (hAround : Around w around) : Around w' around := by
  intro s
  rw [h.services]
  exact hAround s

theorem Framed.length_le (h : Framed w w') :
    w.journal.status.length ≤ w'.journal.status.length := by
  obtain ⟨ended, hStatus, _⟩ := h.status
  rw [hStatus, List.length_append]
  exact Nat.le_add_right _ _

theorem Framed.since (h : Framed w w') (h' : Framed w' w'') :
    w.journal.since w''.journal = w.journal.since w'.journal ++ w'.journal.since w''.journal :=
  Journal.since_append h.entries h'.entries

theorem Framed.stands (h : Framed w w') {tx : Nat} (hOld : tx < w.journal.status.length)
    (s : TxStatus) : w'.journal.Stands tx s ↔ w.journal.Stands tx s := by
  obtain ⟨ended, hStatus, _⟩ := h.status
  rw [Journal.Stands, hStatus, List.getElem?_append_left hOld]
  rfl

theorem Framed.ended (h : Framed w w') {tx : Nat} (hFrom : w.journal.status.length ≤ tx)
    (hTo : tx < w'.journal.status.length) :
    ∃ s, s ≠ .running ∧ w'.journal.Stands tx s := by
  obtain ⟨ended, hStatus, hEnded⟩ := h.status
  refine ⟨w'.journal.status[tx], fun hRunning => hEnded ?_, List.getElem?_eq_getElem hTo⟩
  simp only [hStatus, List.getElem_append_right hFrom] at hRunning
  exact hRunning ▸ List.getElem_mem _

theorem Around.none (hAround : Around w around) (hService : service ∉ around) :
    w.managers.ofService service = none :=
  Option.not_isSome_iff_eq_none.mp fun hSome => hService ((hAround service).mp hSome)

theorem Around.joined (hAround : Around w around) (hService : service ∈ around) :
    Around w (service :: around) := by
  intro s
  rw [hAround s, List.mem_cons]
  exact ⟨.inr, fun h => h.elim (fun hSame => hSame ▸ hService) id⟩

end Frames

section Managed

variable {σ ρ : Type} [DecidableEq σ] [DecidableEq ρ]

def opening (fields : σ → List ρ) (service : σ) (w : ManagerWorld σ ρ) : ManagerWorld σ ρ :=
  { w with
    journal := w.journal.begin
    managers := w.managers.set fields service (some w.journal.status.length) }

theorem opening_length (fields : σ → List ρ) (service : σ) (w : ManagerWorld σ ρ) :
    (w.opening fields service).journal.status.length = w.journal.status.length + 1 :=
  List.length_append

theorem lt_opening_length (fields : σ → List ρ) (service : σ) (w : ManagerWorld σ ρ) :
    w.journal.status.length < (w.opening fields service).journal.status.length :=
  opening_length fields service w ▸ Nat.lt_succ_self _

def closing (fields : σ → List ρ) (service : σ) (tx : Tx) (completed : Bool)
    (w : ManagerWorld σ ρ) : ManagerWorld σ ρ :=
  { w with
    journal := w.journal.finish tx (fate completed)
    managers := w.managers.set fields service none }

variable {fields : σ → List ρ} {w w' : ManagerWorld σ ρ} {around : List σ} {service : σ}

theorem Around.opening (h : Around w around) : Around (w.opening fields service) (service :: around) := by
  intro s
  by_cases hs : s = service
  · subst hs
    simp [ManagerWorld.opening]
  · rw [ManagerWorld.opening, Managers.set_ofService_of_ne hs, h s, List.mem_cons]
    exact (or_iff_right hs).symm

theorem Framed.closing (hOpening : Framed (w.opening fields service) w')
    (hNone : w.managers.ofService service = none) (completed : Bool) :
    Framed w (w'.closing fields service w.journal.status.length completed) where
  calm := hOpening.calm
  services := by
    have hOpened : w'.managers.ofService =
        Function.update w.managers.ofService service (some w.journal.status.length) :=
      hOpening.services
    change Function.update w'.managers.ofService service none = _
    rw [hOpened, Function.update_idem, ← hNone, Function.update_eq_self]
  repositories r tx hHeld := by
    simp only [ManagerWorld.closing, Managers.set_ofRepository] at hHeld
    split at hHeld
    · cases hHeld
    · rename_i hField
      have hOpened := hOpening.repositories r tx hHeld
      simpa only [ManagerWorld.opening, Managers.set_ofRepository, if_neg hField] using hOpened
  entries := hOpening.entries
  status := by
    obtain ⟨ended, hStatus, hEnded⟩ := hOpening.status
    refine ⟨fate completed :: ended, ?_, ?_⟩
    · simp only [ManagerWorld.closing, Journal.finish, hStatus, ManagerWorld.opening, Journal.begin]
      rw [List.append_assoc, List.set_append_right _ _ (Nat.le_refl _), Nat.sub_self]
      rfl
    · rw [List.mem_cons, not_or]
      exact ⟨(fate_ne_running completed).symm, hEnded⟩

end Managed

end ManagerWorld

open ManagerWorld

namespace Method

variable {σ ρ α : Type} [DecidableEq σ] [DecidableEq ρ] {fields : σ → List ρ}
  {w w' : ManagerWorld σ ρ} {service : σ} {tx : Tx} {p : Method σ ρ α}

theorem run_step (o : StepOp σ) :
    run (wired fields) (Prog.perform (S := methods σ ρ) (.step o)) w = w.execStep fields o :=
  run_perform _ _ _

theorem run_callStarts : run (wired fields) Method.steps.callStarts w = (.ok (), w) := run_step _

theorem run_managerOf : run (wired fields) (Method.steps.managerOf service) w =
    (.ok (w.managers.ofService service), w) := run_step _

theorem run_begin (hCalm : w.Calm) : run (wired fields) Method.steps.begin w =
    (.ok w.journal.status.length, { w with journal := w.journal.begin }) := by
  apply (run_step .begin).trans
  rw [execStep, if_neg (by rw [hCalm.succeeds]; decide), hCalm.tick]

theorem run_setManager (manager : Option Tx) :
    run (wired fields) (Method.steps.setManager service manager) w =
      (.ok (), { w with managers := w.managers.set fields service manager }) := run_step _

theorem run_commit (hCalm : w.Calm) : run (wired fields) (Method.steps.commit tx) w =
    (.ok (), { w with journal := w.journal.finish tx .committed }) := by
  apply (run_step (.commit tx)).trans
  rw [execStep, if_neg (by rw [hCalm.succeeds]; decide), hCalm.tick]

theorem run_rollback : run (wired fields) (Method.steps.rollback tx) w =
    (.ok (), { w with journal := w.journal.finish tx .rolledBack }) := run_step _

theorem run_callSettles (ok : Bool) :
    run (wired fields) (Method.steps.callSettles ok) w = (.ok (), w) := run_step _

/-- A call within a call on the same service runs the method, and nothing else. -/
theorem run_joins (hManager : w.managers.ofService service = some tx) :
    run (wired fields) (Method.steps.transactional service p) w = run (wired fields) p w := by
  simp only [DecoratorSteps.transactional, bind_eq, run_bind, run_attempt, run_callStarts,
    run_managerOf, run_callSettles, run_ofExcept, hManager]

theorem run_callback (hCalm : (run (wired fields) p
      { w with managers := w.managers.set fields service (some tx) }).2.Calm) :
    run (wired fields) (Method.steps.callback service p tx) w =
      let answer := run (wired fields) p
        { w with managers := w.managers.set fields service (some tx) }
      (answer.1, answer.2.closing fields service tx answer.1.isOk) := by
  simp only [DecoratorSteps.callback, bind_eq, run_bind, run_attempt, run_setManager]
  rcases hAnswer : run (wired fields) p
      { w with managers := w.managers.set fields service (some tx) } with ⟨r, w₂⟩
  rw [hAnswer] at hCalm
  cases r with
  | ok a =>
    simp only [run_bind, pure_eq, run_pure]
    rw [run_commit (w := { w₂ with managers := w₂.managers.set fields service none }) hCalm]
    rfl
  | error e =>
    simp only [run_bind, run_rollback]
    rfl

/-- Any other call runs it in a transaction of its own. -/
theorem run_opens (hManager : w.managers.ofService service = none) (hCalm : w.Calm)
    (hAfter : (run (wired fields) p (w.opening fields service)).2.Calm) :
    run (wired fields) (Method.steps.transactional service p) w =
      let answer := run (wired fields) p (w.opening fields service)
      (answer.1, answer.2.closing fields service w.journal.status.length answer.1.isOk) := by
  simp only [DecoratorSteps.transactional, bind_eq, run_bind, run_attempt, run_callStarts,
    run_managerOf, run_begin hCalm, run_callSettles, run_ofExcept, hManager]
  exact run_callback (w := { w with journal := w.journal.begin }) hAfter

end Method

namespace MethodBody

variable {σ ρ : Type} [DecidableEq σ] [DecidableEq ρ]

def runs (fields : σ → List ρ) (body : MethodBody σ ρ) (w : ManagerWorld σ ρ) :
    Except Exception Unit × ManagerWorld σ ρ := run (wired fields) body.prog w

/-- A decorated method with this body, called on a service. -/
def called (fields : σ → List ρ) (service : σ) (body : MethodBody σ ρ) (w : ManagerWorld σ ρ) :
    Except Exception Unit × ManagerWorld σ ρ :=
  run (wired fields) (Method.steps.transactional service body.prog) w

variable {fields : σ → List ρ} {w : ManagerWorld σ ρ} {around : List σ} {service : σ}

theorem runs_writes (hCalm : w.Calm) (r : ρ) (rest : MethodBody σ ρ) :
    (MethodBody.writes r rest).runs fields w = rest.runs fields (w.wrote r) := by
  have hWrite : run (wired fields) (Method.write r) w = (.ok (), w.wrote r) := by
    apply (run_perform _ _ _).trans
    rw [wired, if_neg (by rw [hCalm.succeeds]; decide), hCalm.tick]
    rfl
  rw [runs, prog, bind_eq, run_bind, hWrite]
  rfl

theorem runs_calls (inner : MethodBody σ ρ) (caught : Bool) (rest : MethodBody σ ρ) :
    (MethodBody.calls service inner caught rest).runs fields w =
      let call := inner.called fields service w
      if call.1.isOk || caught then rest.runs fields call.2 else call := by
  rcases hCall : inner.called fields service w with ⟨r, w'⟩
  rw [called] at hCall
  cases caught with
  | false =>
    simp only [runs, prog, Bool.false_eq_true, if_false, bind_eq, run_bind, hCall, Bool.or_false]
    cases r <;> rfl
  | true =>
    simp only [runs, prog, if_true, bind_eq, Prog.catching, run_bind, run_attempt, hCall, Bool.or_true]
    cases r <;> rfl

/-- How a body ends, and what it leaves. -/
def Ends (fields : σ → List ρ) (body : MethodBody σ ρ) : Prop :=
  ∀ w around, w.Calm → Around w around →
    (body.runs fields w).1.isOk = body.completes ∧ Framed w (body.runs fields w).2

theorem called_joined (hAround : Around w around) (hService : service ∈ around)
    (inner : MethodBody σ ρ) : inner.called fields service w = inner.runs fields w := by
  obtain ⟨tx, hManager⟩ := Option.isSome_iff_exists.mp ((hAround service).mpr hService)
  exact Method.run_joins hManager

variable {inner : MethodBody σ ρ}

theorem called_opened (hInner : inner.Ends fields) (hCalm : w.Calm) (hAround : Around w around)
    (hService : service ∉ around) :
    inner.called fields service w =
      let answer := inner.runs fields (w.opening fields service)
      (answer.1, answer.2.closing fields service w.journal.status.length inner.completes) := by
  obtain ⟨hCompletes, hFramed⟩ := hInner (w.opening fields service) _ hCalm hAround.opening
  rw [called, Method.run_opens (hAround.none hService) hCalm hFramed.calm]
  exact hCompletes ▸ rfl

theorem called_ends (service : σ) (hInner : inner.Ends fields) (hCalm : w.Calm) (hAround : Around w around) :
    (inner.called fields service w).1.isOk = inner.completes ∧
      Framed w (inner.called fields service w).2 := by
  by_cases hService : service ∈ around
  · rw [called_joined hAround hService]
    exact hInner w around hCalm hAround
  · obtain ⟨hCompletes, hFramed⟩ := hInner (w.opening fields service) _ hCalm hAround.opening
    rw [called_opened hInner hCalm hAround hService]
    exact ⟨hCompletes, hFramed.closing (hAround.none hService) _⟩

theorem ends (fields : σ → List ρ) (body : MethodBody σ ρ) : body.Ends fields := by
  induction body with
  | returns => exact fun w _ hCalm _ => ⟨rfl, framed_refl hCalm⟩
  | throws e => exact fun w _ hCalm _ => ⟨rfl, framed_refl hCalm⟩
  | writes r rest ih =>
    intro w around hCalm hAround
    have hWrote := framed_wrote hCalm r
    obtain ⟨hCompletes, hFramed⟩ := ih _ around hWrote.calm (hWrote.keepsAround hAround)
    rw [runs_writes hCalm]
    exact ⟨hCompletes, hWrote.trans hFramed⟩
  | calls service inner caught rest ihInner ihRest =>
    intro w around hCalm hAround
    obtain ⟨hCompletes, hCall⟩ := called_ends service ihInner hCalm hAround
    obtain ⟨hRest, hFramed⟩ := ihRest _ around hCall.calm (hCall.keepsAround hAround)
    simp only [runs_calls, hCompletes, completes]
    cases hGoesOn : inner.completes || caught with
    | true =>
      rw [if_pos rfl, Bool.true_and]
      exact ⟨hRest, hCall.trans hFramed⟩
    | false =>
      rw [if_neg Bool.false_ne_true, Bool.false_and, hCompletes]
      exact ⟨(Bool.or_eq_false_iff.mp hGoesOn).1, hCall⟩

theorem called_stands (hCalm : w.Calm) (hAround : Around w around) (hService : service ∉ around)
    (inner : MethodBody σ ρ) :
    (inner.called fields service w).2.journal.Stands w.journal.status.length
      (fate inner.completes) := by
  have hInner := (ends fields inner (w.opening fields service) _ hCalm hAround.opening).2
  rw [called_opened (ends fields inner) hCalm hAround hService]
  exact Journal.stands_finish ((hInner.stands (lt_opening_length _ _ _) .running).mpr (Journal.stands_begin _))

end MethodBody

end Manejaplus
