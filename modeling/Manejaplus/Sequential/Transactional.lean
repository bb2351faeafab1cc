import Manejaplus.Awaited
import Manejaplus.Sequential.Sessions

/-! # A decorated call with nobody else around -/
namespace Manejaplus
open Effect Prog
set_option autoImplicit false

variable {env : Env} {w w' : World} {α : Type}

section Steps

theorem run_transaction (o : TransactionOp) :
    run (alone env) (perform (S := services) (.transaction o)) w = w.execTransaction o :=
  run_perform _ _ _

theorem run_callStarts : run (alone env) Async.callStarts w = (.ok (), w) := run_transaction _

theorem run_managerOf (service : Service) :
    run (alone env) (Async.managerOf service) w = (.ok none, w) := run_transaction _

theorem run_begin : run (alone env) Async.begin w =
    if w.choice.fault then (.error .external, { w with outside := w.outside.tick })
    else (.ok (0 : Nat), { w with checkpoint := w.db, outside := w.outside.tick }) :=
  run_transaction _

theorem run_setManager (service : Service) (manager : Option Tx) :
    run (alone env) (Async.setManager service manager) w = (.ok (), w) := run_transaction _

theorem run_commit (tx : Tx) : run (alone env) (Async.commit tx) w = (.ok (), w) :=
  run_transaction _

theorem run_rollback (tx : Tx) :
    run (alone env) (Async.rollback tx) w = (.ok (), { w with db := w.checkpoint }) :=
  run_transaction _

theorem run_callSettles (ok : Bool) : run (alone env) (Async.callSettles ok) w = (.ok (), w) :=
  run_transaction _

end Steps

theorem plain_checkpoint {p : Async α} (hp : p.Uses Op.Plain) (w : World) :
    (run (alone env) p w).2.checkpoint = w.checkpoint := by
  apply run_keeps (alone env) (R := fun w w' => w'.checkpoint = w.checkpoint) (fun _ => rfl)
    (fun _ _ _ huv hvw => hvw.trans huv) _ hp
  intro o ho w
  cases o with
  | store o => rfl
  | outside o => rfl
  | transaction o => cases ho

theorem silent_exec {o : OutsideOp} (h : Op.Silent (.outside o)) (c : Choice) (out : Outside) :
    (out.exec env c o).2.mails = out.mails ∧ (out.exec env c o).2.issued = out.issued := by
  unfold Outside.exec
  split <;> first
    | exact ⟨rfl, rfl⟩
    | exact False.elim h
    | (split <;> exact ⟨rfl, rfl⟩)

theorem silent_run {α : Type} {p : Async α} (hp : p.Uses Op.Silent) {r : Except Exception α}
    (hRun : run (alone env) p w = (r, w')) : w'.state = { w.state with db := w'.db } := by
  have hKeeps := run_keeps (alone env)
    (R := fun w w' => w'.outside.mails = w.outside.mails ∧ w'.outside.issued = w.outside.issued)
    (fun _ => ⟨rfl, rfl⟩) (fun _ _ _ huv hvw => ⟨hvw.1.trans huv.1, hvw.2.trans huv.2⟩)
    (fun o ho w => by
      cases o with
      | store o => exact ⟨rfl, rfl⟩
      | outside o => exact silent_exec ho w.choice w.outside.tick
      | transaction o => cases ho) hp w
  rw [hRun] at hKeeps
  simp only [World.state, State.mk.injEq, true_and]
  exact hKeeps

def State.settle (s : State) (before : Database) : Except Exception α → State
  | .ok _ => s
  | .error _ => { s with db := before }

theorem callback_run {service : Service} {body : Async α} (manager : Tx)
    (hBody : body.Uses Op.Plain) :
    (run (alone env) (Transactional.callback service body manager) w).1 =
      (run (alone env) body w).1 ∧
    (run (alone env) (Transactional.callback service body manager) w).2.state =
      (run (alone env) body w).2.state.settle w.checkpoint (run (alone env) body w).1 := by
  have hCheckpoint : (run (alone env) body w).2.checkpoint = w.checkpoint := plain_checkpoint hBody w
  simp only [Transactional.callback, bind_eq, run_bind, run_setManager, run_attempt]
  cases hOutcome : (run (alone env) body w).1 with
  | ok a =>
    simp only [run_bind, run_commit]
    exact ⟨rfl, rfl⟩
  | error e =>
    simp only [run_bind, run_rollback]
    exact ⟨rfl, by rw [hCheckpoint]; rfl⟩

theorem transactional_answer {α : Type} {service : Service} {body : Async α}
    (hBody : body.Uses Op.Plain) : (run (alone env) (Transactional service body) w).1 =
      if w.choice.fault then .error .external
      else (run (alone env) body { w with checkpoint := w.db, outside := w.outside.tick }).1 := by
  simp only [Transactional, bind_eq, run_bind, run_callStarts, run_attempt, run_managerOf,
    run_begin, run_callSettles, run_ofExcept]
  cases hFault : w.choice.fault with
  | true => simp
  | false =>
    simp only [Bool.false_eq_true, if_false]
    exact (callback_run (0 : Tx) hBody).1

/-- Alone, the decorator opens a transaction, runs the method in it and settles it. -/
theorem transactional_cases {service : Service} {body : Async α} {r : Except Exception α}
    (hBody : body.Uses Op.Plain)
    (hRun : run (alone env) (Transactional service body) w = (r, w')) :
    (w'.state = w.state ∧ Fails w r) ∨
    ∃ w₁ w₂, w₁.state = w.state ∧ w.Rest w₁ ∧ run (alone env) body w₁ = (r, w₂) ∧
      w'.state = w₂.state.settle w.db r := by
  simp only [Transactional, bind_eq, run_bind, run_callStarts, run_attempt, run_managerOf,
    run_begin, run_callSettles, run_ofExcept] at hRun
  by_cases hFault : w.choice.fault = true
  · simp only [hFault, if_true] at hRun
    cases hRun
    exact .inl ⟨rfl, rfl, not_calm hFault⟩
  · simp only [hFault, if_false, Bool.false_eq_true] at hRun
    let w₁ : World := { w with checkpoint := w.db, outside := w.outside.tick }
    obtain ⟨hAnswer, hState⟩ := @callback_run env w₁ α service body (0 : Tx) hBody
    cases hRun
    refine .inr ⟨w₁, (run (alone env) body w₁).2, rfl, .tick _ _ rfl, ?_, hState.trans ?_⟩
    · exact Prod.ext hAnswer.symm rfl
    · rw [hAnswer]

end Manejaplus
