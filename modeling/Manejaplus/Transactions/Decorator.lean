import Manejaplus.Transactions.TxWorld

/-! # The decorator, over any services and repositories

A service keeps the manager of its open transaction in a field of its own and
puts it into the repositories among its fields, which other services may have
among theirs as well.
-/
namespace Manejaplus
open Effect Prog
set_option autoImplicit false

/-- The steps that the decorator takes, as the programs around it can perform them. -/
structure DecoratorSteps (S : Signature) (σ : Type) where
  callStarts : Prog S Exception Unit
  managerOf (service : σ) : Prog S Exception (Option Tx)
  begin : Prog S Exception Tx
  setManager (service : σ) (manager : Option Tx) : Prog S Exception Unit
  commit (tx : Tx) : Prog S Exception Unit
  rollback (tx : Tx) : Prog S Exception Unit
  callSettles (ok : Bool) : Prog S Exception Unit

namespace DecoratorSteps
variable {S : Signature} {σ α : Type} (T : DecoratorSteps S σ)

/-- The callback of `dataSource.transaction`. -/
def callback (service : σ) (originalMethod : Prog S Exception α) (manager : Tx) :
    Prog S Exception α := do
  T.setManager service (some manager)
  let result ← originalMethod.attempt
  T.setManager service none
  match result with
  | .ok a => do
    T.commit manager
    return a
  | .error e => do
    T.rollback manager
    Prog.throw e

def transactional (service : σ) (originalMethod : Prog S Exception α) : Prog S Exception α := do
  T.callStarts
  let result ← Prog.attempt do
    match ← T.managerOf service with
    | some _ => originalMethod
    | none => do T.callback service originalMethod (← T.begin)
  T.callSettles result.isOk
  Prog.ofExcept result

end DecoratorSteps

def Async.steps : DecoratorSteps services Service where
  callStarts := Async.callStarts
  managerOf := Async.managerOf
  begin := Async.begin
  setManager := Async.setManager
  commit := Async.commit
  rollback := Async.rollback
  callSettles := Async.callSettles

/-- The decorator of the three services is this one. -/
theorem transactional_steps {α : Type} (service : Service) (originalMethod : Async α) :
    Async.steps.transactional service originalMethod = Transactional service originalMethod := rfl

inductive StepOp (σ : Type) where
  | callStarts
  | managerOf (service : σ)
  | begin
  | setManager (service : σ) (manager : Option Tx)
  | commit (tx : Tx)
  | rollback (tx : Tx)
  | callSettles (ok : Bool)

abbrev StepOp.Res {σ : Type} : StepOp σ → Type
  | .managerOf _ => Option Tx
  | .begin => Tx
  | _ => Unit

/-- What a method awaits: a step of the decorator, a write through a repository, anything else. -/
inductive MethodOp (σ ρ : Type) where
  | step (o : StepOp σ)
  | write (repository : ρ)
  | other

abbrev methods (σ ρ : Type) : Signature where
  Op := MethodOp σ ρ
  Res
    | .step o => o.Res
    | .write _ => Unit
    | .other => Unit

abbrev Method (σ ρ α : Type) := Prog (methods σ ρ) Exception α

namespace Method
variable {σ ρ : Type}

def steps : DecoratorSteps (methods σ ρ) σ where
  callStarts := Prog.perform (S := methods σ ρ) (.step .callStarts)
  managerOf service := Prog.perform (S := methods σ ρ) (.step (.managerOf service))
  begin := Prog.perform (S := methods σ ρ) (.step .begin)
  setManager service manager :=
    Prog.perform (S := methods σ ρ) (.step (.setManager service manager))
  commit tx := Prog.perform (S := methods σ ρ) (.step (.commit tx))
  rollback tx := Prog.perform (S := methods σ ρ) (.step (.rollback tx))
  callSettles ok := Prog.perform (S := methods σ ρ) (.step (.callSettles ok))

def write (repository : ρ) : Method σ ρ Unit :=
  Prog.perform (S := methods σ ρ) (.write repository)

end Method

/-- The managers in the fields of services and repositories. -/
@[ext] structure Managers (σ ρ : Type) where
  ofService : σ → Option Tx
  ofRepository : ρ → Option Tx

namespace Managers
variable {σ ρ : Type}

def absent : Managers σ ρ := ⟨fun _ => none, fun _ => none⟩

variable [DecidableEq σ] [DecidableEq ρ]

/-- `this[TRANSACTION_MANAGER]` is set or deleted, and so is the manager of every repository among
the service's fields. -/
def set (fields : σ → List ρ) (m : Managers σ ρ) (service : σ) (manager : Option Tx) :
    Managers σ ρ where
  ofService := Function.update m.ofService service manager
  ofRepository r := if r ∈ fields service then manager else m.ofRepository r

variable {fields : σ → List ρ} {m : Managers σ ρ} {service : σ} {manager : Option Tx}

@[simp] theorem set_ofService : (m.set fields service manager).ofService service = manager :=
  Function.update_self _ _ _

theorem set_ofService_of_ne {other : σ} (hOther : other ≠ service) :
    (m.set fields service manager).ofService other = m.ofService other :=
  Function.update_of_ne hOther _ _

theorem set_ofRepository (r : ρ) : (m.set fields service manager).ofRepository r =
    if r ∈ fields service then manager else m.ofRepository r := rfl

end Managers

structure ManagerWorld (σ ρ : Type) where
  /-- Each write, with the manager it went through. -/
  journal : Journal ρ
  managers : Managers σ ρ
  /-- Which of the operations to come fail. -/
  fails : Nat → Bool

namespace ManagerWorld
variable {σ ρ : Type}

def tick (w : ManagerWorld σ ρ) : ManagerWorld σ ρ := { w with fails := fun n => w.fails (n + 1) }

/-- No call has set a manager. -/
def idle (journal : Journal ρ) (fails : Nat → Bool) : ManagerWorld σ ρ :=
  ⟨journal, .absent, fails⟩

variable [DecidableEq σ] [DecidableEq ρ]

def execStep (fields : σ → List ρ) :
    (o : StepOp σ) → ManagerWorld σ ρ → Except Exception o.Res × ManagerWorld σ ρ
  | .callStarts, w => (.ok (), w)
  | .managerOf service, w => (.ok (w.managers.ofService service), w)
  | .begin, w =>
    if w.fails 0 then (.error .external, w.tick)
    else (.ok w.journal.status.length, { w.tick with journal := w.journal.begin })
  | .setManager service manager, w =>
    (.ok (), { w with managers := w.managers.set fields service manager })
  | .commit tx, w =>
    -- a commit that fails is rolled back
    if w.fails 0 then (.error .external, { w.tick with journal := w.journal.finish tx .rolledBack })
    else (.ok (), { w.tick with journal := w.journal.finish tx .committed })
  | .rollback tx, w => (.ok (), { w with journal := w.journal.finish tx .rolledBack })
  | .callSettles _, w => (.ok (), w)

end ManagerWorld

variable {σ ρ : Type} [DecidableEq σ] [DecidableEq ρ]

def wired (fields : σ → List ρ) : Handler (methods σ ρ) Exception (ManagerWorld σ ρ)
  | .step o, w => w.execStep fields o
  | .write r, w =>
    if w.fails 0 then (.error .external, w.tick)
    else (.ok (), { w.tick with journal := w.journal.write (w.managers.ofRepository r) r })
  | .other, w => if w.fails 0 then (.error .external, w.tick) else (.ok (), w.tick)

/-- The fields of the three services are set as the wiring `[service.repository]` has it. -/
theorem execTransaction_managers (w : TxWorld) (service : Service) (manager : Option Tx) :
    let w' := (w.execTransaction (.setManager service manager)).2
    (⟨w'.serviceManager, w'.repositoryManager⟩ : Managers Service Repository) =
      Managers.set (fun service => [service.repository]) ⟨w.serviceManager, w.repositoryManager⟩
        service manager := by
  simp only [TxWorld.execTransaction, Managers.set, List.mem_singleton]
  congr 1
  funext r
  rw [Function.update_apply]

end Manejaplus
