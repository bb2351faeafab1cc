import Manejaplus.Effect.Journal
import Manejaplus.Requests

/-! # Transactions on shared services

The managers live in fields of the services and of their repositories, which
all calls share. A statement goes through whatever manager its repository holds
at that moment, and what it writes belongs to that manager's transaction.
-/
namespace Manejaplus
open Effect
set_option autoImplicit false

/-- A statement that the database has carried out. -/
structure Write where
  op : StoreOp
  choice : Choice
  deriving DecidableEq

def StoreOp.writes : StoreOp → Bool
  | .saveUser _ => true
  | .saveOtp _ => true
  | _ => false

/-- The `BaseRepository` behind a statement; roles are read through a plain repository. -/
def StoreOp.repository : StoreOp → Option Repository
  | .findUser _ => some .user
  | .saveUser _ => some .user
  | .findOtp _ _ => some .otp
  | .saveOtp _ => some .otp
  | .findRoles _ => none

structure TxWorld where
  base : Database
  journal : Journal Write
  /-- `this[TRANSACTION_MANAGER]` of each service. -/
  serviceManager : Service → Option Tx
  /-- `transactionManager` of each repository. -/
  repositoryManager : Repository → Option Tx
  outside : Outside

namespace TxWorld

def choice (w : TxWorld) : Choice := w.outside.tape 0

/-- `getManager()`; `none` is `dataSource.manager`. -/
def getManager (w : TxWorld) (o : StoreOp) : Option Tx := o.repository.bind w.repositoryManager

/-- What a manager sees: all that is committed, and its own transaction. -/
def visible (w : TxWorld) (manager : Option Tx) (e : Entry Write) : Bool :=
  match e.manager with
  | none => true
  | some tx => manager == some tx || w.journal.status[tx]? == some .committed

def view (env : Env) (w : TxWorld) (manager : Option Tx) : Database :=
  (w.journal.entries.filter (w.visible manager)).foldl
    (fun db e => (db.exec env e.item.choice e.item.op).2) w.base

/-- A manager whose transaction has ended refuses every statement. -/
def usable (w : TxWorld) (manager : Option Tx) : Bool :=
  manager.all fun tx => w.journal.status[tx]? == some .running

def execStore (env : Env) (o : StoreOp) (w : TxWorld) : Except Exception o.Res × TxWorld :=
  let manager := w.getManager o
  if w.usable manager then
    let answer := ((w.view env manager).exec env w.choice o).1
    (answer, { w with
      journal :=
        if o.writes && answer.isOk then w.journal.write manager ⟨o, w.choice⟩ else w.journal
      outside := w.outside.tick })
  else (.error .external, { w with outside := w.outside.tick })

def execOutside (env : Env) (o : OutsideOp) (w : TxWorld) : Except Exception o.Res × TxWorld :=
  let answer := w.outside.tick.exec env w.choice o
  (answer.1, { w with outside := answer.2 })

def execTransaction : (o : TransactionOp) → TxWorld → Except Exception o.Res × TxWorld
  | .callStarts, w => (.ok (), w)
  | .managerOf service, w => (.ok (w.serviceManager service), w)
  | .begin, w =>
    if w.choice.fault then (.error .external, { w with outside := w.outside.tick })
    else (.ok w.journal.status.length,
      { w with journal := w.journal.begin, outside := w.outside.tick })
  | .setManager service manager, w => (.ok (), { w with
      serviceManager := Function.update w.serviceManager service manager
      repositoryManager := Function.update w.repositoryManager service.repository manager })
  | .commit tx, w => (.ok (), { w with journal := w.journal.finish tx .committed })
  | .rollback tx, w => (.ok (), { w with journal := w.journal.finish tx .rolledBack })
  | .callSettles _, w => (.ok (), w)

end TxWorld

def transactional (env : Env) : Handler services Exception TxWorld
  | .store o, w => w.execStore env o
  | .outside o, w => w.execOutside env o
  | .transaction o, w => w.execTransaction o

theorem store_journal {env : Env} {w : TxWorld} (o : StoreOp) :
    (transactional env (.store o) w).2.journal =
      if o.writes && (transactional env (.store o) w).1.isOk then
        w.journal.write (w.getManager o) ⟨o, w.choice⟩ else w.journal := by
  simp only [transactional, TxWorld.execStore]
  split
  · rfl
  · simp [Except.isOk, Except.toBool]

inductive Call where
  | request (q : Request)
  | sendOtpCode (type : TypeOtp) (userModel : UserModel)
  deriving DecidableEq, Repr

def Call.prog (cases : CaseMapping) : Call → Async Response
  | .request q => serve cases q
  | .sendOtpCode type userModel => do return .user (← OtpService.sendOtpCode type userModel)

end Manejaplus
