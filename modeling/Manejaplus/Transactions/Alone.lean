import Manejaplus.Sequential.Transactional
import Manejaplus.Transactions.TxWorld

/-! # Nobody else around: transactions on the shared services

With one call at a time the managers in the shared fields are those of that
call, and the journal comes to the database that `alone` keeps.
-/
namespace Manejaplus
open Effect Prog
set_option autoImplicit false

variable {env : Env} {α β : Type}

/-- Plain, and issued on the repository of the service. -/
def Op.On (service : Service) : Op → Prop
  | .store o => o.repository = some service.repository
  | .outside _ => True
  | .transaction _ => False

theorem Op.On.plain {service : Service} {o : Op} (h : o.On service) : o.Plain := by
  cases o with
  | transaction o => exact h
  | _ => trivial

def OpKind.On (service : Service) : OpKind → Bool
  | .findUser | .saveUser => service.repository = .user
  | .findOtp | .saveOtp | .newOtp => service.repository = .otp
  | .findRoles | .transaction => false
  | _ => true

theorem Op.on_of_kind {service : Service} {o : Op} (h : o.kind.On service) : o.On service := by
  cases o with
  | store o =>
    cases o with
    | saveOtp e =>
      simp only [kind] at h
      split at h <;> simpa [OpKind.On, On, StoreOp.repository, eq_comm] using h
    | findRoles ids => cases h
    | _ => simpa [OpKind.On, On, StoreOp.repository, eq_comm] using h
  | outside o => trivial
  | transaction o => cases h

theorem on_of_among {α : Type} {service : Service} {kinds : List OpKind} {p : Async α}
    (hp : p.Uses (Op.Among kinds)) (h : ∀ kind ∈ kinds, kind.On service) :
    p.Uses (Op.On service) :=
  hp.mono fun _ ho => Op.on_of_kind (h _ ho)

section Exec

/-- A statement that writes nothing, or fails, leaves the database as it is. -/
theorem exec_kept {c : Choice} {db : Database} {o : StoreOp}
    (h : (o.writes && (db.exec env c o).1.isOk) = false) : (db.exec env c o).2 = db := by
  have hSave : ∀ {γ : Type} (x : Option (γ × Database)),
      (if c.fault then (.error .external, db) else orFail db x : Except Exception γ × Database).1.isOk = false →
      (if c.fault then (.error .external, db) else orFail db x).2 = db := by
    intro γ x hError
    split
    · rfl
    rename_i hFault
    rw [if_neg hFault] at hError
    cases x with
    | none => rfl
    | some saved => cases hError
  cases o with
  | saveUser e => exact hSave _ h
  | saveOtp e => exact hSave _ h
  | findUser q => exact exec_unsaved (fun _ h => by cases h) fun _ h => by cases h
  | findOtp typeOtp userId => exact exec_unsaved (fun _ h => by cases h) fun _ h => by cases h
  | findRoles ids => exact exec_unsaved (fun _ h => by cases h) fun _ h => by cases h

end Exec

section Views

variable {w w' : TxWorld} {m m' : Option Tx}

theorem view_congr (hBase : w'.base = w.base) (hEntries : w'.journal.entries = w.journal.entries)
    (hVisible : ∀ e ∈ w.journal.entries, w'.visible m' e = w.visible m e) :
    w'.view env m' = w.view env m := by
  rw [TxWorld.view, TxWorld.view, hBase, hEntries, List.filter_congr hVisible]

theorem view_write (manager : Option Tx) (item : Write) (outside : Outside) :
    ({ w with journal := w.journal.write manager item, outside } : TxWorld).view env m =
      if w.visible m ⟨manager, item⟩ then ((w.view env m).exec env item.choice item.op).2
      else w.view env m := by
  change ((w.journal.entries ++ [(⟨manager, item⟩ : Entry Write)]).filter (w.visible m)).foldl _ w.base = _
  rw [List.filter_append, List.foldl_append]
  cases hSeen : w.visible m ⟨manager, item⟩ <;> simp [hSeen, TxWorld.view]

end Views

section Statements

variable {w : World} {tw : TxWorld} {m : Option Tx} {o : StoreOp}

/-- What a statement issued through the manager `m` leaves of the world. -/
structure StatementDone (env : Env) (m : Option Tx) (tw tw' : TxWorld) : Prop where
  status : tw'.journal.status = tw.journal.status
  services : tw'.serviceManager = tw.serviceManager
  repositories : tw'.repositoryManager = tw.repositoryManager
  entries : ∀ e ∈ tw'.journal.entries, e ∈ tw.journal.entries ∨ e.manager = m
  hidden : ∀ m', (∀ item, tw.visible m' ⟨m, item⟩ = false) → tw'.view env m' = tw.view env m'

theorem store_alike (hOutside : tw.outside = w.outside) (hManager : tw.getManager o = m)
    (hUsable : tw.usable m = true) (hOwn : ∀ item, tw.visible m ⟨m, item⟩ = true)
    (hView : tw.view env m = w.db) :
    (alone env (.store o) w).1 = (transactional env (.store o) tw).1 ∧
    (transactional env (.store o) tw).2.outside = (alone env (.store o) w).2.outside ∧
    (transactional env (.store o) tw).2.view env m = (alone env (.store o) w).2.db ∧
    StatementDone env m tw (transactional env (.store o) tw).2 := by
  have hChoice : tw.choice = w.choice := congrArg (fun out => out.tape 0) hOutside
  simp only [alone, transactional, World.execStore, TxWorld.execStore, hManager, hUsable, if_true,
    hView, hChoice, hOutside]
  cases hWrites : o.writes && (w.db.exec env w.choice o).1.isOk with
  | true =>
    simp only [if_true]
    refine ⟨trivial, trivial, ?_, rfl, rfl, rfl, ?_, fun m' hHidden => ?_⟩
    · rw [view_write, if_pos (hOwn _), hView]
    · intro e he
      simp only [Journal.write, List.mem_append, List.mem_singleton] at he
      obtain hOld | rfl := he
      · exact .inl hOld
      · exact .inr rfl
    · rw [view_write, if_neg (by simp [hHidden])]
  | false =>
    refine ⟨trivial, trivial, ?_, rfl, rfl, rfl, fun e he => .inl he, fun m' _ => rfl⟩
    rw [exec_kept hWrites]
    exact hView

end Statements

section Inside

/-- A decorated call in its transaction: it sees its own writes, and nobody else does. -/
structure Within (env : Env) (service : Service) (tx : Tx) (before : Database) (w : World)
    (tw : TxWorld) : Prop where
  outside : tw.outside = w.outside
  inside : tw.view env (some tx) = w.db
  committed : tw.view env none = before
  running : tw.journal.Stands tx .running
  services : tw.serviceManager = Function.update (fun _ => none) service (some tx)
  repositories : tw.repositoryManager = Function.update (fun _ => none) service.repository (some tx)
  opened : ∀ e ∈ tw.journal.entries, ∀ tx', e.manager = some tx' → tx' < tw.journal.status.length

variable {service : Service} {tx : Tx} {before : Database} {w : World} {tw : TxWorld}

theorem Within.step {o : Op} (ho : o.On service) (h : Within env service tx before w tw) :
    (alone env o w).1 = (transactional env o tw).1 ∧
      Within env service tx before (alone env o w).2 (transactional env o tw).2 := by
  have hLess : tx < tw.journal.status.length := (List.getElem?_eq_some_iff.mp h.running).1
  cases o with
  | store o =>
    change o.repository = _ at ho
    have hManager : tw.getManager o = some tx := by
      rw [TxWorld.getManager, ho, h.repositories, Option.bind_some, Function.update_self]
    have hUsable : tw.usable (some tx) = true := by
      rw [TxWorld.usable, Option.all_some, show tw.journal.status[tx]? = _ from h.running]
      rfl
    have hOwn : ∀ item, tw.visible (some tx) ⟨some tx, item⟩ = true := by
      simp [TxWorld.visible]
    obtain ⟨hAnswer, hOutside, hView, hDone⟩ := store_alike h.outside hManager hUsable hOwn h.inside
    refine ⟨hAnswer, hOutside, hView, ?_, ?_, hDone.services.trans h.services,
      hDone.repositories.trans h.repositories, ?_⟩
    · refine (hDone.hidden none fun item => ?_).trans h.committed
      simp [TxWorld.visible, show tw.journal.status[tx]? = _ from h.running]
    · rw [Journal.Stands, hDone.status]
      exact h.running
    · intro e he tx' hTx
      rw [hDone.status]
      obtain hOld | hNew := hDone.entries e he
      · exact h.opened e hOld tx' hTx
      · cases hNew.symm.trans hTx
        exact hLess
  | outside o =>
    have hChoice : tw.choice = w.choice := congrArg (fun out => out.tape 0) h.outside
    simp only [alone, transactional, World.execOutside, TxWorld.execOutside, hChoice, h.outside]
    exact ⟨trivial, ⟨rfl, h.inside, h.committed, h.running, h.services, h.repositories, h.opened⟩⟩
  | transaction o => exact ho.elim

theorem Within.run {body : Async α} (hBody : body.Uses (Op.On service))
    (h : Within env service tx before w tw) :
    (run (alone env) body w).1 = (run (transactional env) body tw).1 ∧
      Within env service tx before (run (alone env) body w).2 (run (transactional env) body tw).2 :=
  run_simulates _ (fun _ ho _ _ hWithin => hWithin.step ho) hBody h

end Inside

/-- No call is under way: no manager is set, and every entry is under a transaction that exists. -/
structure TxWorld.Idle (tw : TxWorld) : Prop where
  services : tw.serviceManager = fun _ => none
  repositories : tw.repositoryManager = fun _ => none
  opened : ∀ e ∈ tw.journal.entries, ∀ tx, e.manager = some tx → tx < tw.journal.status.length

/-- The committed database and the outside are those of the world. -/
structure Alike (env : Env) (w : World) (tw : TxWorld) : Prop where
  idle : tw.Idle
  outside : tw.outside = w.outside
  db : tw.view env none = w.db

section Ends

variable {service : Service} {tx : Tx} {before : Database} {w : World} {tw : TxWorld}

theorem Alike.begins (h : Alike env w tw) (service : Service) :
    Within env service tw.journal.status.length w.db
      { w with checkpoint := w.db, outside := w.outside.tick }
      { tw with
        journal := tw.journal.begin
        serviceManager := Function.update tw.serviceManager service (some tw.journal.status.length)
        repositoryManager :=
          Function.update tw.repositoryManager service.repository (some tw.journal.status.length)
        outside := tw.outside.tick } := by
  have hView : ∀ m, (m = none ∨ m = some tw.journal.status.length) →
      TxWorld.view env { tw with
        journal := tw.journal.begin
        serviceManager := Function.update tw.serviceManager service (some tw.journal.status.length)
        repositoryManager :=
          Function.update tw.repositoryManager service.repository (some tw.journal.status.length)
        outside := tw.outside.tick } m = w.db := by
    intro m hm
    rw [← h.db]
    refine view_congr rfl rfl fun e he => ?_
    cases hManager : e.manager with
    | none => simp [TxWorld.visible, hManager]
    | some tx =>
      have hLess := h.idle.opened e he tx hManager
      have hOther : (m == some tx) = false := by
        obtain rfl | rfl := hm
        · rfl
        · exact beq_eq_false_iff_ne.mpr fun hSame => Nat.ne_of_gt hLess (Option.some.inj hSame)
      simp [TxWorld.visible, hManager, Journal.begin, List.getElem?_append_left hLess, hOther]
  refine ⟨by rw [h.outside], hView _ (.inr rfl), hView _ (.inl rfl), Journal.stands_begin _, ?_, ?_, ?_⟩
  · rw [h.idle.services]
  · rw [h.idle.repositories]
  · intro e he tx hTx
    have hLess := h.idle.opened e he tx hTx
    simp only [Journal.begin, List.length_append, List.length_singleton]
    exact Nat.lt_succ_of_lt hLess

theorem Within.idle (h : Within env service tx before w tw) (s : TxStatus) :
    TxWorld.Idle { tw with
      journal := tw.journal.finish tx s
      serviceManager := Function.update tw.serviceManager service none
      repositoryManager := Function.update tw.repositoryManager service.repository none } where
  services := by
    simp only [h.services, Function.update_idem]
    exact Function.update_eq_self service fun _ => none
  repositories := by
    simp only [h.repositories, Function.update_idem]
    exact Function.update_eq_self service.repository fun _ => none
  opened e he tx' hTx := by
    simp only [Journal.finish, List.length_set]
    exact h.opened e he tx' hTx

theorem Within.visible (h : Within env service tx before w tw) (s : TxStatus) (e : Entry Write) :
    TxWorld.visible { tw with
      journal := tw.journal.finish tx s
      serviceManager := Function.update tw.serviceManager service none
      repositoryManager := Function.update tw.repositoryManager service.repository none } none e =
    if s = .committed then tw.visible (some tx) e else tw.visible none e := by
  have hLess : tx < tw.journal.status.length := (List.getElem?_eq_some_iff.mp h.running).1
  cases hManager : e.manager with
  | none => simp [TxWorld.visible, hManager]
  | some tx' =>
    by_cases hSame : tx = tx'
    · subst hSame
      have hRunning : tw.journal.status[tx] = .running := (List.getElem?_eq_some_iff.mp h.running).2
      cases s <;> simp [TxWorld.visible, hManager, Journal.finish, hLess, hRunning]
    · simp [TxWorld.visible, hManager, Journal.finish, List.getElem?_set_ne hSame, hSame]

theorem Within.commits (h : Within env service tx before w tw) : Alike env w { tw with
    journal := tw.journal.finish tx .committed
    serviceManager := Function.update tw.serviceManager service none
    repositoryManager := Function.update tw.repositoryManager service.repository none } where
  idle := h.idle .committed
  outside := h.outside
  db := by
    rw [← h.inside]
    exact view_congr rfl rfl fun e _ => (h.visible .committed e).trans (if_pos rfl)

theorem Within.rollsBack (h : Within env service tx before w tw) :
    Alike env { w with db := before } { tw with
      journal := tw.journal.finish tx .rolledBack
      serviceManager := Function.update tw.serviceManager service none
      repositoryManager := Function.update tw.repositoryManager service.repository none } where
  idle := h.idle .rolledBack
  outside := h.outside
  db := by
    rw [← h.committed]
    exact view_congr rfl rfl fun e _ => (h.visible .rolledBack e).trans (if_neg (by decide))

end Ends

section Steps

variable {tw : TxWorld}

theorem tx_transaction (o : TransactionOp) :
    run (transactional env) (perform (S := services) (.transaction o)) tw = tw.execTransaction o :=
  run_perform _ _ _

theorem tx_callStarts : run (transactional env) Async.callStarts tw = (.ok (), tw) :=
  tx_transaction _

theorem tx_managerOf (service : Service) :
    run (transactional env) (Async.managerOf service) tw = (.ok (tw.serviceManager service), tw) :=
  tx_transaction _

theorem tx_begin : run (transactional env) Async.begin tw =
    if tw.choice.fault then (.error .external, { tw with outside := tw.outside.tick })
    else (.ok tw.journal.status.length,
      { tw with journal := tw.journal.begin, outside := tw.outside.tick }) :=
  tx_transaction _

theorem tx_setManager (service : Service) (manager : Option Tx) :
    run (transactional env) (Async.setManager service manager) tw = (.ok (), { tw with
      serviceManager := Function.update tw.serviceManager service manager
      repositoryManager := Function.update tw.repositoryManager service.repository manager }) :=
  tx_transaction _

theorem tx_commit (tx : Tx) : run (transactional env) (Async.commit tx) tw =
    (.ok (), { tw with journal := tw.journal.finish tx .committed }) := tx_transaction _

theorem tx_rollback (tx : Tx) : run (transactional env) (Async.rollback tx) tw =
    (.ok (), { tw with journal := tw.journal.finish tx .rolledBack }) := tx_transaction _

theorem tx_callSettles (ok : Bool) :
    run (transactional env) (Async.callSettles ok) tw = (.ok (), tw) := tx_transaction _

end Steps

section Simulation

variable {w : World} {tw : TxWorld}

/-- Outside of decorated calls a statement goes through the default manager, and is there for good. -/
theorem Alike.step {o : Op} (ho : o.Plain) (h : Alike env w tw) :
    (alone env o w).1 = (transactional env o tw).1 ∧
      Alike env (alone env o w).2 (transactional env o tw).2 := by
  cases o with
  | store o =>
    have hManager : tw.getManager o = none := by
      rw [TxWorld.getManager, h.idle.repositories]
      cases o.repository <;> rfl
    have hOwn : ∀ item, tw.visible none ⟨none, item⟩ = true := fun _ => rfl
    obtain ⟨hAnswer, hOutside, hView, hDone⟩ := store_alike h.outside hManager rfl hOwn h.db
    refine ⟨hAnswer, ⟨hDone.services.trans h.idle.services,
      hDone.repositories.trans h.idle.repositories, fun e he tx hTx => ?_⟩, hOutside, hView⟩
    rw [hDone.status]
    obtain hOld | hNew := hDone.entries e he
    · exact h.idle.opened e hOld tx hTx
    · cases hNew.symm.trans hTx
  | outside o =>
    have hChoice : tw.choice = w.choice := congrArg (fun out => out.tape 0) h.outside
    simp only [alone, transactional, World.execOutside, TxWorld.execOutside, hChoice, h.outside]
    exact ⟨trivial, ⟨h.idle.services, h.idle.repositories, h.idle.opened⟩, rfl, h.db⟩
  | transaction o => exact ho.elim

/-- From worlds alike the program comes to the same answer, and to worlds alike. -/
def Simulated (env : Env) (p : Async α) : Prop :=
  ∀ w tw, Alike env w tw → (run (alone env) p w).1 = (run (transactional env) p tw).1 ∧
    Alike env (run (alone env) p w).2 (run (transactional env) p tw).2

theorem simulated_plain {p : Async α} (hp : p.Uses Op.Plain) : Simulated env p :=
  fun _ _ hAlike => run_simulates _ (fun _ ho _ _ h => h.step ho) hp hAlike

theorem simulated_bind {p : Async α} {f : α → Async β} (hp : Simulated env p)
    (hf : ∀ a, Simulated env (f a)) : Simulated env (p.bind f) := by
  intro w tw hAlike
  obtain ⟨hAnswer, hAfter⟩ := hp w tw hAlike
  rw [run_bind, run_bind]
  rcases hw : run (alone env) p w with ⟨r, w'⟩
  rcases htw : run (transactional env) p tw with ⟨r', tw'⟩
  rw [hw, htw] at hAnswer hAfter
  cases hAnswer
  cases r with
  | ok a => exact hf a w' tw' hAfter
  | error e => exact ⟨rfl, hAfter⟩

theorem simulated_map {p : Async α} (hp : Simulated env p) (f : α → β) :
    Simulated env (p.bind fun a => .pure (f a)) :=
  simulated_bind hp fun _ => simulated_plain trivial

theorem simulated_callback {service : Service} {body : Async α}
    (hBody : body.Uses (Op.On service)) (hAlike : Alike env w tw) :
    let w₁ : World := { w with checkpoint := w.db, outside := w.outside.tick }
    let tw₁ : TxWorld :=
      { tw with journal := tw.journal.begin, outside := tw.outside.tick }
    (run (alone env) (Transactional.callback service body (0 : Tx)) w₁).1 =
        (run (transactional env) (Transactional.callback service body tw.journal.status.length) tw₁).1 ∧
      Alike env (run (alone env) (Transactional.callback service body (0 : Tx)) w₁).2
        (run (transactional env) (Transactional.callback service body tw.journal.status.length)
          tw₁).2 := by
  intro w₁ tw₁
  obtain ⟨hAnswer, hWithin⟩ := (hAlike.begins service).run hBody
  have hCheckpoint : (run (alone env) body w₁).2.checkpoint = w.db :=
    plain_checkpoint (hBody.mono fun _ => Op.On.plain) w₁
  simp only [Transactional.callback, bind_eq, run_bind, run_attempt, run_setManager, tx_setManager]
  rcases hw : run (alone env) body w₁ with ⟨r, w₂⟩
  rw [hw] at hAnswer hWithin hCheckpoint
  simp only at hAnswer hWithin hCheckpoint
  rw [← hAnswer]
  cases r with
  | ok a =>
    simp only [run_bind, run_commit, tx_commit]
    exact ⟨rfl, hWithin.commits⟩
  | error e =>
    have hBack := hWithin.rollsBack
    rw [← hCheckpoint] at hBack
    simp only [run_bind, run_rollback, tx_rollback]
    exact ⟨rfl, hBack⟩

theorem simulated_decorated {service : Service} {body : Async α}
    (hBody : body.Uses (Op.On service)) : Simulated env (Transactional service body) := by
  intro w tw hAlike
  have hChoice : tw.choice = w.choice := congrArg (fun out => out.tape 0) hAlike.outside
  have hNone : tw.serviceManager service = none := congrFun hAlike.idle.services service
  simp only [Transactional, bind_eq, run_bind, run_attempt, run_callStarts, run_managerOf, run_begin,
    run_callSettles, run_ofExcept, tx_callStarts, tx_managerOf, tx_begin, tx_callSettles, hNone,
    hChoice]
  cases w.choice.fault with
  | true => exact ⟨rfl, ⟨hAlike.idle.services, hAlike.idle.repositories, hAlike.idle.opened⟩,
      congrArg Outside.tick hAlike.outside, hAlike.db⟩
  | false => exact simulated_callback hBody hAlike

end Simulation

end Manejaplus
