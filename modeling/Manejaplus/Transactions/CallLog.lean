import Manejaplus.Awaited
import Manejaplus.Transactions.TxWorld
import Manejaplus.Effect.Pool

/-! # How a call goes about its transaction

The ghost of a call follows it through the decorator and keeps the numbers of
the entries it has written: outside of decorated calls, in the one under way,
and in those that have settled.
-/
namespace Manejaplus
open Effect Prog
set_option autoImplicit false

/-- Where a decorated call stands; `outside` there is none. -/
inductive CallPhase where
  | outside
  | entered
  | joined
  | opening
  | began (tx : Tx)
  | inside (tx : Tx)
  | leaving (tx : Tx)
  | committed (tx : Tx)
  | rolledBack (tx : Tx)
  deriving DecidableEq, Repr

/-- A decorated call that has returned or thrown, and its own writes. -/
structure SettledCall where
  ok : Bool
  writes : List Nat
  deriving DecidableEq, Repr

structure CallLog where
  phase : CallPhase := .outside
  plain : List Nat := []
  writes : List Nat := []
  settled : List SettledCall := []
  deriving DecidableEq, Repr

namespace CallLog

def wrote (γ : CallLog) (n : Nat) : CallLog :=
  match γ.phase with
  | .outside => { γ with plain := n :: γ.plain }
  | _ => { γ with writes := n :: γ.writes }

def settle (γ : CallLog) (ok : Bool) : CallLog :=
  { γ with phase := .outside, writes := [], settled := ⟨ok, γ.writes⟩ :: γ.settled }

def next (γ : CallLog) (w : TxWorld) (o : Op) (r : Except Exception (services.Res o)) : CallLog :=
  match o, r with
  | .store o, r =>
    if o.writes && r.isOk then γ.wrote w.journal.entries.length else γ
  | .transaction .callStarts, _ => { γ with phase := .entered }
  | .transaction (.managerOf _), .ok none => { γ with phase := .opening }
  | .transaction (.managerOf _), _ => { γ with phase := .joined }
  | .transaction .begin, .ok tx => { γ with phase := .began tx }
  | .transaction (.setManager _ (some tx)), _ => { γ with phase := .inside tx }
  | .transaction (.setManager _ none), _ => match γ.phase with
    | .inside tx => { γ with phase := .leaving tx }
    | _ => γ
  | .transaction (.commit tx), _ => { γ with phase := .committed tx }
  | .transaction (.rollback tx), _ => { γ with phase := .rolledBack tx }
  | .transaction (.callSettles ok), _ => γ.settle ok
  | _, _ => γ

/-- The phases in which statements are issued. -/
def InBody : CallPhase → Prop
  | .outside => True
  | .joined => True
  | .inside _ => True
  | _ => False

/-- The order in which the decorator goes. -/
def Allows : CallPhase → TransactionOp → Prop
  | .outside, .callStarts => True
  | .entered, .managerOf _ => True
  | .joined, .callSettles _ => True
  | .opening, .begin => True
  | .opening, .callSettles ok => ok = false
  | .began tx, .setManager _ manager => manager = some tx
  | .inside _, .setManager _ manager => manager = none
  | .leaving tx, .commit tx' => tx' = tx
  | .leaving tx, .rollback tx' => tx' = tx
  | .committed _, .callSettles ok => ok = true
  | .rolledBack _, .callSettles ok => ok = false
  | _, _ => False

def protocol : Protocol services Exception TxWorld CallLog where
  next := next
  allows γ o := match o with
    | .store _ => InBody γ.phase
    | .outside _ => True
    | .transaction o => Allows γ.phase o

end CallLog

open CallLog

section Follows

/-- Whatever the other calls do, the program goes by the protocol and leaves no call open. -/
def Follows {α : Type} (env : Env) (p : Async α) : Prop :=
  ∀ γ : CallLog, γ.phase = .outside →
    Obeys (transactional env) protocol (fun _ => True) γ p fun γ' _ => γ'.phase = .outside

variable {env : Env} {α β : Type}

theorem next_plain {γ : CallLog} {w : TxWorld} {o : Op} {r : Except Exception (services.Res o)}
    (ho : o.Plain) : (CallLog.next γ w o r).phase = γ.phase := by
  cases o with
  | store o =>
    simp only [CallLog.next]
    split
    · unfold wrote
      split <;> rfl
    · rfl
  | outside o => rfl
  | transaction o => exact ho.elim

theorem obeys_plain {γ : CallLog} {p : Async α} (hp : p.Uses Op.Plain) (hBody : InBody γ.phase) :
    Obeys (transactional env) protocol (fun _ => True) γ p fun γ' _ => γ'.phase = γ.phase := by
  refine Obeys.of_uses (J := fun γ' : CallLog => γ'.phase = γ.phase) hp ?_ ?_ rfl
  · intro γ' o hPhase ho
    cases o with
    | store o =>
      change InBody γ'.phase
      rwa [hPhase]
    | outside o => trivial
    | transaction o => exact ho.elim
  · intro γ' w o r hPhase ho
    exact (next_plain ho).trans hPhase

theorem follows_plain {p : Async α} (hp : p.Uses Op.Plain) : Follows env p := by
  intro γ hPhase
  refine Obeys.mono (fun _ _ h => h.trans hPhase) (obeys_plain hp ?_)
  rw [hPhase]
  trivial

theorem follows_bind {p : Async α} {f : α → Async β} (hp : Follows env p)
    (hf : ∀ a, Follows env (f a)) : Follows env (p.bind f) :=
  fun γ hPhase => Obeys.seq (hp γ hPhase) (fun γ' a h => hf a γ' h) fun _ _ h => h

theorem obeys_transaction {γ : CallLog} {o : TransactionOp} (ho : Allows γ.phase o) :
    Obeys (transactional env) protocol (fun _ => True) γ
      (Prog.perform (S := services) (.transaction o)) fun γ' r =>
        ∃ w, r = (transactional env (.transaction o) w).1 ∧ γ' = CallLog.next γ w (.transaction o) r :=
  (Obeys.perform _).mpr ⟨ho, fun w _ => ⟨w, rfl, rfl⟩⟩

theorem obeys_then {γ : CallLog} {o : TransactionOp} {f : o.Res → Async β}
    {Q : CallLog → Except Exception β → Prop} (ho : Allows γ.phase o)
    (hTotal : ∀ w, ∃ a, (transactional env (.transaction o) w).1 = .ok a)
    (hf : ∀ w a, Obeys (transactional env) protocol (fun _ => True)
      (CallLog.next γ w (.transaction o) (.ok a)) (f a) Q) :
    Obeys (transactional env) protocol (fun _ => True) γ
      ((Prog.perform (S := services) (.transaction o)).bind f) Q :=
  Obeys.perform_then ho hTotal hf

theorem obeys_callback {service : Service} {body : Async α} (hBody : body.Uses Op.Plain)
    {γ : CallLog} {tx : Tx} (hPhase : γ.phase = .began tx) :
    Obeys (transactional env) protocol (fun _ => True) γ (Transactional.callback service body tx)
      fun γ' r => (γ'.phase = .committed tx ∧ r.isOk = true) ∨
        (γ'.phase = .rolledBack tx ∧ r.isOk = false) := by
  apply obeys_then (by rw [hPhase]; rfl) (fun _ => ⟨_, rfl⟩)
  intro w _
  refine Obeys.seq (R := fun γ' r => γ'.phase = .inside tx ∧ r.isOk = true) ?_ ?_ ?_
  · refine Obeys.attempt.mpr (Obeys.mono ?_ (obeys_plain hBody trivial))
    exact fun _ _ h => ⟨h, rfl⟩
  · rintro γ₂ result ⟨hInside, _⟩
    apply obeys_then (by rw [hInside]; rfl) (fun _ => ⟨_, rfl⟩)
    intro w₂ _
    have hLeaving : (CallLog.next γ₂ w₂ (.transaction (.setManager service none))
        (.ok ())).phase = .leaving tx := by
      simp only [CallLog.next, hInside]
    cases result with
    | ok a =>
      exact obeys_then (by rw [hLeaving]; rfl) (fun _ => ⟨_, rfl⟩) fun _ _ => .inl ⟨rfl, rfl⟩
    | error e =>
      exact obeys_then (by rw [hLeaving]; rfl) (fun _ => ⟨_, rfl⟩) fun _ _ => .inr ⟨rfl, rfl⟩
  · rintro γ₂ e ⟨_, hError⟩
    cases hError

theorem follows_decorated {service : Service} {body : Async α} (hBody : body.Uses Op.Plain) :
    Follows env (Transactional service body) := by
  intro γ hPhase
  apply obeys_then (by rw [hPhase]; trivial) (fun _ => ⟨_, rfl⟩)
  intro w _
  refine Obeys.seq (R := fun γ' r => ∃ result, r = .ok result ∧
    Allows γ'.phase (.callSettles result.isOk)) ?_ ?_ ?_
  · refine Obeys.attempt.mpr (obeys_then trivial (fun _ => ⟨_, rfl⟩) fun w₂ manager => ?_)
    cases manager with
    | none =>
      refine Obeys.seq (obeys_transaction trivial) ?_ ?_
      · rintro γ₃ tx ⟨w₃, _, rfl⟩
        refine Obeys.mono ?_ (obeys_callback hBody rfl)
        rintro γ₄ r (⟨hEnd, hOk⟩ | ⟨hEnd, hOk⟩)
        · exact ⟨r, rfl, by rw [hEnd]; exact hOk⟩
        · exact ⟨r, rfl, by rw [hEnd]; exact hOk⟩
      · rintro γ₃ e ⟨w₃, _, rfl⟩
        exact ⟨.error e, rfl, rfl⟩
    | some tx =>
      refine Obeys.mono ?_ (obeys_plain hBody trivial)
      exact fun γ₃ r hJoined => ⟨r, rfl, by rw [hJoined]; trivial⟩
  · rintro γ₂ _ ⟨result, hOk, hAllows⟩
    cases hOk
    exact obeys_then hAllows (fun _ => ⟨_, rfl⟩) fun _ _ => (Obeys.ofExcept _).mpr rfl
  · rintro γ₂ e ⟨_, hOk, _⟩
    cases hOk

theorem follows_sendOtpCode (type : TypeOtp) (userModel : UserModel) :
    Follows env (OtpService.sendOtpCode type userModel) :=
  follows_decorated (plain_of_among (performs_sendOtpCode type userModel) (by decide))

theorem follows_handleOtpIfRequired (user : UserModel) (loginModel : LoginModel) :
    Follows env (AuthService.handleOtpIfRequired user loginModel) := by
  have hNeeds : Follows env (UserModel.validateNeedOtpToLogin user) :=
    follows_plain (plain_of_among (performs_validateNeedOtpToLogin user) (by decide))
  apply follows_bind hNeeds
  intro needs
  split
  · exact follows_bind (follows_sendOtpCode _ _) fun _ => follows_plain trivial
  · apply follows_bind hNeeds
    intro needs'
    split
    · refine follows_plain (uses_bind
        (plain_of_among (performs_checkOtpCodeIsValid _ _ _) (by decide)) fun isValid => ?_)
      split <;> trivial
    · exact follows_plain trivial

theorem follows_loginUser (loginModel : LoginModel) :
    Follows env (AuthService.loginUser loginModel) := by
  apply follows_bind (follows_plain
    (plain_of_among (performs_validateUserCredentials loginModel) (by decide)))
  intro user
  refine follows_bind (follows_plain (plain_of_among (performs_checkUserStatus user) (by decide)))
    fun _ => ?_
  apply follows_bind (follows_handleOtpIfRequired user loginModel)
  intro _
  exact follows_plain (plain_of_among (performs_handleUserLogin user) (by decide))

theorem follows_updateByToken (setFlag : UserEntity → UserEntity) (token : String) :
    Follows env (AuthService.updateByToken setFlag token) :=
  follows_decorated (plain_of_among (performs_updateByToken setFlag token) (by decide))

theorem follows_map {p : Async α} (hp : Follows env p) (f : α → β) :
    Follows env (p.bind fun a => .pure (f a)) := follows_bind hp fun _ => follows_plain trivial

theorem follows_prog (call : Call) : Follows env (call.prog env.cases) := by
  cases call with
  | sendOtpCode type userModel => exact follows_map (follows_sendOtpCode type userModel) _
  | request q =>
    cases q with
    | createUser dto =>
      exact follows_map (follows_decorated (plain_of_among (performs_createUser _) (by decide))) _
    | loginUser loginModel => exact follows_map (follows_loginUser loginModel) _
    | unlockAccount loginModel =>
      exact follows_map (follows_plain (plain_of_among (performs_unlockAccount _) (by decide))) _
    | googleLoginUser user =>
      exact follows_map (follows_plain (plain_of_among (performs_googleLoginUser _ _) (by decide))) _
    | refreshToken loginModel =>
      exact follows_map (follows_plain (plain_of_among (performs_refreshToken _) (by decide))) _
    | assignRole assignRoleModel =>
      exact follows_map (follows_plain (plain_of_among (performs_assignRole _) (by decide))) _
    | verifyAccount token => exact follows_map (follows_updateByToken _ token) _
    | unlockAccountToken token => exact follows_map (follows_updateByToken _ token) _

end Follows

end Manejaplus
