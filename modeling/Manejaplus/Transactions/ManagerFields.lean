import Manejaplus.Transactions.MethodBody
import Manejaplus.Effect.Pool

/-! # Which manager a field can hold

A call that opens a transaction puts its manager into the fields of its service
and empties all of them again before the transaction ends. Others may have
written the fields in between; whatever a field holds then is theirs.
-/
namespace Manejaplus
open Effect Prog
set_option autoImplicit false

/-- An open transaction, and the service whose fields its call has set and not yet emptied. -/
structure OpenCall (σ : Type) where
  tx : Tx
  service : Option σ

/-- The calls that are under way in a thread, and the transactions they have opened, the innermost
first. -/
structure CallStack (σ : Type) where
  running : Nat := 0
  opened : List (OpenCall σ) := []

/-- No step of the decorator. -/
def MethodOp.Plain {σ ρ : Type} : MethodOp σ ρ → Prop
  | .step _ => False
  | _ => True

/-- Any method: plain operations and decorated calls, one after the other, with `try` around some
of them. -/
inductive Built {σ ρ : Type} : {α : Type} → Method σ ρ α → Prop
  | plain {α : Type} {p : Method σ ρ α} : p.Uses MethodOp.Plain → Built p
  | bind {α β : Type} {p : Method σ ρ α} {f : α → Method σ ρ β} :
      Built p → (∀ a, Built (f a)) → Built (p.bind f)
  | attempt {α : Type} {p : Method σ ρ α} : Built p → Built p.attempt
  | transactional {α : Type} {body : Method σ ρ α} (service : σ) :
      Built body → Built (Method.steps.transactional service body)

theorem MethodBody.built {σ ρ : Type} (body : MethodBody σ ρ) : Built body.prog := by
  induction body with
  | returns => exact .plain trivial
  | throws e => exact .plain trivial
  | writes r rest ih => exact .bind (.plain (uses_perform trivial)) fun _ => ih
  | calls service inner caught rest ihInner ihRest =>
    have hCall := Built.transactional service ihInner
    cases caught with
    | false => exact .bind hCall fun _ => ihRest
    | true =>
      refine .bind (.bind (.attempt hCall) fun r => ?_) fun _ => ihRest
      cases r <;> exact .plain trivial

namespace CallStack
variable {σ ρ : Type}

def next (γ : CallStack σ) (_ : ManagerWorld σ ρ) (o : MethodOp σ ρ)
    (r : Except Exception ((methods σ ρ).Res o)) : CallStack σ :=
  match o, r with
  | .step .callStarts, _ => { γ with running := γ.running + 1 }
  | .step .begin, .ok tx => { γ with opened := ⟨tx, none⟩ :: γ.opened }
  | .step (.setManager service manager), _ =>
    { γ with opened := γ.opened.modifyHead fun c =>
        { c with service := manager.map fun _ => service } }
  | .step (.commit _), _ => { γ with opened := γ.opened.tail }
  | .step (.rollback _), _ => { γ with opened := γ.opened.tail }
  | .step (.callSettles _), _ => { γ with running := γ.running - 1 }
  | _, _ => γ

def Allows (γ : CallStack σ) : StepOp σ → Prop
  | .begin => γ.opened.length < γ.running
  | .setManager _ (some tx) => ∃ rest, γ.opened = ⟨tx, none⟩ :: rest
  | .setManager service none => ∃ tx rest, γ.opened = ⟨tx, some service⟩ :: rest
  | .commit tx => ∃ rest, γ.opened = ⟨tx, none⟩ :: rest
  | .rollback tx => ∃ rest, γ.opened = ⟨tx, none⟩ :: rest
  | .callSettles _ => γ.opened.length < γ.running
  | _ => True

def protocol : Protocol (methods σ ρ) Exception (ManagerWorld σ ρ) (CallStack σ) where
  next := next
  allows γ o := match o with
    | .step o => γ.Allows o
    | _ => True

theorem depth_next {γ : CallStack σ} {o : MethodOp σ ρ} (w : ManagerWorld σ ρ)
    (r : Except Exception ((methods σ ρ).Res o)) (hAllows : protocol.allows γ o)
    (hDepth : γ.opened.length ≤ γ.running) :
    (next γ w o r).opened.length ≤ (next γ w o r).running := by
  cases o with
  | write repository => exact hDepth
  | other => exact hDepth
  | step o =>
    cases o with
    | callStarts => exact Nat.le_succ_of_le hDepth
    | managerOf service => exact hDepth
    | begin =>
      cases r with
      | ok tx => exact hAllows
      | error e => exact hDepth
    | setManager service manager =>
      simpa only [next, List.length_modifyHead] using hDepth
    | commit tx =>
      refine Nat.le_trans ?_ hDepth
      simp [next]
    | rollback tx =>
      refine Nat.le_trans ?_ hDepth
      simp [next]
    | callSettles ok => exact Nat.le_sub_one_of_lt hAllows

end CallStack

open CallStack

section Balanced

variable {σ ρ α β : Type} [DecidableEq σ] [DecidableEq ρ] {fields : σ → List ρ}

/-- Whatever other calls do meanwhile, the method leaves the stack of its thread as it found it. -/
def Balanced (fields : σ → List ρ) (p : Method σ ρ α) : Prop :=
  ∀ γ : CallStack σ, γ.opened.length ≤ γ.running →
    Obeys (wired fields) protocol (fun _ => True) γ p fun γ' _ => γ' = γ

theorem balanced_plain {p : Method σ ρ α} (hp : p.Uses MethodOp.Plain) : Balanced fields p := by
  intro γ _
  refine Obeys.of_uses (J := fun γ' : CallStack σ => γ' = γ) hp ?_ ?_ rfl
  · intro γ' o _ ho
    cases o with
    | step o => exact ho.elim
    | _ => trivial
  · intro γ' w o r hSame ho
    cases o with
    | step o => exact ho.elim
    | _ => exact hSame

theorem balanced_bind {p : Method σ ρ α} {f : α → Method σ ρ β} (hp : Balanced fields p)
    (hf : ∀ a, Balanced fields (f a)) : Balanced fields (p.bind f) := by
  intro γ hDepth
  refine Obeys.seq (hp γ hDepth) ?_ fun _ _ hSame => hSame
  rintro γ' a rfl
  exact hf a _ hDepth

theorem balanced_attempt {p : Method σ ρ α} (hp : Balanced fields p) :
    Balanced fields p.attempt := fun γ hDepth => Obeys.attempt.mpr (hp γ hDepth)

theorem obeys_step {γ : CallStack σ} {o : StepOp σ} (ho : γ.Allows o) :
    Obeys (wired fields) protocol (fun _ => True) γ
      (Prog.perform (S := methods σ ρ) (.step o)) fun γ' r =>
        ∃ w, r = (wired fields (.step o) w).1 ∧ γ' = CallStack.next γ w (.step o) r :=
  (Obeys.perform _).mpr ⟨ho, fun w _ => ⟨w, rfl, rfl⟩⟩

theorem obeys_step_then {γ : CallStack σ} {o : StepOp σ} {f : o.Res → Method σ ρ β}
    {Q : CallStack σ → Except Exception β → Prop} (ho : γ.Allows o)
    (hTotal : ∀ w : ManagerWorld σ ρ, ∃ a, (wired fields (.step o) w).1 = .ok a)
    (hf : ∀ w a, Obeys (wired fields) protocol (fun _ => True)
      (CallStack.next (ρ := ρ) γ w (.step o) (.ok a)) (f a) Q) :
    Obeys (wired fields) protocol (fun _ => True) γ
      ((Prog.perform (S := methods σ ρ) (.step o)).bind f) Q :=
  Obeys.perform_then ho hTotal hf

theorem balanced_callback {body : Method σ ρ α} (hBody : Balanced fields body) (service : σ)
    {γ : CallStack σ} (hDepth : γ.opened.length < γ.running) (tx : Tx) :
    Obeys (wired fields) protocol (fun _ => True) { γ with opened := ⟨tx, none⟩ :: γ.opened }
      (Method.steps.callback service body tx) fun γ' _ => γ' = γ := by
  refine obeys_step_then ⟨γ.opened, rfl⟩ (fun _ => ⟨_, rfl⟩) fun w _ => ?_
  refine Obeys.seq (R := fun γ' r =>
    γ' = { γ with opened := ⟨tx, some service⟩ :: γ.opened } ∧ r.isOk = true) ?_ ?_ ?_
  · refine Obeys.attempt.mpr (Obeys.mono (fun _ _ hSame => ⟨hSame, rfl⟩) (hBody _ ?_))
    exact hDepth
  · rintro γ₂ result ⟨rfl, _⟩
    refine obeys_step_then ⟨tx, γ.opened, rfl⟩ (fun _ => ⟨_, rfl⟩) fun w₂ _ => ?_
    cases result with
    | ok a =>
      -- whether the commit fails or not
      refine Obeys.seq (obeys_step ⟨γ.opened, rfl⟩) ?_ ?_
      · rintro γ₃ _ ⟨w₃, _, rfl⟩
        rfl
      · rintro γ₃ e ⟨w₃, _, rfl⟩
        rfl
    | error e => exact obeys_step_then ⟨γ.opened, rfl⟩ (fun _ => ⟨_, rfl⟩) fun _ _ => rfl
  · rintro γ₂ e ⟨_, hError⟩
    cases hError

theorem balanced_transactional {body : Method σ ρ α} (hBody : Balanced fields body) (service : σ) :
    Balanced fields (Method.steps.transactional service body) := by
  intro γ hDepth
  refine obeys_step_then trivial (fun _ => ⟨_, rfl⟩) fun w _ => ?_
  have hCalled : γ.opened.length < γ.running + 1 := Nat.lt_succ_of_le hDepth
  refine Obeys.seq (R := fun γ' r => γ' = { γ with running := γ.running + 1 } ∧
    r.isOk = true) ?_ ?_ ?_
  · refine Obeys.attempt.mpr (obeys_step_then trivial (fun _ => ⟨_, rfl⟩) fun w₂ manager => ?_)
    cases manager with
    | none =>
      refine Obeys.seq (obeys_step hCalled) ?_ ?_
      · rintro γ₃ tx ⟨w₃, _, rfl⟩
        refine Obeys.mono (fun _ _ hSame => ⟨hSame, rfl⟩) (balanced_callback hBody service ?_ tx)
        exact hCalled
      · rintro γ₃ e ⟨w₃, _, rfl⟩
        exact ⟨rfl, rfl⟩
    | some tx =>
      refine Obeys.mono (fun _ _ hSame => ⟨hSame, rfl⟩) (hBody _ ?_)
      exact Nat.le_of_lt hCalled
  · rintro γ₂ result ⟨rfl, _⟩
    exact obeys_step_then hCalled (fun _ => ⟨_, rfl⟩) fun _ _ => (Obeys.ofExcept _).mpr rfl
  · rintro γ₂ e ⟨_, hError⟩
    cases hError

/-- One case for each way to build a method. -/
theorem Built.balanced {p : Method σ ρ α} (h : Built p) : Balanced fields p := by
  induction h with
  | plain hp => exact balanced_plain hp
  | bind _ _ ihFirst ihRest => exact balanced_bind ihFirst ihRest
  | attempt _ ih => exact balanced_attempt ih
  | transactional service _ ih => exact balanced_transactional ih service

end Balanced

section Running

variable {ι ρ : Type} {txs : ι → List Tx} {j j' : Journal ρ}

/-- The transactions that the threads have open: all different, and none has ended. -/
structure Running (txs : ι → List Tx) (j : Journal ρ) : Prop where
  nodup : ∀ i, (txs i).Nodup
  apart : ∀ i k tx, tx ∈ txs i → tx ∈ txs k → i = k
  stands : ∀ i, ∀ tx ∈ txs i, j.Stands tx .running

theorem Running.extends (h : Running txs j) (hExtends : Journal.Extends none j j') :
    Running txs j' where
  nodup := h.nodup
  apart := h.apart
  stands i tx hTx := hExtends.status tx _ (fun hMoved => by cases hMoved) (h.stands i tx hTx)

variable [DecidableEq ι]

theorem Running.begin (h : Running txs j) (i : ι) :
    Running (Function.update txs i (j.status.length :: txs i)) j.begin := by
  have hFresh : ∀ k, j.status.length ∉ txs k := fun k hMem =>
    Journal.fresh_begin (h.stands k _ hMem) rfl
  have hMem : ∀ k tx, tx ∈ Function.update txs i (j.status.length :: txs i) k →
      (k = i ∧ tx = j.status.length) ∨ tx ∈ txs k := by
    intro k tx hTx
    by_cases hk : k = i
    · subst hk
      rw [Function.update_self] at hTx
      exact (List.mem_cons.mp hTx).imp_left fun hNew => ⟨rfl, hNew⟩
    · rw [Function.update_of_ne hk] at hTx
      exact .inr hTx
  refine ⟨fun k => ?_, fun k l tx hk hl => ?_, fun k tx hk => ?_⟩
  · by_cases hk : k = i
    · subst hk
      rw [Function.update_self]
      exact List.nodup_cons.mpr ⟨hFresh k, h.nodup k⟩
    · rw [Function.update_of_ne hk]
      exact h.nodup k
  · obtain ⟨rfl, rfl⟩ | hOld := hMem k tx hk <;> obtain ⟨rfl, hTx⟩ | hOld' := hMem l _ hl
    · rfl
    · exact absurd hOld' (hFresh l)
    · exact absurd (hTx ▸ hOld) (hFresh k)
    · exact h.apart k l tx hOld hOld'
  · obtain ⟨rfl, rfl⟩ | hk := hMem k tx hk
    · exact Journal.stands_begin j
    · exact (Journal.extends_begin j).status tx _ (fun hMoved => by cases hMoved) (h.stands k tx hk)

theorem Running.finish (h : Running txs j) {i : ι} {tx : Tx} {rest : List Tx}
    (hOpen : txs i = tx :: rest) (s : TxStatus) :
    Running (Function.update txs i rest) (j.finish tx s) := by
  have hNodup := h.nodup i
  rw [hOpen, List.nodup_cons] at hNodup
  have hOwn : tx ∈ txs i := by rw [hOpen]; exact List.mem_cons_self
  have hMem : ∀ k tx', tx' ∈ Function.update txs i rest k → tx' ∈ txs k ∧ tx' ≠ tx := by
    intro k tx' hTx'
    by_cases hk : k = i
    · subst hk
      rw [Function.update_self] at hTx'
      refine ⟨?_, fun hSame => hNodup.1 (hSame ▸ hTx')⟩
      rw [hOpen]
      exact List.mem_cons_of_mem _ hTx'
    · rw [Function.update_of_ne hk] at hTx'
      refine ⟨hTx', ?_⟩
      rintro rfl
      exact hk (h.apart k i tx' hTx' hOwn)
  refine ⟨fun k => ?_, fun k l tx' hk hl => ?_, fun k tx' hk => ?_⟩
  · by_cases hk : k = i
    · subst hk
      rw [Function.update_self]
      exact hNodup.2
    · rw [Function.update_of_ne hk]
      exact h.nodup k
  · exact h.apart k l tx' (hMem k tx' hk).1 (hMem l tx' hl).1
  · obtain ⟨hOld, hNe⟩ := hMem k tx' hk
    exact (Journal.extends_finish (h.stands i tx hOwn)).status tx' _
      (fun hMoved => hNe (Option.some.inj hMoved).symm) (h.stands k tx' hOld)

end Running

section Held

variable {ι σ ρ : Type} {fields : σ → List ρ} {opened : ι → List (OpenCall σ)} {m : Managers σ ρ}

/-- A manager that a field holds was put there by a call that has not yet emptied it. -/
structure Held (fields : σ → List ρ) (opened : ι → List (OpenCall σ)) (m : Managers σ ρ) : Prop where
  service : ∀ s tx, m.ofService s = some tx → ∃ i, ⟨tx, some s⟩ ∈ opened i
  repository : ∀ r tx, m.ofRepository r = some tx →
    ∃ s, r ∈ fields s ∧ ∃ i, ⟨tx, some s⟩ ∈ opened i

variable [DecidableEq ι] {i : ι} {stack : List (OpenCall σ)}

theorem mem_update_of_mem {s : σ} {tx : Tx}
    (hKeep : ⟨tx, some s⟩ ∈ opened i → ⟨tx, some s⟩ ∈ stack) (h : ∃ k, ⟨tx, some s⟩ ∈ opened k) :
    ∃ k, ⟨tx, some s⟩ ∈ Function.update opened i stack k := by
  obtain ⟨k, hk⟩ := h
  by_cases hi : k = i
  · subst hi
    exact ⟨k, by rw [Function.update_self]; exact hKeep hk⟩
  · exact ⟨k, by rw [Function.update_of_ne hi]; exact hk⟩

/-- As long as nothing leaves the stack whose service's fields are still set. -/
theorem Held.mono (h : Held fields opened m)
    (hKeep : ∀ tx s, ⟨tx, some s⟩ ∈ opened i → ⟨tx, some s⟩ ∈ stack) :
    Held fields (Function.update opened i stack) m where
  service s tx hHeld := mem_update_of_mem (hKeep tx s) (h.service s tx hHeld)
  repository r tx hHeld := by
    obtain ⟨s, hField, hOpen⟩ := h.repository r tx hHeld
    exact ⟨s, hField, mem_update_of_mem (hKeep tx s) hOpen⟩

variable [DecidableEq σ] [DecidableEq ρ]

theorem Held.set (h : Held fields opened m) {tx : Tx} {rest : List (OpenCall σ)}
    (hOpen : opened i = ⟨tx, none⟩ :: rest) (service : σ) :
    Held fields (Function.update opened i (⟨tx, some service⟩ :: rest))
      (m.set fields service (some tx)) := by
  have hKeep : ∀ tx' s, ⟨tx', some s⟩ ∈ opened i →
      (⟨tx', some s⟩ : OpenCall σ) ∈ ⟨tx, some service⟩ :: rest := by
    intro tx' s hMem
    rw [hOpen] at hMem
    obtain hSame | hRest := List.mem_cons.mp hMem
    · cases hSame
    · exact List.mem_cons_of_mem _ hRest
  have hOwn : ∃ k, (⟨tx, some service⟩ : OpenCall σ) ∈
      Function.update opened i (⟨tx, some service⟩ :: rest) k :=
    ⟨i, by rw [Function.update_self]; exact List.mem_cons_self⟩
  constructor
  · intro s tx' hHeld
    by_cases hs : s = service
    · subst hs
      rw [Managers.set_ofService] at hHeld
      cases hHeld
      exact hOwn
    · rw [Managers.set_ofService_of_ne hs] at hHeld
      exact mem_update_of_mem (hKeep tx' s) (h.service s tx' hHeld)
  · intro r tx' hHeld
    rw [Managers.set_ofRepository] at hHeld
    split at hHeld
    · rename_i hField
      cases hHeld
      exact ⟨service, hField, hOwn⟩
    · obtain ⟨s, hField, hOpen'⟩ := h.repository r tx' hHeld
      exact ⟨s, hField, mem_update_of_mem (hKeep tx' s) hOpen'⟩

theorem Held.empty (h : Held fields opened m) {tx : Tx} {service : σ} {rest : List (OpenCall σ)}
    (hOpen : opened i = ⟨tx, some service⟩ :: rest) :
    Held fields (Function.update opened i (⟨tx, none⟩ :: rest)) (m.set fields service none) := by
  have hKeep : ∀ tx' s, s ≠ service → ⟨tx', some s⟩ ∈ opened i →
      (⟨tx', some s⟩ : OpenCall σ) ∈ ⟨tx, none⟩ :: rest := by
    intro tx' s hs hMem
    rw [hOpen] at hMem
    obtain hSame | hRest := List.mem_cons.mp hMem
    · cases hSame
      exact absurd rfl hs
    · exact List.mem_cons_of_mem _ hRest
  constructor
  · intro s tx' hHeld
    by_cases hs : s = service
    · subst hs
      rw [Managers.set_ofService] at hHeld
      cases hHeld
    · rw [Managers.set_ofService_of_ne hs] at hHeld
      exact mem_update_of_mem (hKeep tx' s hs) (h.service s tx' hHeld)
  · intro r tx' hHeld
    rw [Managers.set_ofRepository] at hHeld
    split at hHeld
    · cases hHeld
    · rename_i hOther
      obtain ⟨s, hField, hOpen'⟩ := h.repository r tx' hHeld
      -- what another service has set is not among the fields that are emptied
      have hs : s ≠ service := fun hSame => hOther (hSame ▸ hField)
      exact ⟨s, hField, mem_update_of_mem (hKeep tx' s hs) hOpen'⟩

end Held

section Step

variable {ι σ ρ : Type} {fields : σ → List ρ} {opened : ι → List (OpenCall σ)}
  {w : ManagerWorld σ ρ} {γ : CallStack σ} {i : ι}

/-- The managers in the fields, and the transactions they are of. -/
structure Accounted (fields : σ → List ρ) (opened : ι → List (OpenCall σ))
    (w : ManagerWorld σ ρ) : Prop where
  held : Held fields opened w.managers
  running : Running (fun k => (opened k).map OpenCall.tx) w.journal

variable [DecidableEq ι]

theorem map_update (stack : List (OpenCall σ)) :
    (fun k => (Function.update opened i stack k).map OpenCall.tx) =
      Function.update (fun k => (opened k).map OpenCall.tx) i (stack.map OpenCall.tx) := by
  funext k
  exact Function.apply_update (fun _ stack => stack.map OpenCall.tx) opened i stack k

/-- Steps that leave stack and managers alone and write at most. -/
theorem Accounted.still (h : Accounted fields opened w) (hOpened : opened i = γ.opened)
    {w' : ManagerWorld σ ρ} (hManagers : w'.managers = w.managers)
    (hJournal : Journal.Extends none w.journal w'.journal) :
    Accounted fields (Function.update opened i γ.opened) w' := by
  rw [← hOpened, Function.update_eq_self]
  exact ⟨hManagers ▸ h.held, h.running.extends hJournal⟩

theorem Accounted.finish (h : Accounted fields opened w) {tx : Tx} {rest : List (OpenCall σ)}
    (hOpen : opened i = ⟨tx, none⟩ :: rest) (s : TxStatus) (fails : Nat → Bool) :
    Accounted fields (Function.update opened i rest)
      { w with journal := w.journal.finish tx s, fails } := by
  refine ⟨h.held.mono fun tx' s hMem => ?_, ?_⟩
  · rw [hOpen] at hMem
    obtain hSame | hRest := List.mem_cons.mp hMem
    · cases hSame
    · exact hRest
  · rw [map_update]
    exact h.running.finish (by rw [hOpen]; rfl) s

/-- The innermost call sets its service's fields, or empties them. -/
theorem Accounted.setHead (h : Accounted fields opened w) {tx : Tx} {before after : Option σ}
    {rest : List (OpenCall σ)} (hOpen : opened i = ⟨tx, before⟩ :: rest) {m : Managers σ ρ}
    (hHeld : Held fields (Function.update opened i (⟨tx, after⟩ :: rest)) m) :
    Accounted fields (Function.update opened i (⟨tx, after⟩ :: rest)) { w with managers := m } := by
  refine ⟨hHeld, ?_⟩
  have hTxs : (fun k => (Function.update opened i (⟨tx, after⟩ :: rest) k).map OpenCall.tx) =
      fun k => (opened k).map OpenCall.tx := by
    rw [map_update]
    exact Function.update_eq_self_iff.mpr (by rw [hOpen]; rfl)
  exact hTxs ▸ h.running

variable [DecidableEq σ] [DecidableEq ρ]

theorem Accounted.op {o : MethodOp σ ρ} (h : Accounted fields opened w)
    (hOpened : opened i = γ.opened) (hAllows : protocol.allows γ o) :
    Accounted fields
      (Function.update opened i (CallStack.next γ w o (wired fields o w).1).opened)
      (wired fields o w).2 := by
  cases o with
  | write r =>
    simp only [wired]
    split
    · exact h.still hOpened rfl (Journal.extends_refl _)
    · exact h.still hOpened rfl (Journal.extends_write _ _ _)
  | other =>
    simp only [wired]
    split <;> exact h.still hOpened rfl (Journal.extends_refl _)
  | step o =>
    cases o with
    | begin =>
      simp only [wired, ManagerWorld.execStep]
      split
      · exact h.still hOpened rfl (Journal.extends_refl _)
      · refine ⟨h.held.mono fun tx s hMem => ?_, ?_⟩
        · rw [hOpened] at hMem
          exact List.mem_cons_of_mem _ hMem
        · rw [map_update]
          have hBegun := h.running.begin i
          simp only [hOpened] at hBegun
          exact hBegun
    | setManager service manager =>
      cases manager with
      | some tx =>
        obtain ⟨rest, hOpen⟩ : ∃ rest, γ.opened = ⟨tx, none⟩ :: rest := hAllows
        have hStart := hOpened.trans hOpen
        simp only [CallStack.next, hOpen, List.modifyHead_cons, Option.map_some]
        exact h.setHead hStart (h.held.set hStart service)
      | none =>
        obtain ⟨tx, rest, hOpen⟩ : ∃ tx rest, γ.opened = ⟨tx, some service⟩ :: rest := hAllows
        have hStart := hOpened.trans hOpen
        simp only [CallStack.next, hOpen, List.modifyHead_cons, Option.map_none]
        exact h.setHead hStart (h.held.empty hStart)
    | commit tx =>
      obtain ⟨rest, hOpen⟩ : ∃ rest, γ.opened = ⟨tx, none⟩ :: rest := hAllows
      simp only [CallStack.next, hOpen, List.tail_cons, wired, ManagerWorld.execStep]
      split
      · exact h.finish (hOpened.trans hOpen) .rolledBack _
      · exact h.finish (hOpened.trans hOpen) .committed _
    | rollback tx =>
      obtain ⟨rest, hOpen⟩ : ∃ rest, γ.opened = ⟨tx, none⟩ :: rest := hAllows
      simp only [CallStack.next, hOpen, List.tail_cons]
      exact h.finish (hOpened.trans hOpen) .rolledBack _
    | _ => exact h.still hOpened rfl (Journal.extends_refl _)

end Step

section Calls

variable {ι σ ρ : Type} [DecidableEq σ] [DecidableEq ρ] {fields : σ → List ρ}

/-- Methods that run at the same time; a call made on the side by one of them is one of its own. -/
abbrev Methods (ι σ ρ : Type) :=
  Pool (methods σ ρ) Exception (ManagerWorld σ ρ) Unit (CallStack σ) ι

namespace Methods

def started (journal : Journal ρ) (fails : Nat → Bool) (method : ι → Method σ ρ Unit) :
    Methods ι σ ρ where
  world := .idle journal fails
  threads i := ⟨method i, {}⟩

/-- The manager is of a transaction whose call is still running. -/
structure IsOpen (p : Methods ι σ ρ) (tx : Tx) : Prop where
  call : ∃ i, 0 < (p.threads i).ghost.running ∧ ∃ c ∈ (p.threads i).ghost.opened, c.tx = tx
  stands : p.world.journal.Stands tx .running

def NoneRuns (p : Methods ι σ ρ) : Prop := ∀ i, (p.threads i).ghost.running = 0

structure Managed (fields : σ → List ρ) (p : Methods ι σ ρ) : Prop where
  obedient : p.Obedient (wired fields) protocol (fun _ => True) fun _ γ _ =>
    γ.opened.length ≤ γ.running
  depth : ∀ i, (p.threads i).ghost.opened.length ≤ (p.threads i).ghost.running
  accounted : Accounted fields (fun i => (p.threads i).ghost.opened) p.world

theorem managed_started (journal : Journal ρ) (fails : Nat → Bool) {method : ι → Method σ ρ Unit}
    (hBuilt : ∀ i, Built (method i)) : Managed fields (started journal fails method) where
  obedient i := by
    refine Obeys.mono ?_ ((hBuilt i).balanced {} (Nat.le_refl 0))
    rintro γ r rfl
    exact Nat.le_refl 0
  depth _ := Nat.le_refl 0
  accounted := by
    refine ⟨⟨fun _ _ hHeld => (by cases hHeld), fun _ _ hHeld => (by cases hHeld)⟩, ?_⟩
    exact ⟨fun _ => List.nodup_nil, fun _ _ _ hTx => (by cases hTx), fun _ _ hTx => (by cases hTx)⟩

theorem Managed.isOpen {p : Methods ι σ ρ} (h : Managed fields p) {tx : Tx} {service : σ}
    (hOpen : ∃ i, ⟨tx, some service⟩ ∈ (p.threads i).ghost.opened) : p.IsOpen tx := by
  obtain ⟨i, hMem⟩ := hOpen
  refine ⟨⟨i, Nat.lt_of_lt_of_le (List.length_pos_of_mem hMem) (h.depth i), _, hMem, rfl⟩, ?_⟩
  exact h.accounted.running.stands i tx (List.mem_map.mpr ⟨_, hMem, rfl⟩)

variable [DecidableEq ι]

def after (fields : σ → List ρ) (p : Methods ι σ ρ) (schedule : List ι) : Methods ι σ ρ :=
  p.run (wired fields) protocol schedule

theorem managed_step {p : Methods ι σ ρ} (h : Managed fields p) (i : ι) :
    Managed fields (p.step (wired fields) protocol i) := by
  have hObedient := Pool.obedient_step h.obedient trivial i
  obtain hIdle | ⟨o, k, hProg, hStep⟩ := Pool.step_cases (wired fields) protocol p i
  · rw [hIdle]
    exact h
  · have hAllows := h.obedient.allows hProg
    have hOp := h.accounted.op (i := i) rfl hAllows
    rw [hStep] at hObedient ⊢
    refine ⟨hObedient, fun j => ?_, ?_⟩
    · by_cases hj : j = i
      · subst hj
        simp only [Function.update_self]
        exact depth_next p.world _ hAllows (h.depth j)
      · simpa only [Function.update_of_ne hj] using h.depth j
    · have hOpened : (fun j => (Function.update p.threads i
          ⟨k (wired fields o p.world).1, protocol.next (p.threads i).ghost p.world o
            (wired fields o p.world).1⟩ j).ghost.opened) =
          Function.update (fun j => (p.threads j).ghost.opened) i
            (CallStack.next (p.threads i).ghost p.world o (wired fields o p.world).1).opened := by
        funext j
        exact Function.apply_update (fun _ t => t.ghost.opened) p.threads i _ j
      exact hOpened ▸ hOp

end Methods

open Methods

variable [DecidableEq ι]

/-- At every instant of every run each field is empty or holds the manager of a transaction whose
call is still running, and all are empty whenever no call runs. -/
theorem managers_of_open_calls (journal : Journal ρ) (fails : Nat → Bool)
    (method : ι → Method σ ρ Unit) (hBuilt : ∀ i, Built (method i)) (schedule : List ι) :
    let p := (started journal fails method).after fields schedule
    (∀ r tx, p.world.managers.ofRepository r = some tx → p.IsOpen tx) ∧
      (∀ s tx, p.world.managers.ofService s = some tx → p.IsOpen tx) ∧
      (p.NoneRuns → p.world.managers = .absent) := by
  intro p
  have hManaged : Managed fields p :=
    Pool.run_invariant (J := Managed fields) (fun _ i h => managed_step h i)
      (managed_started journal fails hBuilt) schedule
  have hRepositories : ∀ r tx, p.world.managers.ofRepository r = some tx → p.IsOpen tx := by
    intro r tx hHeld
    obtain ⟨s, _, hOpen⟩ := hManaged.accounted.held.repository r tx hHeld
    exact hManaged.isOpen hOpen
  have hServices : ∀ s tx, p.world.managers.ofService s = some tx → p.IsOpen tx :=
    fun s tx hHeld => hManaged.isOpen (hManaged.accounted.held.service s tx hHeld)
  refine ⟨hRepositories, hServices, fun hNone => ?_⟩
  have hClosed : ∀ tx, ¬p.IsOpen tx := by
    rintro tx ⟨⟨i, hRuns, _⟩, _⟩
    exact absurd (hNone i) (Nat.ne_of_gt hRuns)
  refine Managers.ext (funext fun s => ?_) (funext fun r => ?_)
  · exact Option.eq_none_iff_forall_ne_some.mpr fun tx hHeld => hClosed tx (hServices s tx hHeld)
  · exact Option.eq_none_iff_forall_ne_some.mpr fun tx hHeld => hClosed tx (hRepositories r tx hHeld)

/-- Two calls on one service that both open before either has set its manager. -/
theorem managers_of_open_calls_sample :
    let body : MethodBody Unit Unit := .calls () (.writes () .returns) false .returns
    let p := (started ⟨[], []⟩ (fun _ => false) fun _ : Bool => body.prog).after (fun _ => [()])
      [true, false, true, false, true, false, true, false, true, true, true, true]
    (∀ r tx, p.world.managers.ofRepository r = some tx → p.IsOpen tx) ∧
      (∀ s tx, p.world.managers.ofService s = some tx → p.IsOpen tx) ∧
      (p.NoneRuns → p.world.managers = .absent) :=
  managers_of_open_calls ⟨[], []⟩ (fun _ => false) _ (fun _ => MethodBody.built _) _

end Calls

end Manejaplus
