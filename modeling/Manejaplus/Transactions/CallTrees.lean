import Manejaplus.Transactions.MethodBody

/-! # Calls within calls

Which transaction the writes of a tree of calls belong to depends on the shape
of the tree and on the repositories that the services share. A repository that
an inner call has taken is without a manager when that call has ended.
-/
namespace Manejaplus
open Effect Prog ManagerWorld
set_option autoImplicit false

namespace MethodBody

section Definitions

variable {σ ρ : Type} [DecidableEq σ] [DecidableEq ρ] (fields : σ → List ρ)

/-- Of the repositories that hold a transaction's manager, those that still do while a call on
the service runs inside of calls on the services `around`. -/
def keeps (around : List σ) (held : List ρ) (service : σ) : List ρ :=
  if service ∈ around then held else held.filter (· ∉ fields service)

/-- Those that still do after the body. -/
def left : MethodBody σ ρ → List σ → List ρ → List ρ
  | .returns, _, held => held
  | .throws _, _, held => held
  | .writes _ rest, around, held => rest.left around held
  | .calls service inner caught rest, around, held =>
    let after := inner.left (service :: around) (keeps fields around held service)
    if inner.completes || caught then rest.left around after else after

/-- Every write that is carried out goes to a repository that then holds the manager. -/
def Through : MethodBody σ ρ → List σ → List ρ → Prop
  | .returns, _, _ => True
  | .throws _, _, _ => True
  | .writes repository rest, around, held => repository ∈ held ∧ rest.Through around held
  | .calls service inner caught rest, around, held =>
    let kept := keeps fields around held service
    inner.Through (service :: around) kept ∧
      ((inner.completes || caught) = true →
        rest.Through around (inner.left fields (service :: around) kept))

/-- Nothing is written. -/
def Silent (body : MethodBody σ ρ) (around : List σ) : Prop := body.Through fields around []

/-- Every write lies in one call that opens a transaction, goes to a repository of its service
before any other such call in it takes the repository away, and the call ends as told. -/
def Inside (completed : Bool) : MethodBody σ ρ → List σ → Prop
  | .returns, _ => False
  | .throws _, _ => False
  | .writes _ _, _ => False
  | .calls service inner caught rest, around =>
    (((service ∉ around ∧ inner.completes = completed ∧
          inner.Through fields (service :: around) (fields service)) ∨
        inner.Inside completed (service :: around)) ∧
      ((inner.completes || caught) = true → rest.Silent fields around)) ∨
    (inner.Silent fields (service :: around) ∧ (inner.completes || caught) = true ∧
      rest.Inside completed around)

instance decidableThrough : (body : MethodBody σ ρ) → (around : List σ) → (held : List ρ) →
    Decidable (body.Through fields around held)
  | .returns, _, _ => isTrue trivial
  | .throws _, _, _ => isTrue trivial
  | .writes repository rest, around, held =>
    have := decidableThrough rest around held
    inferInstanceAs (Decidable (repository ∈ held ∧ _))
  | .calls service inner _ rest, around, held =>
    have := decidableThrough inner (service :: around) (keeps fields around held service)
    have := decidableThrough rest around
      (inner.left fields (service :: around) (keeps fields around held service))
    inferInstanceAs (Decidable (_ ∧ (_ → _)))

instance decidableInside (completed : Bool) : (body : MethodBody σ ρ) → (around : List σ) →
    Decidable (body.Inside fields completed around)
  | .returns, _ => isFalse id
  | .throws _, _ => isFalse id
  | .writes _ _, _ => isFalse id
  | .calls service inner _ rest, around =>
    have := decidableInside completed inner (service :: around)
    have := decidableInside completed rest around
    have := decidableThrough fields inner (service :: around) []
    have := decidableThrough fields rest around []
    inferInstanceAs (Decidable ((((_ ∧ _ ∧ _) ∨ _) ∧ (_ → rest.Through fields around [])) ∨
      (inner.Through fields (service :: around) [] ∧ _ ∧ _)))

end Definitions

end MethodBody

namespace ManagerWorld

section Writes

variable {σ ρ : Type} {w w' w'' : ManagerWorld σ ρ}

/-- The repositories with the manager of the transaction. -/
def Holds (w : ManagerWorld σ ρ) (tx : Tx) (held : List ρ) : Prop :=
  ∀ r, w.managers.ofRepository r = some tx ↔ r ∈ held

/-- The transaction was not opened in between. -/
def Apart (w w' : ManagerWorld σ ρ) (tx : Nat) : Prop :=
  tx < w.journal.status.length ∨ w'.journal.status.length ≤ tx

theorem Apart.split {tx : Tx} (hApart : Apart w w'' tx) (h : Framed w w') (h' : Framed w' w'') :
    Apart w w' tx ∧ Apart w' w'' tx := by
  have hEarlier := h.length_le
  have hLater := h'.length_le
  obtain hOld | hNew := hApart
  · exact ⟨.inl hOld, .inl (Nat.lt_of_lt_of_le hOld hEarlier)⟩
  · exact ⟨.inr (Nat.le_trans hLater hNew), .inr hNew⟩

/-- All that was written in between belongs to the transaction. -/
def AllIn (tx : Tx) (w w' : ManagerWorld σ ρ) : Prop :=
  ∀ e ∈ w.journal.since w'.journal, e.manager = some tx

theorem allIn_refl (tx : Tx) : AllIn tx w w := by
  intro e he
  rw [Journal.since_of_entries (List.append_nil _).symm] at he
  cases he

theorem allIn_trans (h : Framed w w') (h' : Framed w' w'') (tx : Tx) :
    AllIn tx w w'' ↔ AllIn tx w w' ∧ AllIn tx w' w'' := by
  rw [AllIn, h.since h']
  exact List.forall_mem_append

theorem allIn_wrote (tx : Tx) (r : ρ) :
    AllIn tx w (w.wrote r) ↔ w.managers.ofRepository r = some tx := by
  rw [AllIn, Journal.since_of_entries (show (w.wrote r).journal.entries = _ ++ _ from rfl)]
  exact List.forall_mem_singleton

/-- All managers are of transactions that have been opened. -/
def Bounded (w : ManagerWorld σ ρ) : Prop :=
  ∀ r tx, w.managers.ofRepository r = some tx → tx < w.journal.status.length

theorem Framed.bounded (h : Framed w w') (hBounded : Bounded w) : Bounded w' :=
  fun r tx hHeld => Nat.lt_of_lt_of_le (hBounded r tx (h.repositories r tx hHeld)) h.length_le

theorem Framed.holds_none (h : Framed w w') (hBounded : Bounded w) {tx : Tx}
    (hFrom : w.journal.status.length ≤ tx) : Holds w' tx [] :=
  fun r => iff_of_false
    (fun hHeld => Nat.not_lt.mpr hFrom (hBounded r tx (h.repositories r tx hHeld))) List.not_mem_nil

/-- The transaction was opened in between, has ended as told, and has all that was written. -/
structure OpenedIn (completed : Bool) (w w' : ManagerWorld σ ρ) (tx : Nat) : Prop where
  opened : w.journal.status.length ≤ tx
  stands : w'.journal.Stands tx (fate completed)
  all : AllIn tx w w'

theorem OpenedIn.lt {completed : Bool} {tx : Nat} (h : OpenedIn completed w w' tx) :
    tx < w'.journal.status.length := (List.getElem?_eq_some_iff.mp h.stands).1

theorem not_openedIn_refl {completed : Bool} : ¬∃ tx, OpenedIn completed w w tx := by
  rintro ⟨tx, hOpened⟩
  exact Nat.not_lt.mpr hOpened.opened hOpened.lt

theorem durable_of_fate {j : Journal ρ} {tx : Tx} {n : Nat} {completed : Bool}
    (hUnder : j.Under (some tx) n) (hStands : j.Stands tx (fate completed)) :
    j.durable n = completed := by
  rw [Journal.durable_some hUnder hStands]
  cases completed <;> rfl

theorem fate_of_durable {j : Journal ρ} {tx : Tx} {n : Nat} {s : TxStatus}
    (hUnder : j.Under (some tx) n) (hStands : j.Stands tx s) (hEnded : s ≠ .running) :
    s = fate (j.durable n) := by
  rw [Journal.durable_some hUnder hStands]
  cases s with
  | running => exact absurd rfl hEnded
  | committed => rfl
  | rolledBack => rfl

end Writes

section Opening

variable {σ ρ : Type} [DecidableEq σ] [DecidableEq ρ] {fields : σ → List ρ}
  {w w' : ManagerWorld σ ρ} {service : σ}

theorem Apart.opening {tx : Tx} (hApart : Apart w w' tx)
    (hLength : (w.opening fields service).journal.status.length ≤ w'.journal.status.length) :
    tx ≠ w.journal.status.length ∧ Apart (w.opening fields service) w' tx := by
  have hOpened := lt_opening_length fields service w
  obtain hOld | hNew := hApart
  · exact ⟨Nat.ne_of_lt hOld, .inl (Nat.lt_trans hOld hOpened)⟩
  · have hAfter : w.journal.status.length < tx :=
      Nat.lt_of_lt_of_le hOpened (Nat.le_trans hLength hNew)
    exact ⟨(Nat.ne_of_lt hAfter).symm, .inr hNew⟩

theorem Holds.opening {tx : Tx} {held : List ρ} (h : Holds w tx held)
    (hOther : tx ≠ w.journal.status.length) :
    Holds (w.opening fields service) tx (held.filter (· ∉ fields service)) := by
  intro r
  simp only [ManagerWorld.opening, Managers.set_ofRepository, List.mem_filter, decide_eq_true_eq]
  split
  · rename_i hField
    exact iff_of_false (fun hSame => hOther (Option.some.inj hSame).symm) fun hr => hr.2 hField
  · rename_i hField
    exact (h r).trans (and_iff_left hField).symm

theorem Holds.closing {tx tx' : Tx} {held : List ρ} (h : Holds w tx held) {completed : Bool}
    (hKept : ∀ r ∈ held, r ∉ fields service) :
    Holds (w.closing fields service tx' completed) tx held := by
  intro r
  simp only [ManagerWorld.closing, Managers.set_ofRepository]
  split
  · rename_i hField
    exact iff_of_false (fun hSame => by cases hSame) fun hr => hKept r hr hField
  · exact h r

theorem Bounded.opening (hBounded : Bounded w) : Bounded (w.opening fields service) := by
  intro r tx hHeld
  rw [opening_length]
  simp only [ManagerWorld.opening, Managers.set_ofRepository] at hHeld
  split at hHeld
  · cases hHeld
    exact Nat.lt_succ_self _
  · exact Nat.lt_succ_of_lt (hBounded r tx hHeld)

/-- What is opened now is held by the repositories of its service. -/
theorem Bounded.holds (hBounded : Bounded w) :
    Holds (w.opening fields service) w.journal.status.length (fields service) := by
  intro r
  simp only [ManagerWorld.opening, Managers.set_ofRepository]
  split
  · rename_i hField
    exact iff_of_true rfl hField
  · rename_i hField
    exact iff_of_false (fun hHeld => Nat.lt_irrefl _ (hBounded r _ hHeld)) hField

end Opening

end ManagerWorld

namespace MethodBody

section Traces

variable {σ ρ : Type} [DecidableEq σ] [DecidableEq ρ] {fields : σ → List ρ}
  {w : ManagerWorld σ ρ} {around : List σ} {service : σ} {inner : MethodBody σ ρ}

theorem left_subset (body : MethodBody σ ρ) {held : List ρ} :
    body.left fields around held ⊆ held := by
  induction body generalizing around held with
  | returns => exact List.Subset.refl _
  | throws e => exact List.Subset.refl _
  | writes r rest ih => exact ih
  | calls service inner caught rest ihInner ihRest =>
    have hKept : keeps fields around held service ⊆ held := by
      rw [keeps]
      split
      · exact List.Subset.refl _
      · exact List.filter_sublist.subset
    have hAfter : inner.left fields (service :: around) (keeps fields around held service) ⊆ held :=
      List.Subset.trans ihInner hKept
    simp only [left]
    split
    · exact List.Subset.trans ihRest hAfter
    · exact hAfter

/-- What a body does with a transaction that is not opened in it. -/
def Traces (fields : σ → List ρ) (body : MethodBody σ ρ) : Prop :=
  ∀ w around tx held, w.Calm → Around w around → Holds w tx held →
    Apart w (body.runs fields w).2 tx →
    (AllIn tx w (body.runs fields w).2 ↔ body.Through fields around held) ∧
      Holds (body.runs fields w).2 tx (body.left fields around held)

theorem called_through (service : σ) (hTraces : inner.Traces fields) (hCalm : w.Calm)
    (hAround : Around w around) {tx : Tx} {held : List ρ} (hHolds : Holds w tx held)
    (hApart : Apart w (inner.called fields service w).2 tx) :
    let kept := keeps fields around held service
    (AllIn tx w (inner.called fields service w).2 ↔ inner.Through fields (service :: around) kept) ∧
      Holds (inner.called fields service w).2 tx (inner.left fields (service :: around) kept) := by
  by_cases hService : service ∈ around
  · rw [called_joined hAround hService] at hApart ⊢
    rw [keeps, if_pos hService]
    exact hTraces w _ tx held hCalm (hAround.joined hService) hHolds hApart
  · have hCalled := called_opened (ends fields inner) hCalm hAround hService
    have hLength := ((ends fields inner) (w.opening fields service) _ hCalm hAround.opening).2.length_le
    simp only [hCalled] at hApart ⊢
    rw [keeps, if_neg hService]
    have hClosed : ((inner.runs fields (w.opening fields service)).2.closing fields service
        w.journal.status.length inner.completes).journal.status.length =
      (inner.runs fields (w.opening fields service)).2.journal.status.length := List.length_set
    rw [Apart, hClosed] at hApart
    obtain ⟨hOther, hApart'⟩ := Apart.opening hApart hLength
    obtain ⟨hAll, hLeft⟩ := hTraces (w.opening fields service) (service :: around) tx
      (held.filter (· ∉ fields service)) hCalm hAround.opening (hHolds.opening hOther) hApart'
    refine ⟨hAll, hLeft.closing fun r hr => ?_⟩
    have hKept := left_subset inner hr
    exact of_decide_eq_true (List.mem_filter.mp hKept).2

theorem traces (fields : σ → List ρ) (body : MethodBody σ ρ) : body.Traces fields := by
  induction body with
  | returns => exact fun w _ tx _ _ _ hHolds _ => ⟨iff_of_true (allIn_refl tx) trivial, hHolds⟩
  | throws e => exact fun w _ tx _ _ _ hHolds _ => ⟨iff_of_true (allIn_refl tx) trivial, hHolds⟩
  | writes r rest ih =>
    intro w around tx held hCalm hAround hHolds hApart
    have hWrote := framed_wrote hCalm r
    have hRest := (ends fields rest _ around hWrote.calm (hWrote.keepsAround hAround)).2
    rw [runs_writes hCalm] at hApart ⊢
    obtain ⟨hAll, hLeft⟩ := ih _ around tx held hWrote.calm (hWrote.keepsAround hAround) hHolds hApart
    refine ⟨?_, hLeft⟩
    rw [allIn_trans hWrote hRest, allIn_wrote, hHolds r, hAll]
    rfl
  | calls service inner caught rest ihInner ihRest =>
    intro w around tx held hCalm hAround hHolds hApart
    obtain ⟨hCompletes, hCall⟩ := called_ends service (ends fields inner) hCalm hAround
    simp only [runs_calls, hCompletes, Through, left] at hApart ⊢
    cases hGoesOn : inner.completes || caught with
    | true =>
      have hRest := (ends fields rest _ around hCall.calm (hCall.keepsAround hAround)).2
      simp only [hGoesOn, if_true, forall_const] at hApart ⊢
      obtain ⟨hApartCall, hApartRest⟩ := hApart.split hCall hRest
      obtain ⟨hAllCall, hLeftCall⟩ := called_through service ihInner hCalm hAround hHolds hApartCall
      obtain ⟨hAllRest, hLeftRest⟩ := ihRest _ around tx _ hCall.calm (hCall.keepsAround hAround)
        hLeftCall hApartRest
      exact ⟨(allIn_trans hCall hRest tx).trans (and_congr hAllCall hAllRest), hLeftRest⟩
    | false =>
      simp only [hGoesOn, Bool.false_eq_true, if_false, false_imp_iff, and_true] at hApart ⊢
      exact called_through service ihInner hCalm hAround hHolds hApart

theorem keeps_nil : keeps fields around [] service = [] := by
  rw [keeps]
  split <;> rfl

/-- Without a repository that has its manager, a transaction gets all the writes if there are none. -/
theorem called_silent (hCalm : w.Calm) (hAround : Around w around) {tx : Tx}
    (hNone : Holds w tx []) (hApart : Apart w (inner.called fields service w).2 tx) :
    AllIn tx w (inner.called fields service w).2 ↔ inner.Silent fields (service :: around) := by
  have hThrough := (called_through service (traces fields inner) hCalm hAround hNone hApart).1
  rwa [keeps_nil] at hThrough

/-- Which bodies have all they write in one transaction opened in it. -/
def Encloses (fields : σ → List ρ) (body : MethodBody σ ρ) : Prop :=
  ∀ w around completed, w.Calm → Around w around → Bounded w →
    ((∃ tx, OpenedIn completed w (body.runs fields w).2 tx) ↔ body.Inside fields completed around)

theorem called_inside (service : σ) (hEncloses : inner.Encloses fields) (hCalm : w.Calm)
    (hAround : Around w around) (hBounded : Bounded w) (completed : Bool) :
    (∃ tx, OpenedIn completed w (inner.called fields service w).2 tx) ↔
      (service ∉ around ∧ inner.completes = completed ∧
          inner.Through fields (service :: around) (fields service)) ∨
        inner.Inside fields completed (service :: around) := by
  by_cases hService : service ∈ around
  · rw [called_joined hAround hService, hEncloses w _ completed hCalm (hAround.joined hService) hBounded]
    exact (or_iff_right fun hOwn => hOwn.1 hService).symm
  · have hNew := lt_opening_length fields service w
    have hOwn := (traces fields inner (w.opening fields service) (service :: around) _ (fields service) hCalm
      hAround.opening hBounded.holds (.inl hNew)).1
    have hDeeper := hEncloses (w.opening fields service) (service :: around) completed hCalm
      hAround.opening hBounded.opening
    have hEnd : (inner.called fields service w).2.journal.Stands w.journal.status.length
        (fate inner.completes) := called_stands hCalm hAround hService inner
    rw [called_opened (ends fields inner) hCalm hAround hService] at hEnd ⊢
    constructor
    · rintro ⟨tx, hFrom, hStands, hAll⟩
      by_cases hSame : tx = w.journal.status.length
      · subst hSame
        have hFate := hEnd.symm.trans hStands
        exact .inl ⟨hService, fate_inj (Option.some.inj hFate), hOwn.mp hAll⟩
      · refine .inr (hDeeper.mp ⟨tx, ?_, ?_, hAll⟩)
        · rw [opening_length]
          exact Nat.lt_of_le_of_ne hFrom fun h => hSame h.symm
        · exact (Journal.stands_finish_of_ne fun h => hSame h.symm).mp hStands
    · rintro (⟨_, rfl, hThrough⟩ | hInside)
      · exact ⟨_, Nat.le_refl _, hEnd, hOwn.mpr hThrough⟩
      · obtain ⟨tx, hFrom, hStands, hAll⟩ := hDeeper.mpr hInside
        have hOther : w.journal.status.length < tx := Nat.lt_of_lt_of_le hNew hFrom
        refine ⟨tx, Nat.le_of_lt hOther, ?_, hAll⟩
        exact (Journal.stands_finish_of_ne (Nat.ne_of_lt hOther)).mpr hStands

theorem encloses (fields : σ → List ρ) (body : MethodBody σ ρ) : body.Encloses fields := by
  induction body with
  | returns => exact fun w _ _ _ _ _ => iff_of_false not_openedIn_refl id
  | throws e => exact fun w _ _ _ _ _ => iff_of_false not_openedIn_refl id
  | writes r rest _ =>
    intro w around completed hCalm hAround hBounded
    have hWrote := framed_wrote hCalm r
    have hRest := (ends fields rest _ around hWrote.calm (hWrote.keepsAround hAround)).2
    rw [runs_writes hCalm]
    refine iff_of_false ?_ id
    rintro ⟨tx, hFrom, _, hAll⟩
    -- the first write goes through a manager that was there before
    have hHeld := (allIn_wrote tx r).mp ((allIn_trans hWrote hRest tx).mp hAll).1
    exact Nat.not_lt.mpr hFrom (hBounded r tx hHeld)
  | calls service inner caught rest ihInner ihRest =>
    -- the transaction was opened before the rest or in it; the other part then writes nothing
    intro w around completed hCalm hAround hBounded
    obtain ⟨hCompletes, hCall⟩ := called_ends service (ends fields inner) hCalm hAround
    have hCalled := called_inside service ihInner hCalm hAround hBounded completed
    simp only [runs_calls, hCompletes, Inside, ← hCalled]
    cases hGoesOn : inner.completes || caught with
    | false => simp
    | true =>
      have hRest := (ends fields rest _ around hCall.calm (hCall.keepsAround hAround)).2
      have hAround' := hCall.keepsAround hAround
      have hSilentCall : ∀ tx, (inner.called fields service w).2.journal.status.length ≤ tx →
          (AllIn tx w (inner.called fields service w).2 ↔
            inner.Silent fields (service :: around)) :=
        fun tx hLater => called_silent hCalm hAround
          ((framed_refl hCalm).holds_none hBounded (Nat.le_trans hCall.length_le hLater)) (.inr hLater)
      have hSilentRest : ∀ tx, w.journal.status.length ≤ tx →
          tx < (inner.called fields service w).2.journal.status.length →
          (AllIn tx (inner.called fields service w).2
            (rest.runs fields (inner.called fields service w).2).2 ↔ rest.Silent fields around) :=
        fun tx hFrom hBefore => (traces fields rest _ around tx [] hCall.calm hAround'
          (hCall.holds_none hBounded hFrom) (.inl hBefore)).1
      have hLater := ihRest _ around completed hCall.calm hAround' (hCall.bounded hBounded)
      simp only [if_true, forall_const, true_and, ← hLater]
      constructor
      · rintro ⟨tx, hFrom, hStands, hAll⟩
        obtain ⟨hAllCall, hAllRest⟩ := (allIn_trans hCall hRest tx).mp hAll
        by_cases hBefore : tx < (inner.called fields service w).2.journal.status.length
        · exact .inl ⟨⟨tx, hFrom, (hRest.stands hBefore _).mp hStands, hAllCall⟩,
            (hSilentRest tx hFrom hBefore).mp hAllRest⟩
        · have hAfter := Nat.not_lt.mp hBefore
          exact .inr ⟨(hSilentCall tx hAfter).mp hAllCall, tx, hAfter, hStands, hAllRest⟩
      · rintro (⟨⟨tx, hOpened⟩, hSilent⟩ | ⟨hSilent, tx, hOpened⟩)
        · have hAllRest := (hSilentRest tx hOpened.opened hOpened.lt).mpr hSilent
          exact ⟨tx, hOpened.opened, (hRest.stands hOpened.lt _).mpr hOpened.stands,
            (allIn_trans hCall hRest tx).mpr ⟨hOpened.all, hAllRest⟩⟩
        · have hAllCall := (hSilentCall tx hOpened.opened).mpr hSilent
          exact ⟨tx, Nat.le_trans hCall.length_le hOpened.opened, hOpened.stands,
            (allIn_trans hCall hRest tx).mpr ⟨hAllCall, hOpened.all⟩⟩

end Traces

section OneTransaction

variable {σ ρ : Type} [DecidableEq σ] [DecidableEq ρ]

/-- All that has been written since belongs to one transaction, and is in the database if and only
if the call has returned. -/
structure OneFate (j j' : Journal ρ) (returned : Bool) : Prop where
  one : ∃ tx, ∀ n, j.entries.length ≤ n → n < j'.entries.length → j'.Under (some tx) n
  fate : ∀ n, j.entries.length ≤ n → n < j'.entries.length → j'.durable n = returned

/-- Every write lies in one call that opens a transaction, goes to a repository of its service
before any other such call in it takes the repository away, and that call ends as the outermost
one does. -/
def InOneCall (fields : σ → List ρ) (service : σ) (body : MethodBody σ ρ) : Prop :=
  body.Through fields [service] (fields service) ∨ body.Inside fields body.completes [service]

instance (fields : σ → List ρ) (service : σ) (body : MethodBody σ ρ) :
    Decidable (body.InOneCall fields service) := inferInstanceAs (Decidable (_ ∨ _))

variable {fields : σ → List ρ} {w : ManagerWorld σ ρ} {around : List σ} {service : σ}
  {body : MethodBody σ ρ}

/-- Without a manager in any field, what a call writes belongs to no transaction but its own. -/
theorem opened_of_allIn (hCalm : w.Calm) (hAround : Around w around) (hNone : ∀ tx, Holds w tx [])
    {tx n : Nat} (hAll : AllIn tx w (body.called fields service w).2)
    (hFrom : w.journal.entries.length ≤ n)
    (hTo : n < (body.called fields service w).2.journal.entries.length) :
    w.journal.status.length ≤ tx ∧
      tx < (body.called fields service w).2.journal.status.length := by
  by_contra hOutside
  have hApart : Apart w (body.called fields service w).2 tx := by
    rw [not_and_or, Nat.not_le, Nat.not_lt] at hOutside
    exact hOutside
  -- a silent body writes in any transaction that is not its own, so it does not write
  let other := (body.called fields service w).2.journal.status.length + tx + 1
  have hOther : AllIn other w (body.called fields service w).2 :=
    (called_silent hCalm hAround (hNone other) (.inr (by omega))).mpr
      ((called_silent hCalm hAround (hNone tx) hApart).mp hAll)
  have hUnder := Journal.forall_since.mp hAll n hFrom hTo
  have hUnder' := Journal.forall_since.mp hOther n hFrom hTo
  rw [Journal.Under, hUnder] at hUnder'
  have hSame : tx = other := Option.some.inj (Option.some.inj hUnder')
  omega

/-- A call shares one fate with all that is written in it exactly when the tree of calls within it
is such. -/
theorem one_fate_iff (fields : σ → List ρ) (journal : Journal ρ) (service : σ)
    (body : MethodBody σ ρ) :
    let outcome := body.called fields service (.idle journal fun _ => false)
    OneFate journal outcome.2.journal outcome.1.isOk ↔ body.InOneCall fields service := by
  let w : ManagerWorld σ ρ := .idle journal fun _ => false
  have hCalm : w.Calm := rfl
  have hAround : Around w [] := fun s => iff_of_false (fun h => by cases h) List.not_mem_nil
  have hNone : ∀ tx, Holds w tx [] := fun tx r => iff_of_false (fun h => by cases h) List.not_mem_nil
  obtain ⟨hCompletes, hCall⟩ := called_ends service (ends fields body) hCalm hAround
  have hInside : (∃ tx, OpenedIn body.completes w (body.called fields service w).2 tx) ↔
      body.InOneCall fields service := by
    rw [called_inside service (encloses fields body) hCalm hAround (fun r tx h => by cases h)]
    simp [InOneCall]
  change OneFate journal (body.called fields service w).2.journal
    (body.called fields service w).1.isOk ↔ _
  rw [hCompletes, ← hInside]
  constructor
  · rintro ⟨⟨tx, hUnder⟩, hFate⟩
    have hAll : AllIn tx w (body.called fields service w).2 := Journal.forall_since.mpr hUnder
    by_cases hWrites : w.journal.entries.length < (body.called fields service w).2.journal.entries.length
    · obtain ⟨hFrom, hTo⟩ := opened_of_allIn hCalm hAround hNone hAll (Nat.le_refl _) hWrites
      obtain ⟨s, hEnded, hStands⟩ := hCall.ended hFrom hTo
      have hSame := fate_of_durable (hUnder _ (Nat.le_refl _) hWrites) hStands hEnded
      rw [hFate _ (Nat.le_refl _) hWrites] at hSame
      exact ⟨tx, hFrom, hSame ▸ hStands, hAll⟩
    · refine ⟨journal.status.length, Nat.le_refl _,
        called_stands hCalm hAround List.not_mem_nil body, Journal.forall_since.mpr ?_⟩
      exact fun n hFrom hTo => absurd (Nat.lt_of_le_of_lt hFrom hTo) hWrites
  · rintro ⟨tx, hOpened⟩
    have hUnder := Journal.forall_since.mp hOpened.all
    exact ⟨⟨tx, hUnder⟩, fun n hFrom hTo => durable_of_fate (hUnder n hFrom hTo) hOpened.stands⟩

/-- Calls on one service all join, and caught exceptions within them undo nothing. -/
example : InOneCall (fun s : Service => [s.repository]) .user
    (.calls .user (.writes .user (.throws .external)) true (.writes .user .returns)) := by decide

/-- `AuthService` has the user repository as well: after a call of it, what `UserService` writes is
there for good, although its own call throws. -/
theorem writes_after_call :
    let outcome := called (fun s : Service => [s.repository]) .user
      (.calls .auth .returns false (.writes .user (.throws .external)))
      (.idle ⟨[], []⟩ fun _ => false)
    outcome.1.isOk = false ∧ outcome.2.journal.durable 0 = true ∧
      ¬OneFate ⟨[], []⟩ outcome.2.journal outcome.1.isOk := by
  refine ⟨rfl, rfl, fun hFate => ?_⟩
  have hNever := hFate.fate 0 (Nat.le_refl _) (by decide)
  cases hNever

end OneTransaction

end MethodBody

end Manejaplus
