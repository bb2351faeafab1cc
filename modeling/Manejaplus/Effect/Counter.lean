import Mathlib.Data.Fintype.Card
import Mathlib.Tactic.Common

/-! # A counter that is read, and written later

Each client reads the value once and later writes what it has read plus one.
The value never gets ahead of the number of writes, and once it has fallen
behind, so has every client that still holds a value.
-/
namespace Effect
set_option autoImplicit false

namespace Counter

inductive Phase where
  | idle
  | holds (n : Nat)
  | written
  deriving DecidableEq

inductive Act where
  | rest
  | read
  | write
  deriving DecidableEq

end Counter

open Counter

structure Counter (ι : Type) where
  value : Nat
  phase : ι → Phase

namespace Counter
variable {ι : Type}

def Enabled (c : Counter ι) (i : ι) : Act → Prop
  | .rest => True
  | .read => c.phase i = .idle
  | .write => ∃ n, c.phase i = .holds n

/-- A client that writes has read what is still the value. -/
def Fresh (c : Counter ι) (i : ι) (a : Act) : Prop :=
  a = .write → c.phase i = .holds c.value

instance (c : Counter ι) (i : ι) (a : Act) : Decidable (c.Fresh i a) :=
  inferInstanceAs (Decidable (_ → _))

section Writes
variable [Fintype ι]

def writes (c : Counter ι) : Nat := (Finset.univ.filter fun i => c.phase i = .written).card

def Exact (start : Nat) (c : Counter ι) : Prop := c.value = start + c.writes

/-- No client and no value is ahead of the writes, nor is a client ahead of a value left behind. -/
structure Bounded (start : Nat) (c : Counter ι) : Prop where
  value : c.value ≤ start + c.writes
  held : ∀ i n, c.phase i = .holds n → n ≤ start + c.writes
  behind : c.value < start + c.writes → ∀ i n, c.phase i = .holds n → n < start + c.writes

theorem writes_of_none {c : Counter ι} (h : ∀ i, c.phase i ≠ .written) : c.writes = 0 := by
  rw [writes, Finset.card_eq_zero, Finset.filter_eq_empty_iff]
  exact fun i _ => h i

theorem writes_of_all {c : Counter ι} (h : ∀ i, c.phase i = .written) :
    c.writes = Fintype.card ι := by
  rw [writes, Finset.filter_true_of_mem fun i _ => h i, Finset.card_univ]

theorem bounded_start {c : Counter ι} (h : ∀ i, c.phase i = .idle) : c.Bounded c.value where
  value := Nat.le_add_right _ _
  held i n hi := by rw [h i] at hi; cases hi
  behind _ i n hi := by rw [h i] at hi; cases hi

end Writes

variable [DecidableEq ι]

def act (c : Counter ι) (i : ι) : Act → Counter ι
  | .rest => c
  | .read => { c with phase := Function.update c.phase i (.holds c.value) }
  | .write => match c.phase i with
    | .holds n => ⟨n + 1, Function.update c.phase i .written⟩
    | _ => c

theorem act_write {c : Counter ι} {i : ι} {n : Nat} (h : c.phase i = .holds n) :
    c.act i .write = ⟨n + 1, Function.update c.phase i .written⟩ := by
  simp only [act, h]

/-- What a client holds after a step, it held before or has just read. -/
theorem holds_act {c : Counter ι} {i j : ι} {a : Act} {n : Nat}
    (h : (c.act i a).phase j = .holds n) :
    c.phase j = .holds n ∨ (a = .read ∧ n = c.value) := by
  by_cases hj : j = i
  · subst hj
    cases a with
    | rest => exact .inl h
    | read =>
      simp only [act, Function.update_self, Phase.holds.injEq] at h
      exact .inr ⟨rfl, h.symm⟩
    | write =>
      simp only [act] at h
      split at h
      · simp at h
      · exact .inl h
  · cases a with
    | rest => exact .inl h
    | read => exact .inl (by simpa [act, Function.update_of_ne hj] using h)
    | write =>
      simp only [act] at h
      split at h
      · exact .inl (by simpa [Function.update_of_ne hj] using h)
      · exact .inl h

variable [Fintype ι]

theorem writes_read {c : Counter ι} {i : ι} (h : c.phase i = .idle) :
    (c.act i .read).writes = c.writes := by
  refine congrArg Finset.card (Finset.filter_congr ?_)
  intro j _
  by_cases hj : j = i
  · simp [act, hj, h]
  · simp [act, Function.update_of_ne hj]

theorem writes_write {c : Counter ι} {i : ι} {n : Nat} (h : c.phase i = .holds n) :
    (c.act i .write).writes = c.writes + 1 := by
  have hInsert : (Finset.univ.filter fun j => Function.update c.phase i .written j = .written) =
      insert i (Finset.univ.filter fun j => c.phase j = .written) := by
    ext j
    by_cases hj : j = i <;> simp [hj]
  have hNew : i ∉ Finset.univ.filter fun j => c.phase j = .written := by simp [h]
  rw [act_write h, writes, hInsert, Finset.card_insert_of_notMem hNew, writes]

theorem writes_act {c : Counter ι} {i : ι} {a : Act} (hEnabled : c.Enabled i a) :
    (c.act i a).writes = c.writes + if a = .write then 1 else 0 := by
  cases a with
  | rest => rfl
  | read => exact writes_read hEnabled
  | write =>
    obtain ⟨n, hHolds⟩ := hEnabled
    exact writes_write hHolds

theorem bounded_act {start : Nat} {c : Counter ι} {i : ι} {a : Act} (hBounded : c.Bounded start)
    (hEnabled : c.Enabled i a) : (c.act i a).Bounded start := by
  obtain ⟨hValue, hHeld, hBehind⟩ := hBounded
  cases a with
  | rest => exact ⟨hValue, hHeld, hBehind⟩
  | read =>
    have hWrites := writes_read hEnabled
    constructor
    · exact hWrites ▸ hValue
    · intro j n hj
      obtain hj | ⟨_, rfl⟩ := holds_act hj
      · exact hWrites ▸ hHeld j n hj
      · exact hWrites ▸ hValue
    · intro hLess j n hj
      rw [hWrites] at hLess ⊢
      obtain hj | ⟨_, rfl⟩ := holds_act hj
      · exact hBehind hLess j n hj
      · exact hLess
  | write =>
    obtain ⟨m, hHolds⟩ := hEnabled
    have hWrites := writes_write hHolds
    have hNew : (c.act i .write).value = m + 1 := by rw [act_write hHolds]
    have hm := hHeld i m hHolds
    have hBefore : ∀ j n, (c.act i .write).phase j = .holds n → n ≤ start + c.writes := by
      intro j n hj
      obtain hj | ⟨hRead, _⟩ := holds_act hj
      · exact hHeld j n hj
      · cases hRead
    constructor
    · omega
    · intro j n hj
      have := hBefore j n hj
      omega
    · intro _ j n hj
      have := hBefore j n hj
      omega

/-- The count stays exact in a step exactly when the step writes what is fresh. -/
theorem exact_act {start : Nat} {c : Counter ι} {i : ι} {a : Act} (hBounded : c.Bounded start)
    (hEnabled : c.Enabled i a) : (c.act i a).Exact start ↔ c.Exact start ∧ c.Fresh i a := by
  cases a with
  | rest => simp [act, Fresh]
  | read =>
    rw [Exact, writes_read hEnabled]
    simp [Exact, Fresh, act]
  | write =>
    obtain ⟨m, hHolds⟩ := hEnabled
    have hm := hBounded.held i m hHolds
    have hValue := hBounded.value
    have hBehind := hBounded.behind
    rw [Exact, writes_write hHolds, act_write hHolds, Exact, Fresh, hHolds]
    simp only [true_implies, Phase.holds.injEq]
    constructor
    · intro hExact
      have hNotBehind : ¬ c.value < start + c.writes := by
        intro hLess
        have := hBehind hLess i m hHolds
        omega
      omega
    · rintro ⟨hExact, hFresh⟩
      omega

end Counter

end Effect
