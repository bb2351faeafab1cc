import Mathlib.Logic.Function.Basic

/-! # Things that are to be claimed once

A client that claims a thing marks it as used. Two clients can have claimed one
thing only if the second one has overlooked the mark of the first.
-/
namespace Effect
set_option autoImplicit false

structure OneShot (ι κ : Type) where
  claimed : ι → Option κ
  used : κ → Prop

namespace OneShot
variable {ι κ : Type} {base : κ → Prop}

def Once (c : OneShot ι κ) : Prop :=
  ∀ i j k, c.claimed i = some k → c.claimed j = some k → i = j

/-- Used are the things that were used from the start, and those that have been claimed. -/
def Balanced (base : κ → Prop) (c : OneShot ι κ) : Prop :=
  ∀ k, c.used k ↔ base k ∨ ∃ i, c.claimed i = some k

theorem once_start {c : OneShot ι κ} (h : ∀ i, c.claimed i = none) : c.Once := by
  intro i j k hi
  rw [h i] at hi
  cases hi

theorem balanced_start {c : OneShot ι κ} (h : ∀ i, c.claimed i = none) : c.Balanced c.used := by
  refine fun k => ⟨.inl, ?_⟩
  rintro (hUsed | ⟨i, hi⟩)
  · exact hUsed
  · rw [h i] at hi
    cases hi

variable [DecidableEq ι]

def claim (c : OneShot ι κ) (i : ι) (k : κ) : OneShot ι κ where
  claimed := Function.update c.claimed i (some k)
  used k' := c.used k' ∨ k' = k

theorem claimed_claim {c : OneShot ι κ} {i j : ι} {k k' : κ} (hi : c.claimed i = none) :
    (c.claim i k).claimed j = some k' ↔ c.claimed j = some k' ∨ (j = i ∧ k' = k) := by
  by_cases hj : j = i
  · subst hj
    simp [claim, hi, eq_comm]
  · simp [claim, hj]

theorem balanced_claim {c : OneShot ι κ} {i : ι} {k : κ} (h : c.Balanced base)
    (hi : c.claimed i = none) : (c.claim i k).Balanced base := by
  intro k'
  have hClaimed : (∃ j, (c.claim i k).claimed j = some k') ↔
      (∃ j, c.claimed j = some k') ∨ k' = k := by
    constructor
    · rintro ⟨j, hj⟩
      obtain hj | ⟨_, rfl⟩ := (claimed_claim hi).mp hj
      · exact .inl ⟨j, hj⟩
      · exact .inr rfl
    · rintro (⟨j, hj⟩ | rfl)
      · exact ⟨j, (claimed_claim hi).mpr (.inl hj)⟩
      · exact ⟨i, (claimed_claim hi).mpr (.inr ⟨rfl, rfl⟩)⟩
  calc (c.claim i k).used k' ↔ c.used k' ∨ k' = k := Iff.rfl
    _ ↔ (base k' ∨ ∃ j, c.claimed j = some k') ∨ k' = k := or_congr_left (h k')
    _ ↔ base k' ∨ (∃ j, c.claimed j = some k') ∨ k' = k := or_assoc
    _ ↔ base k' ∨ ∃ j, (c.claim i k).claimed j = some k' := or_congr_right hClaimed.symm

/-- A claim is the only one exactly if the thing was not used when it was made. -/
theorem once_claim {c : OneShot ι κ} {i : ι} {k : κ} (h : c.Balanced base)
    (hi : c.claimed i = none) (hk : ¬ base k) : (c.claim i k).Once ↔ c.Once ∧ ¬ c.used k := by
  constructor
  · intro hOnce
    refine ⟨fun j j' k' hj hj' => ?_, fun hUsed => ?_⟩
    · exact hOnce j j' k' ((claimed_claim hi).mpr (.inl hj)) ((claimed_claim hi).mpr (.inl hj'))
    · obtain hBase | ⟨j, hj⟩ := (h k).mp hUsed
      · exact hk hBase
      · have hSame : j = i := hOnce j i k ((claimed_claim hi).mpr (.inl hj))
          ((claimed_claim hi).mpr (.inr ⟨rfl, rfl⟩))
        rw [hSame, hi] at hj
        cases hj
  · rintro ⟨hOnce, hUnused⟩ j j' k' hj hj'
    have hOther : ∀ j, c.claimed j = some k → False := fun j hj => hUnused ((h k).mpr (.inr ⟨j, hj⟩))
    obtain hBefore | ⟨hEq, rfl⟩ := (claimed_claim hi).mp hj <;>
      obtain hBefore' | ⟨hEq', hk'⟩ := (claimed_claim hi).mp hj'
    · exact hOnce j j' k' hBefore hBefore'
    · exact (hOther j (hk' ▸ hBefore)).elim
    · exact (hOther j' hBefore').elim
    · exact hEq.trans hEq'.symm

end OneShot

end Effect
