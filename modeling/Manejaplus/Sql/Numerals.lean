import Mathlib.Data.List.Basic
import Mathlib.Tactic.SplitIfs

/-! # Numbers in an SQL text

A number is read as far as its digits, its point and its exponent go. A whole
one that fits in 31 bits is known by its value, any other by how it is written.
-/
namespace Sql
set_option autoImplicit false

abbrev Text := List Char

/-- The digits before the point, behind it, of the exponent, or of a number to another base. -/
inductive Part where
  | whole
  | fraction
  | power
  | hexadecimal
  | octal
  | binary
  deriving DecidableEq, Repr

/-- How far a number has been read. -/
inductive Numeral where
  | zero
  | digits (p : Part)
  | underscore (p : Part)
  | based (p : Part)
  | point
  | exponent
  | sign
  deriving DecidableEq, Repr

/-- The value of a digit to a base of up to 16; 16 for any other character. -/
def digitValue (c : Char) : Nat :=
  if c.isDigit then c.toNat - '0'.toNat
  else if 'a' ≤ c ∧ c ≤ 'f' then c.toNat - 'a'.toNat + 10
  else if 'A' ≤ c ∧ c ≤ 'F' then c.toNat - 'A'.toNat + 10
  else 16

def Part.radix : Part → Nat
  | .hexadecimal => 16
  | .octal => 8
  | .binary => 2
  | _ => 10

def Part.next (p : Part) (c : Char) : Option Numeral :=
  if digitValue c < p.radix then some (.digits p)
  else if c = '_' then some (.underscore p)
  else if c = '.' ∧ p = .whole then some .point
  else if (c = 'e' ∨ c = 'E') ∧ (p = .whole ∨ p = .fraction) then some .exponent
  else none

/-- The letter behind a first `0` that gives the base. -/
def baseOf (c : Char) : Option Part :=
  if c = 'x' ∨ c = 'X' then some .hexadecimal
  else if c = 'o' ∨ c = 'O' then some .octal
  else if c = 'b' ∨ c = 'B' then some .binary
  else none

namespace Numeral

def first (c : Char) : Numeral := if c = '0' then .zero else .digits .whole

def next : Numeral → Char → Option Numeral
  | .zero, c => ((baseOf c).map .based).or (Part.whole.next c)
  | .digits p, c => p.next c
  | .underscore p, c => if digitValue c < p.radix then some (.digits p) else none
  | .based p, c =>
    if digitValue c < p.radix then some (.digits p)
    else if c = '_' then some (.underscore p)
    else none
  | .point, c =>
    if digitValue c < 10 then some (.digits .fraction)
    else if c = 'e' ∨ c = 'E' then some .exponent
    else none
  | .exponent, c =>
    if digitValue c < 10 then some (.digits .power)
    else if c = '+' ∨ c = '-' then some .sign
    else none
  | .sign, c => if digitValue c < 10 then some (.digits .power) else none

def complete : Numeral → Bool
  | .zero => true
  | .digits _ => true
  | .point => true
  | _ => false

def valueOf (radix : Nat) (s : Text) : Nat :=
  s.foldl (fun n c => if c = '_' then n else radix * n + digitValue c) 0

/-- The value of a whole number. -/
def integer? : Numeral → Text → Option Nat
  | .zero, _ => some 0
  | .digits .whole, s => some (valueOf 10 s)
  | .digits .fraction, _ => none
  | .digits .power, _ => none
  | .digits p, s => some (valueOf p.radix (s.drop 2))
  | _, _ => none

/-- Where a number ends: how far it has come, its text, and the rest. -/
def munch : Numeral → Text → Numeral × Text × Text
  | k, [] => (k, [], [])
  | k, c :: cs => (k.next c).elim (k, [], c :: cs) fun k' =>
    ((munch k' cs).1, c :: (munch k' cs).2.1, (munch k' cs).2.2)

/-- Whether a sign may still come. -/
def mayBeSigned : Numeral → Bool
  | .zero => true
  | .digits p => p = .whole ∨ p = .fraction
  | .underscore p => p = .whole ∨ p = .fraction
  | .based p => p = .whole ∨ p = .fraction
  | .point => true
  | .exponent => true
  | _ => false

variable {k k' : Numeral} {c : Char} {cs : Text}

theorem next_quote : k.next '"' = none := by
  have hPart : ∀ p : Part, ¬ digitValue '"' < p.radix := fun p => by cases p <;> decide
  cases k with
  | zero => decide
  | digits p => simp [next, Part.next, hPart]
  | underscore p => exact if_neg (hPart p)
  | based p => simp [next, hPart]
  | point => decide
  | exponent => decide
  | sign => decide

theorem munch_append (k : Numeral) (cs : Text) : (k.munch cs).2.1 ++ (k.munch cs).2.2 = cs := by
  induction cs generalizing k with
  | nil => rfl
  | cons c cs ih =>
    rw [munch]
    cases k.next c with
    | none => rfl
    | some k' => exact congrArg (c :: ·) (ih k')

theorem munch_quote (k : Numeral) (cs : Text) : '"' ∉ (k.munch cs).2.1 := by
  induction cs generalizing k with
  | nil => exact List.not_mem_nil
  | cons c cs ih =>
    rw [munch]
    cases hNext : k.next c with
    | none => exact List.not_mem_nil
    | some k' =>
      simp only [Option.elim_some, List.mem_cons, not_or]
      refine ⟨?_, ih k'⟩
      rintro rfl
      cases next_quote.symm.trans hNext

theorem next_hyphen (h : k.next '-' = some k') : k.mayBeSigned = true ∧ k'.mayBeSigned = false := by
  have hPart : ∀ p : Part, ¬ digitValue '-' < p.radix := fun p => by cases p <;> decide
  cases k with
  | zero => simp [next, Part.next, hPart, baseOf] at h
  | digits p => simp [next, Part.next, hPart] at h
  | underscore p => simp [next, hPart] at h
  | based p => simp [next, hPart] at h
  | point => cases (show point.next '-' = none by decide).symm.trans h
  | exponent =>
    cases (show exponent.next '-' = some .sign by decide).symm.trans h
    decide
  | sign => cases (show sign.next '-' = none by decide).symm.trans h

theorem next_mayBeSigned (h : k.next c = some k') (hMay : k'.mayBeSigned = true) :
    k.mayBeSigned = true := by
  have hPart : ∀ {p : Part}, p.next c = some k' → (Numeral.digits p).mayBeSigned = true := by
    intro p hNext
    unfold Part.next at hNext
    split_ifs at hNext with hDigit hUnderscore hPoint hExponent
    all_goals cases hNext
    · exact hMay
    · exact hMay
    · simp [mayBeSigned, hPoint.2]
    · simpa [mayBeSigned] using hExponent.2
  cases k with
  | zero => rfl
  | digits p => exact hPart h
  | underscore p =>
    simp only [next] at h
    split at h <;> cases h
    exact hMay
  | based p =>
    simp only [next] at h
    split_ifs at h
    all_goals
      cases h
      exact hMay
  | point => rfl
  | exponent => rfl
  | sign =>
    simp only [next] at h
    split at h <;> cases h
    exact hMay

/-- A number has one sign at most, that of its exponent. -/
theorem count_munch (k : Numeral) (cs : Text) :
    (k.munch cs).2.1.count '-' ≤ if k.mayBeSigned then 1 else 0 := by
  induction cs generalizing k with
  | nil => exact Nat.zero_le _
  | cons c cs ih =>
    rw [munch]
    cases hNext : k.next c with
    | none => exact Nat.zero_le _
    | some k' =>
      have hRest := ih k'
      simp only [Option.elim_some]
      by_cases hc : c = '-'
      · subst hc
        obtain ⟨hBefore, hAfter⟩ := next_hyphen hNext
        rw [List.count_cons_self, hBefore]
        simp only [hAfter, Bool.false_eq_true, if_false, Nat.le_zero] at hRest
        simp [hRest]
      · rw [List.count_cons_of_ne hc]
        refine Nat.le_trans hRest ?_
        by_cases hMay : k'.mayBeSigned = true
        · simp only [hMay, next_mayBeSigned hNext hMay, if_true, Nat.le_refl]
        · rw [if_neg hMay]
          exact Nat.zero_le _

end Numeral

end Sql
