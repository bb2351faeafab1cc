import Mathlib.Data.List.Infix
import Mathlib.Logic.Relation

/-! # Regular expressions with lookahead

What an expression can read from a position, as a relation between what is left
of the text before and after. Whether there is a match does not depend on the
order in which an engine tries the alternatives.
-/
namespace Regex
set_option autoImplicit false

inductive Expr where
  | eps
  | one (p : Char → Bool)
  | seq (r s : Expr)
  | alt (r s : Expr)
  | star (r : Expr)
  | ahead (r : Expr)
  | notAhead (r : Expr)
  | first
  | last

namespace Expr

/-- `r` matches from where `cs` is left of the text to where `rest` is left. -/
def Reads (text : List Char) : Expr → List Char → List Char → Prop
  | .eps, cs, rest => rest = cs
  | .one p, cs, rest => ∃ c, p c = true ∧ cs = c :: rest
  | .seq r s, cs, rest => ∃ mid, Reads text r cs mid ∧ Reads text s mid rest
  | .alt r s, cs, rest => Reads text r cs rest ∨ Reads text s cs rest
  | .star r, cs, rest => Relation.ReflTransGen (Reads text r) cs rest
  | .ahead r, cs, rest => (∃ stop, Reads text r cs stop) ∧ rest = cs
  | .notAhead r, cs, rest => (¬ ∃ stop, Reads text r cs stop) ∧ rest = cs
  | .first, cs, rest => cs = text ∧ rest = cs
  | .last, cs, rest => cs = [] ∧ rest = cs

/-- There is a match somewhere in the text. -/
def Finds (r : Expr) (text : List Char) : Prop :=
  ∃ cs, cs <:+ text ∧ ∃ rest, r.Reads text cs rest

def opt (r : Expr) : Expr := .alt r .eps

def plus (r : Expr) : Expr := .seq r (.star r)

/-- `r{0,n}` -/
def upTo : Nat → Expr → Expr
  | 0, _ => .eps
  | n + 1, r => opt (.seq r (upTo n r))

variable {text cs rest : List Char} {r s : Expr} {p : Char → Bool}

theorem reads_star : (star (one p)).Reads text cs rest ↔
    ∃ xs, (∀ c ∈ xs, p c = true) ∧ cs = xs ++ rest := by
  constructor
  · intro h
    change Relation.ReflTransGen _ cs rest at h
    induction h using Relation.ReflTransGen.head_induction_on with
    | refl => exact ⟨[], fun _ hc => absurd hc List.not_mem_nil, rfl⟩
    | head hOne _ ih =>
      obtain ⟨c, hc, rfl⟩ := hOne
      obtain ⟨xs, hxs, rfl⟩ := ih
      exact ⟨c :: xs, List.forall_mem_cons.mpr ⟨hc, hxs⟩, rfl⟩
  · rintro ⟨xs, hxs, rfl⟩
    induction xs with
    | nil => exact .refl
    | cons c xs ih =>
      obtain ⟨hc, hxs⟩ := List.forall_mem_cons.mp hxs
      exact .head ⟨c, hc, rfl⟩ (ih hxs)

theorem reads_upTo {n : Nat} : (upTo n (one p)).Reads text cs rest ↔
    ∃ xs, xs.length ≤ n ∧ (∀ c ∈ xs, p c = true) ∧ cs = xs ++ rest := by
  induction n generalizing cs with
  | zero =>
    constructor
    · rintro rfl
      exact ⟨[], Nat.le_refl 0, fun _ hc => absurd hc List.not_mem_nil, rfl⟩
    · rintro ⟨xs, hLength, _, rfl⟩
      rw [List.length_eq_zero_iff.mp (Nat.le_zero.mp hLength)]
      rfl
  | succ n ih =>
    constructor
    · rintro (⟨_, ⟨c, hc, rfl⟩, hMore⟩ | rfl)
      · obtain ⟨xs, hLength, hxs, rfl⟩ := ih.mp hMore
        exact ⟨c :: xs, Nat.succ_le_succ hLength, List.forall_mem_cons.mpr ⟨hc, hxs⟩, rfl⟩
      · exact ⟨[], Nat.zero_le _, fun _ hc => absurd hc List.not_mem_nil, rfl⟩
    · rintro ⟨xs, hLength, hxs, rfl⟩
      cases xs with
      | nil => exact .inr rfl
      | cons c xs =>
        obtain ⟨hc, hxs⟩ := List.forall_mem_cons.mp hxs
        exact .inl ⟨_, ⟨c, hc, rfl⟩, ih.mpr ⟨xs, Nat.le_of_succ_le_succ hLength, hxs, rfl⟩⟩

/-- `(?=.*p)`, where `.` is the class `any`. -/
theorem reads_ahead_star {any : Char → Bool} :
    (ahead (seq (star (one any)) (one p))).Reads text cs rest ↔
      (∃ xs c ys, (∀ x ∈ xs, any x = true) ∧ p c = true ∧ cs = xs ++ c :: ys) ∧ rest = cs := by
  refine and_congr_left fun _ => ⟨?_, ?_⟩
  · rintro ⟨ys, mid, hStar, c, hc, rfl⟩
    obtain ⟨xs, hxs, rfl⟩ := reads_star.mp hStar
    exact ⟨xs, c, ys, hxs, hc, rfl⟩
  · rintro ⟨xs, c, ys, hxs, hc, rfl⟩
    exact ⟨ys, c :: ys, reads_star.mpr ⟨xs, hxs, rfl⟩, c, hc, rfl⟩

/-- Where every character is in the class `any`, `(?=.*p)` asks for one in `p`. -/
theorem ahead_star_iff {any : Char → Bool} (hAny : ∀ c ∈ cs, any c = true) :
    (ahead (seq (star (one any)) (one p))).Reads text cs rest ↔ cs.any p = true ∧ rest = cs := by
  rw [reads_ahead_star, List.any_eq_true]
  refine and_congr_left fun _ => ⟨?_, ?_⟩
  · rintro ⟨xs, c, ys, _, hc, rfl⟩
    exact ⟨c, List.mem_append_right _ List.mem_cons_self, hc⟩
  · rintro ⟨c, hMem, hc⟩
    obtain ⟨xs, ys, rfl⟩ := List.append_of_mem hMem
    exact ⟨xs, c, ys, fun x hx => hAny x (List.mem_append_left _ hx), hc, rfl⟩

theorem ahead_plus : (ahead (seq r (plus s))).Reads text cs rest ↔
    (ahead (seq r s)).Reads text cs rest := by
  refine and_congr_left fun _ => ⟨?_, ?_⟩
  · rintro ⟨_, mid, hr, stop, hs, _⟩
    exact ⟨stop, mid, hr, hs⟩
  · rintro ⟨stop, mid, hr, hs⟩
    exact ⟨stop, mid, hr, stop, hs, .refl⟩

end Expr
end Regex
