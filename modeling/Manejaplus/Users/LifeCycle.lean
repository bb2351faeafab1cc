import Mathlib.Data.List.Basic

/-! # The life of an account, apart from all storage

An account opens in some standing. Failed checks count against it for good, a
verification and an unlocking set a flag, and nothing else moves it.
-/
namespace LifeCycle
set_option autoImplicit false

inductive Happening where
  | checkFailed
  | verified
  | unlocked
  deriving DecidableEq, Repr

structure Standing where
  verified : Bool
  blocked : Bool
  attempts : Nat
  deriving DecidableEq, Repr

namespace Standing

def step (limit : Nat) (s : Standing) : Happening → Standing
  | .checkFailed =>
    { s with
      attempts := s.attempts + 1
      blocked := s.blocked || decide (limit ≤ s.attempts + 1) }
  | .verified => { s with verified := true }
  | .unlocked => { s with blocked := false }

/-- The standing after a list of happenings, the latest first. -/
def after (limit : Nat) (s : Standing) (past : List Happening) : Standing :=
  past.foldr (fun h s => s.step limit h) s

variable {limit : Nat} {s : Standing} {past : List Happening}

@[simp] theorem after_nil : s.after limit [] = s := rfl

@[simp] theorem after_cons (h : Happening) : s.after limit (h :: past) = (s.after limit past).step limit h :=
  rfl

theorem after_append (newer older : List Happening) :
    s.after limit (newer ++ older) = (s.after limit older).after limit newer := List.foldr_append

theorem after_attempts : (s.after limit past).attempts = s.attempts + past.count .checkFailed := by
  induction past with
  | nil => rfl
  | cons h past ih =>
    cases h with
    | checkFailed =>
      simp only [after_cons, step, List.count_cons_self, ih]
      omega
    | _ =>
      rw [after_cons, step, List.count_cons_of_ne (by decide)]
      exact ih

theorem after_verified : (s.after limit past).verified = true ↔ s.verified = true ∨ .verified ∈ past := by
  induction past with
  | nil => simp
  | cons h past ih =>
    cases h with
    | verified => simp [step]
    | _ => simpa [step] using ih

/-- Some failed check reached the limit, and the account has not been unlocked since. -/
def LockedOut (limit : Nat) (s : Standing) (past : List Happening) : Prop :=
  ∃ newer older, past = newer ++ .checkFailed :: older ∧ .unlocked ∉ newer ∧
    limit ≤ s.attempts + older.count .checkFailed + 1

theorem lockedOut_cons (h : Happening) : LockedOut limit s (h :: past) ↔
    h ≠ .unlocked ∧ (LockedOut limit s past ∨
      (h = .checkFailed ∧ limit ≤ s.attempts + past.count .checkFailed + 1)) := by
  constructor
  · rintro ⟨newer, older, hPast, hNever, hLimit⟩
    cases newer with
    | nil =>
      cases hPast
      exact ⟨nofun, .inr ⟨rfl, hLimit⟩⟩
    | cons latest newer =>
      cases hPast
      obtain ⟨hLatest, hNever⟩ := not_or.mp (mt List.mem_cons.mpr hNever)
      exact ⟨fun h => hLatest h.symm, .inl ⟨newer, older, rfl, hNever, hLimit⟩⟩
  · rintro ⟨hNe, ⟨newer, older, rfl, hNever, hLimit⟩ | ⟨rfl, hLimit⟩⟩
    · refine ⟨h :: newer, older, rfl, fun hMem => ?_, hLimit⟩
      obtain hLatest | hNewer := List.mem_cons.mp hMem
      · exact hNe hLatest.symm
      · exact hNever hNewer
    · exact ⟨[], past, rfl, List.not_mem_nil, hLimit⟩

/-- The account is blocked as long as it is unlocked neither since it was opened blocked nor since
the failed check that locked it out. -/
theorem after_blocked : (s.after limit past).blocked = true ↔
    (s.blocked = true ∧ .unlocked ∉ past) ∨ LockedOut limit s past := by
  induction past with
  | nil =>
    have hNot : ¬ LockedOut limit s [] := by
      rintro ⟨newer, older, hPast, _⟩
      cases newer <;> cases hPast
    simp [hNot]
  | cons h past ih =>
    rw [lockedOut_cons, after_cons]
    cases h with
    | checkFailed =>
      rw [step, Bool.or_eq_true, decide_eq_true_iff, ih, after_attempts]
      simp [or_assoc]
    | verified => simp [step, ih]
    | unlocked => simp [step]

end Standing

end LifeCycle
