/-! # Programs over effect operations

An asynchronous function is a tree: it returns, throws, or awaits one operation
and goes on with the answer, which is itself a result or an exception. Handlers
give the operations a meaning, so that one program has many semantics.
-/
namespace Effect
set_option autoImplicit false

structure Signature where
  Op : Type
  Res : Op → Type

inductive Prog (S : Signature) (E α : Type) where
  | pure (a : α)
  | throw (e : E)
  | op (o : S.Op) (k : Except E (S.Res o) → Prog S E α)

/-- What one operation does to a world, and its answer. -/
abbrev Handler (S : Signature) (E W : Type) :=
  (o : S.Op) → W → Except E (S.Res o) × W

variable {S : Signature} {E W α β : Type}

namespace Prog

def bind : Prog S E α → (α → Prog S E β) → Prog S E β
  | .pure a, f => f a
  | .throw e, _ => .throw e
  | .op o k, f => .op o fun r => (k r).bind f

/-- The outcome of a program as a value: `try` without its `catch`. -/
def attempt : Prog S E α → Prog S E (Except E α)
  | .pure a => .pure (.ok a)
  | .throw e => .pure (.error e)
  | .op o k => .op o fun r => (k r).attempt

def ofExcept : Except E α → Prog S E α
  | .ok a => .pure a
  | .error e => .throw e

def perform (o : S.Op) : Prog S E (S.Res o) := .op o ofExcept

instance : Monad (Prog S E) where
  pure := .pure
  bind := .bind

/-- `try { p } catch (e) { recover(e) }`. -/
def catching (p : Prog S E α) (recover : E → Prog S E α) : Prog S E α :=
  p.attempt.bind fun
    | .ok a => .pure a
    | .error e => recover e

@[simp] theorem pure_eq (a : α) : (Pure.pure a : Prog S E α) = .pure a := rfl

@[simp] theorem bind_eq (p : Prog S E α) (f : α → Prog S E β) : (p >>= f) = p.bind f := rfl

theorem bind_assoc {γ : Type} (p : Prog S E α) (f : α → Prog S E β) (g : β → Prog S E γ) :
    (p.bind f).bind g = p.bind fun a => (f a).bind g := by
  induction p with
  | pure a => rfl
  | throw e => rfl
  | op o k ih => exact congrArg (op o) (funext ih)

/-- The answer of a finished program; nothing while it still awaits an operation. -/
def result : Prog S E α → Option (Except E α)
  | .pure a => some (.ok a)
  | .throw e => some (.error e)
  | .op _ _ => none

def awaits : Prog S E α → Option S.Op
  | .op o _ => some o
  | _ => none

/-- Run to the end with nobody else around. -/
def run (h : Handler S E W) : Prog S E α → W → Except E α × W
  | .pure a, w => (.ok a, w)
  | .throw e, w => (.error e, w)
  | .op o k, w => run h (k (h o w).1) (h o w).2

variable (h : Handler S E W)

@[simp] theorem run_pure (a : α) (w : W) : run h (.pure a : Prog S E α) w = (.ok a, w) := rfl

@[simp] theorem run_throw (e : E) (w : W) : run h (.throw e : Prog S E α) w = (.error e, w) := rfl

@[simp] theorem run_ofExcept (r : Except E α) (w : W) : run h (ofExcept r) w = (r, w) := by
  cases r <;> rfl

@[simp] theorem run_perform (o : S.Op) (w : W) : run h (perform o) w = h o w := by
  simp [perform, run]

theorem run_bind (p : Prog S E α) (f : α → Prog S E β) (w : W) :
    run h (p.bind f) w = match run h p w with
      | (.ok a, w') => run h (f a) w'
      | (.error e, w') => (.error e, w') := by
  induction p generalizing w with
  | pure a => rfl
  | throw e => rfl
  | op o k ih => exact ih _ _

@[simp] theorem run_attempt (p : Prog S E α) (w : W) :
    run h p.attempt w = (.ok (run h p w).1, (run h p w).2) := by
  induction p generalizing w with
  | pure a => rfl
  | throw e => rfl
  | op o k ih => exact ih _ _

theorem run_bind_cases {p : Prog S E α} {f : α → Prog S E β} {w w'' : W} {r : Except E β}
    (hRun : run h (p.bind f) w = (r, w'')) :
    (∃ e, r = .error e ∧ run h p w = (.error e, w'')) ∨
    ∃ a w', run h p w = (.ok a, w') ∧ run h (f a) w' = (r, w'') := by
  rw [run_bind] at hRun
  match hp : run h p w with
  | (.ok a, w') =>
    rw [hp] at hRun
    exact .inr ⟨a, w', rfl, hRun⟩
  | (.error e, w') =>
    rw [hp] at hRun
    cases hRun
    exact .inl ⟨e, rfl, rfl⟩

theorem run_bind_ok {p : Prog S E α} {f : α → Prog S E β} {w w'' : W} {b : β} :
    run h (p.bind f) w = (.ok b, w'') ↔
      ∃ a w', run h p w = (.ok a, w') ∧ run h (f a) w' = (.ok b, w'') := by
  constructor
  · intro hRun
    obtain ⟨e, hError, _⟩ | hFirst := run_bind_cases h hRun
    · cases hError
    · exact hFirst
  · rintro ⟨a, w', hp, hf⟩
    rw [run_bind, hp]
    exact hf

/-- A program that only dresses the answer of another. -/
theorem run_map_cases {p : Prog S E α} {f : α → β} {w w' : W} {r : Except E β}
    (hRun : run h (p.bind fun a => .pure (f a)) w = (r, w')) :
    ∃ r', run h p w = (r', w') ∧ r = r'.map f := by
  obtain ⟨e, rfl, hp⟩ | ⟨a, w₁, hp, hPure⟩ := run_bind_cases h hRun
  · exact ⟨_, hp, rfl⟩
  · cases hPure
    exact ⟨_, hp, rfl⟩

theorem run_map_snd (p : Prog S E α) (f : α → β) (w : W) :
    (run h (p.bind fun a => .pure (f a)) w).2 = (run h p w).2 := by
  obtain ⟨r', hp, _⟩ := run_map_cases h (rfl : run h (p.bind fun a => .pure (f a)) w = (_, _))
  rw [hp]

theorem run_catching_cases {p : Prog S E α} {recover : E → Prog S E α} {w w'' : W}
    {r : Except E α} (hRun : run h (p.catching recover) w = (r, w'')) :
    (∃ a, r = .ok a ∧ run h p w = (.ok a, w'')) ∨
    ∃ e w', run h p w = (.error e, w') ∧ run h (recover e) w' = (r, w'') := by
  rw [catching, run_bind, run_attempt] at hRun
  match hp : run h p w with
  | (.ok a, w') =>
    rw [hp] at hRun
    cases hRun
    exact .inl ⟨a, rfl, rfl⟩
  | (.error e, w') =>
    rw [hp] at hRun
    exact .inr ⟨e, w', rfl, hRun⟩

theorem run_catching_of_ok {p : Prog S E α} {recover : E → Prog S E α} {w w' : W} {a : α}
    (hp : run h p w = (.ok a, w')) : run h (p.catching recover) w = (.ok a, w') := by
  rw [catching, run_bind, run_attempt, hp]
  rfl

/-- `try { p } catch { return a }` -/
theorem run_default_cases {p : Prog S E α} {a : α} {w w' : W} {r : Except E α}
    (hRun : run h (p.catching fun _ => .pure a) w = (r, w')) :
    ∃ r', run h p w = (r', w') ∧ r = .ok (r'.toOption.getD a) := by
  obtain ⟨b, rfl, hp⟩ | ⟨e, w₁, hp, hPure⟩ := run_catching_cases h hRun
  · exact ⟨_, hp, rfl⟩
  · cases hPure
    exact ⟨_, hp, rfl⟩

theorem run_default_snd (p : Prog S E α) (a : α) (w : W) :
    (run h (p.catching fun _ => .pure a) w).2 = (run h p w).2 := by
  obtain ⟨r', hp, _⟩ := run_default_cases h (rfl : run h (p.catching fun _ => .pure a) w = (_, _))
  rw [hp]

theorem run_attempt_cases {p : Prog S E α} {f : Except E α → Prog S E β} {w w'' : W}
    {r : Except E β} (hRun : run h (p.attempt.bind f) w = (r, w'')) :
    ∃ r' w', run h p w = (r', w') ∧ run h (f r') w' = (r, w'') := by
  rw [run_bind, run_attempt] at hRun
  exact ⟨_, _, rfl, hRun⟩

/-- Every operation the program can come to, whatever the answers, is allowed. -/
def Uses (allowed : S.Op → Prop) : Prog S E α → Prop
  | .pure _ => True
  | .throw _ => True
  | .op o k => allowed o ∧ ∀ r, (k r).Uses allowed

theorem Uses.mono {allowed allowed' : S.Op → Prop} (h : ∀ o, allowed o → allowed' o)
    {p : Prog S E α} (hp : p.Uses allowed) : p.Uses allowed' := by
  induction p with
  | pure a => trivial
  | throw e => trivial
  | op o k ih => exact ⟨h o hp.1, fun r => ih r (hp.2 r)⟩

theorem uses_ofExcept (allowed : S.Op → Prop) (r : Except E α) :
    (ofExcept r : Prog S E α).Uses allowed := by
  cases r <;> trivial

theorem uses_perform {allowed : S.Op → Prop} {o : S.Op} (ho : allowed o) :
    (perform o : Prog S E (S.Res o)).Uses allowed := ⟨ho, uses_ofExcept allowed⟩

theorem uses_bind {allowed : S.Op → Prop} {p : Prog S E α} {f : α → Prog S E β}
    (hp : p.Uses allowed) (hf : ∀ a, (f a).Uses allowed) : (p.bind f).Uses allowed := by
  induction p with
  | pure a => exact hf a
  | throw e => trivial
  | op o k ih => exact ⟨hp.1, fun r => ih r (hp.2 r)⟩

theorem uses_attempt {allowed : S.Op → Prop} {p : Prog S E α} (hp : p.Uses allowed) :
    p.attempt.Uses allowed := by
  induction p with
  | pure a => trivial
  | throw e => trivial
  | op o k ih => exact ⟨hp.1, fun r => ih r (hp.2 r)⟩

theorem uses_catching {allowed : S.Op → Prop} {p : Prog S E α} {recover : E → Prog S E α}
    (hp : p.Uses allowed) (hr : ∀ e, (recover e).Uses allowed) :
    (p.catching recover).Uses allowed := by
  apply uses_bind (uses_attempt hp)
  rintro (e | a)
  · exact hr e
  · trivial

/-- A reflexive and transitive relation that every allowed operation keeps is kept by the run. -/
theorem run_keeps {allowed : S.Op → Prop} {R : W → W → Prop} (hRefl : ∀ w, R w w)
    (hTrans : ∀ u v w, R u v → R v w → R u w) (hOp : ∀ o, allowed o → ∀ w, R w (h o w).2)
    {p : Prog S E α} (hp : p.Uses allowed) (w : W) : R w (run h p w).2 := by
  induction p generalizing w with
  | pure a => exact hRefl w
  | throw e => exact hRefl w
  | op o k ih => exact hTrans _ _ _ (hOp o hp.1 w) (ih _ (hp.2 _) _)

/-- Two handlers that answer alike in related worlds give a program the same outcome. -/
theorem run_simulates {W' : Type} {h' : Handler S E W'} {allowed : S.Op → Prop} {R : W → W' → Prop}
    (hOp : ∀ o, allowed o → ∀ w w', R w w' → (h o w).1 = (h' o w').1 ∧ R (h o w).2 (h' o w').2)
    {p : Prog S E α} (hp : p.Uses allowed) {w : W} {w' : W'} (hR : R w w') :
    (run h p w).1 = (run h' p w').1 ∧ R (run h p w).2 (run h' p w').2 := by
  induction p generalizing w w' with
  | pure a => exact ⟨rfl, hR⟩
  | throw e => exact ⟨rfl, hR⟩
  | op o k ih =>
    obtain ⟨hAnswer, hAfter⟩ := hOp o hp.1 w w' hR
    simp only [run, ← hAnswer]
    exact ih _ (hp.2 _) hAfter

end Prog

end Effect
