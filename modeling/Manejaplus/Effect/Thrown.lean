import Manejaplus.Effect.Pool

/-! # The exceptions that a program can end in

What an operation throws is taken as given, in `X`. Whether a program throws
nothing outside `T` is then decided without a handler, and holds of every run
and of every interleaving.
-/
namespace Effect
namespace Prog
set_option autoImplicit false

variable {S : Signature} {E W α β : Type}

/-- Where operations throw nothing outside `X`, the program throws nothing outside `T`. -/
def Throws (X T : E → Prop) : Prog S E α → Prop
  | .pure _ => True
  | .throw e => T e
  | .op _ k => (∀ a, (k (.ok a)).Throws X T) ∧ ∀ e, X e → (k (.error e)).Throws X T

variable {X T T' : E → Prop} {p : Prog S E α}

theorem Throws.mono (h : ∀ e, T e → T' e) (hp : p.Throws X T) : p.Throws X T' := by
  induction p with
  | pure a => trivial
  | throw e => exact h e hp
  | op o k ih => exact ⟨fun a => ih _ (hp.1 a), fun e he => ih _ (hp.2 e he)⟩

theorem throws_perform {o : S.Op} (h : ∀ e, X e → T e) :
    (perform o : Prog S E (S.Res o)).Throws X T :=
  ⟨fun _ => trivial, h⟩

theorem throws_bind {f : α → Prog S E β} (hp : p.Throws X T) (hf : ∀ a, (f a).Throws X T) :
    (p.bind f).Throws X T := by
  induction p with
  | pure a => exact hf a
  | throw e => exact hp
  | op o k ih => exact ⟨fun a => ih _ (hp.1 a), fun e he => ih _ (hp.2 e he)⟩

theorem throws_map {f : α → β} (hp : p.Throws X T) :
    (p.bind fun a => .pure (f a)).Throws X T :=
  throws_bind hp fun _ => trivial

theorem throws_attempt {f : Except E α → Prog S E β} (hp : p.Throws X T)
    (hOk : ∀ a, (f (.ok a)).Throws X T') (hError : ∀ e, T e → (f (.error e)).Throws X T') :
    (p.attempt.bind f).Throws X T' := by
  induction p with
  | pure a => exact hOk a
  | throw e => exact hError e hp
  | op o k ih => exact ⟨fun a => ih _ (hp.1 a), fun e he => ih _ (hp.2 e he)⟩

theorem throws_catching {recover : E → Prog S E α} (hp : p.Throws X T)
    (hRecover : ∀ e, T e → (recover e).Throws X T') : (p.catching recover).Throws X T' :=
  throws_attempt hp (fun _ => trivial) hRecover

theorem run_throws {h : Handler S E W} (hOutside : ∀ o w e, (h o w).1 = .error e → X e)
    (hp : p.Throws X T) {w : W} {e : E} (hRun : (run h p w).1 = .error e) : T e := by
  induction p generalizing w with
  | pure a => cases hRun
  | throw e' =>
    cases hRun
    exact hp
  | op o k ih =>
    unfold run at hRun
    cases hAnswer : (h o w).1 with
    | ok a =>
      rw [hAnswer] at hRun
      exact ih _ (hp.1 a) hRun
    | error e' =>
      rw [hAnswer] at hRun
      exact ih _ (hp.2 e' (hOutside o w e' hAnswer)) hRun

end Prog

namespace Pool
variable {S : Signature} {E W Γ ι α : Type} [DecidableEq ι] {h : Handler S E W}
  {P : Protocol S E W Γ} {X : E → Prop} {T : ι → E → Prop} {p : Pool S E W α Γ ι}

theorem throws_step (hOutside : ∀ o w e, (h o w).1 = .error e → X e)
    (hp : ∀ i, (p.threads i).prog.Throws X (T i)) (i j : ι) :
    ((p.step h P i).threads j).prog.Throws X (T j) := by
  obtain hIdle | ⟨o, k, hProg, hStep⟩ := step_cases h P p i
  · rw [hIdle]
    exact hp j
  · rw [hStep]
    by_cases hj : j = i
    · subst hj
      have hj := hp j
      rw [hProg] at hj
      simp only [Function.update_self]
      cases hAnswer : (h o p.world).1 with
      | ok a => exact hj.1 a
      | error e => exact hj.2 e (hOutside o p.world e hAnswer)
    · simp only [Function.update_of_ne hj]
      exact hp j

/-- In every interleaving, a thread ends in none but its own exceptions. -/
theorem run_throws (hOutside : ∀ o w e, (h o w).1 = .error e → X e)
    (hp : ∀ i, (p.threads i).prog.Throws X (T i)) (schedule : List ι) {i : ι} {e : E}
    (hDone : ((p.run h P schedule).threads i).prog.result = some (.error e)) : T i e := by
  have hEnd := run_invariant (J := fun p => ∀ i, (p.threads i).prog.Throws X (T i))
    (fun p i hp j => throws_step hOutside hp i j) hp (h := h) (P := P) schedule i
  cases hProg : ((p.run h P schedule).threads i).prog with
  | pure a =>
    rw [hProg] at hDone
    cases hDone
  | throw e' =>
    rw [hProg] at hDone hEnd
    cases hDone
    exact hEnd
  | op o k =>
    rw [hProg] at hDone
    cases hDone

end Pool
end Effect
