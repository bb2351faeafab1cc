import Manejaplus.Effect.Program

/-! # Two runs side by side

Two programs are in lockstep when they take related worlds to related worlds and
come to related results, or throw the same exception.
-/
namespace Effect
set_option autoImplicit false

variable {S : Signature} {E W α β γ δ : Type}

inductive Agree (A : α → β → Prop) : Except E α → Except E β → Prop
  | ok {a : α} {b : β} : A a b → Agree A (.ok a) (.ok b)
  | error (e : E) : Agree A (.error e) (.error e)

theorem Agree.mono {A B : α → β → Prop} (hAB : ∀ a b, A a b → B a b) {r : Except E α}
    {r' : Except E β} (h : Agree A r r') : Agree B r r' := by
  cases h with
  | ok hA => exact .ok (hAB _ _ hA)
  | error e => exact .error e

def Lockstep (h : Handler S E W) (R : W → W → Prop) (A : α → β → Prop) (p : Prog S E α)
    (p' : Prog S E β) : Prop :=
  ∀ w w', R w w' →
    Agree A (p.run h w).1 (p'.run h w').1 ∧ R (p.run h w).2 (p'.run h w').2

namespace Lockstep
variable {h : Handler S E W} {R : W → W → Prop} {A : α → β → Prop} {B : γ → δ → Prop}

theorem pure {a : α} {b : β} (hA : A a b) : Lockstep h R A (.pure a) (.pure b) :=
  fun _ _ hR => ⟨.ok hA, hR⟩

theorem throw (e : E) : Lockstep h R A (.throw e) (.throw e) := fun _ _ hR => ⟨.error e, hR⟩

theorem ofExcept {r : Except E α} {r' : Except E β} (hA : Agree A r r') :
    Lockstep h R A (Prog.ofExcept r) (Prog.ofExcept r') := by
  cases hA with
  | ok hA => exact pure hA
  | error e => exact throw e

theorem mono {A' : α → β → Prop} (hA : ∀ a b, A a b → A' a b) {p : Prog S E α}
    {p' : Prog S E β} (hp : Lockstep h R A p p') : Lockstep h R A' p p' :=
  fun w w' hR => ⟨(hp w w' hR).1.mono hA, (hp w w' hR).2⟩

theorem perform (o o' : S.Op) {A : S.Res o → S.Res o' → Prop}
    (ho : ∀ w w', R w w' → Agree A (h o w).1 (h o' w').1 ∧ R (h o w).2 (h o' w').2) :
    Lockstep h R A (Prog.perform o) (Prog.perform o') := by
  intro w w' hR
  rw [Prog.run_perform, Prog.run_perform]
  exact ho w w' hR

theorem bind {p : Prog S E α} {p' : Prog S E β} {f : α → Prog S E γ} {f' : β → Prog S E δ}
    (hp : Lockstep h R A p p') (hf : ∀ a b, A a b → Lockstep h R B (f a) (f' b)) :
    Lockstep h R B (p.bind f) (p'.bind f') := by
  intro w w' hR
  obtain ⟨hAgree, hAfter⟩ := hp w w' hR
  rw [Prog.run_bind, Prog.run_bind]
  rcases hRun : p.run h w with ⟨r, v⟩
  rcases hRun' : p'.run h w' with ⟨r', v'⟩
  rw [hRun, hRun'] at hAgree hAfter
  cases hAgree with
  | ok hA => exact hf _ _ hA v v' hAfter
  | error e => exact ⟨.error e, hAfter⟩

theorem attempt {p : Prog S E α} {p' : Prog S E β} (hp : Lockstep h R A p p') :
    Lockstep h R (Agree A) p.attempt p'.attempt := by
  intro w w' hR
  rw [Prog.run_attempt, Prog.run_attempt]
  exact ⟨.ok (hp w w' hR).1, (hp w w' hR).2⟩

theorem catching {p : Prog S E α} {p' : Prog S E β} {recover : E → Prog S E α}
    {recover' : E → Prog S E β} (hp : Lockstep h R A p p')
    (hr : ∀ e, Lockstep h R A (recover e) (recover' e)) :
    Lockstep h R A (p.catching recover) (p'.catching recover') := by
  apply bind (attempt hp)
  intro r r' hAgree
  cases hAgree with
  | ok hA => exact pure hA
  | error e => exact hr e

end Lockstep

end Effect
