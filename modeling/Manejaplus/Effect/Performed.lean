import Manejaplus.Effect.Program

/-! # The operations that a run performs

A run lists what it has awaited, in order, each with its answer and the worlds
before and after it.
-/
namespace Effect
set_option autoImplicit false

structure Performed (S : Signature) (E W : Type) where
  before : W
  op : S.Op
  answer : Except E (S.Res op)
  after : W

variable {S : Signature} {E W α β : Type}

namespace Prog
variable (h : Handler S E W)

def once (o : S.Op) (w : W) : Performed S E W := ⟨w, o, (h o w).1, (h o w).2⟩

def performed : Prog S E α → W → List (Performed S E W)
  | .pure _, _ => []
  | .throw _, _ => []
  | .op o k, w => once h o w :: performed (k (h o w).1) (h o w).2

@[simp] theorem performed_perform (o : S.Op) (w : W) :
    performed h (perform o) w = [once h o w] := by
  simp only [perform, performed]
  cases (h o w).1 <;> rfl

/-- What comes after a program is performed only if the program returns. -/
theorem performed_bind (p : Prog S E α) (f : α → Prog S E β) (w : W) :
    performed h (p.bind f) w = performed h p w ++ match run h p w with
      | (.ok a, w') => performed h (f a) w'
      | (.error _, _) => [] := by
  induction p generalizing w with
  | pure a => rfl
  | throw e => rfl
  | op o k ih => exact congrArg (List.cons _) (ih _ _)

theorem performed_bind_of_ok {p : Prog S E α} {f : α → Prog S E β} {w w' : W} {a : α}
    (hp : run h p w = (.ok a, w')) :
    performed h (p.bind f) w = performed h p w ++ performed h (f a) w' := by
  rw [performed_bind, hp]

theorem performed_bind_of_error {p : Prog S E α} {f : α → Prog S E β} {w w' : W} {e : E}
    (hp : run h p w = (.error e, w')) : performed h (p.bind f) w = performed h p w := by
  rw [performed_bind, hp]
  exact List.append_nil _

theorem performed_map (p : Prog S E α) (f : α → β) (w : W) :
    performed h (p.bind fun a => .pure (f a)) w = performed h p w := by
  match hp : run h p w with
  | (.ok _, _) => exact (performed_bind_of_ok h hp).trans (List.append_nil _)
  | (.error _, _) => exact performed_bind_of_error h hp

@[simp] theorem performed_attempt (p : Prog S E α) (w : W) :
    performed h p.attempt w = performed h p w := by
  induction p generalizing w with
  | pure a => rfl
  | throw e => rfl
  | op o k ih => exact congrArg (List.cons _) (ih _ _)

/-- A recovery that performs nothing. -/
theorem performed_catching {p : Prog S E α} {recover : E → Prog S E α}
    (hRecover : ∀ e w, performed h (recover e) w = []) (w : W) :
    performed h (p.catching recover) w = performed h p w := by
  rw [catching, performed_bind, performed_attempt, run_attempt]
  cases (run h p w).1 with
  | error e => exact (congrArg _ (hRecover e _)).trans (List.append_nil _)
  | ok a => exact List.append_nil _

theorem op_of_performed {allowed : S.Op → Prop} {p : Prog S E α} (hp : p.Uses allowed) (w : W) :
    ∀ s ∈ performed h p w, allowed s.op := by
  induction p generalizing w with
  | pure a => exact nofun
  | throw e => exact nofun
  | op o k ih => exact List.forall_mem_cons.mpr ⟨hp.1, ih _ (hp.2 _) _⟩

/-- Every operation takes place between the worlds that the run begins and ends in. -/
theorem performed_between {allowed : S.Op → Prop} {R : W → W → Prop} (hRefl : ∀ w, R w w)
    (hTrans : ∀ u v w, R u v → R v w → R u w) (hOp : ∀ o, allowed o → ∀ w, R w (h o w).2)
    {p : Prog S E α} (hp : p.Uses allowed) (w : W) :
    ∀ s ∈ performed h p w, R w s.before ∧ R s.after (run h p w).2 := by
  induction p generalizing w with
  | pure a => exact nofun
  | throw e => exact nofun
  | op o k ih =>
    refine List.forall_mem_cons.mpr ⟨⟨hRefl w, ?_⟩, fun s hs => ?_⟩
    · exact run_keeps h hRefl hTrans hOp (hp.2 _) _
    · obtain ⟨hBefore, hAfter⟩ := ih _ (hp.2 _) _ s hs
      exact ⟨hTrans _ _ _ (hOp o hp.1 w) hBefore, hAfter⟩

end Prog

end Effect
