import Mathlib.Data.Fintype.Defs
import Mathlib.Logic.Function.Basic
import Manejaplus.Effect.Program

/-! # Interleaved programs under a protocol

A pool runs many programs over one world, one operation at a time and in any
order. Each thread carries a ghost value that records what it has seen; a
protocol says how the ghost moves and which operations it permits. Whether a
program keeps to the protocol is decided one program at a time, against worlds
that the others may have changed in any way an invariant allows.
-/
namespace Effect
set_option autoImplicit false

variable {S : Signature} {E W Γ ι α β : Type}

structure Protocol (S : Signature) (E W Γ : Type) where
  next : Γ → W → (o : S.Op) → Except E (S.Res o) → Γ
  allows : Γ → S.Op → Prop

section Obeys

variable (h : Handler S E W) (P : Protocol S E W Γ) (I : W → Prop)

/-- The program keeps to the protocol as long as every operation finds a world in `I`, and ends
in `Q`. -/
def Obeys : Γ → Prog S E α → (Γ → Except E α → Prop) → Prop
  | γ, .pure a, Q => Q γ (.ok a)
  | γ, .throw e, Q => Q γ (.error e)
  | γ, .op o k, Q => P.allows γ o ∧
      ∀ w, I w → Obeys (P.next γ w o (h o w).1) (k (h o w).1) Q

end Obeys

namespace Obeys
variable {h : Handler S E W} {P : Protocol S E W Γ} {I : W → Prop} {γ : Γ}
  {Q : Γ → Except E α → Prop}

theorem ofExcept (r : Except E α) : Obeys h P I γ (Prog.ofExcept r) Q ↔ Q γ r := by
  cases r <;> rfl

theorem perform (o : S.Op) {Q : Γ → Except E (S.Res o) → Prop} :
    Obeys h P I γ (Prog.perform o) Q ↔
      P.allows γ o ∧ ∀ w, I w → Q (P.next γ w o (h o w).1) (h o w).1 := by
  simp [Prog.perform, Obeys, ofExcept]

theorem mono {p : Prog S E α} {Q' : Γ → Except E α → Prop} (hQ : ∀ γ r, Q γ r → Q' γ r)
    (hp : Obeys h P I γ p Q) : Obeys h P I γ p Q' := by
  induction p generalizing γ with
  | pure a => exact hQ _ _ hp
  | throw e => exact hQ _ _ hp
  | op o k ih => exact ⟨hp.1, fun w hw => ih _ (hp.2 w hw)⟩

theorem bind {p : Prog S E α} {f : α → Prog S E β} {Q : Γ → Except E β → Prop} :
    Obeys h P I γ (p.bind f) Q ↔ Obeys h P I γ p fun γ' r => match r with
      | .ok a => Obeys h P I γ' (f a) Q
      | .error e => Q γ' (.error e) := by
  induction p generalizing γ with
  | pure a => rfl
  | throw e => rfl
  | op o k ih => exact and_congr_right fun _ => forall_congr' fun w => imp_congr_right fun _ => ih _

theorem attempt {p : Prog S E α} {Q : Γ → Except E (Except E α) → Prop} :
    Obeys h P I γ p.attempt Q ↔ Obeys h P I γ p fun γ' r => Q γ' (.ok r) := by
  induction p generalizing γ with
  | pure a => rfl
  | throw e => rfl
  | op o k ih => exact and_congr_right fun _ => forall_congr' fun w => imp_congr_right fun _ => ih _

theorem catching {p : Prog S E α} {recover : E → Prog S E α} :
    Obeys h P I γ (p.catching recover) Q ↔ Obeys h P I γ p fun γ' r => match r with
      | .ok a => Q γ' (.ok a)
      | .error e => Obeys h P I γ' (recover e) Q := by
  rw [Prog.catching, bind, attempt]
  constructor <;> exact mono fun γ r hr => by cases r <;> exact hr

theorem seq {p : Prog S E α} {f : α → Prog S E β} {R : Γ → Except E α → Prop}
    {Q : Γ → Except E β → Prop} (hp : Obeys h P I γ p R)
    (hOk : ∀ γ' a, R γ' (.ok a) → Obeys h P I γ' (f a) Q)
    (hError : ∀ γ' e, R γ' (.error e) → Q γ' (.error e)) : Obeys h P I γ (p.bind f) Q := by
  rw [bind]
  refine mono (fun γ' r hr => ?_) hp
  cases r with
  | ok a => exact hOk γ' a hr
  | error e => exact hError γ' e hr

/-- An operation that cannot fail, and what comes after it. -/
theorem perform_then {o : S.Op} {f : S.Res o → Prog S E β} {Q : Γ → Except E β → Prop}
    (hAllows : P.allows γ o) (hTotal : ∀ w, ∃ a, (h o w).1 = .ok a)
    (hf : ∀ w a, Obeys h P I (P.next γ w o (.ok a)) (f a) Q) :
    Obeys h P I γ ((Prog.perform o).bind f) Q := by
  refine ⟨hAllows, fun w _ => ?_⟩
  obtain ⟨a, hOk⟩ := hTotal w
  rw [hOk]
  exact hf w a

/-- A protocol that sees less of the ghost and permits more is kept to as well. -/
theorem map {Γ' : Type} {P' : Protocol S E W Γ'} {I' : W → Prop} {Q' : Γ' → Except E α → Prop}
    (φ : Γ → Γ')
    (hNext : ∀ γ w o r, P'.next (φ γ) w o r = φ (P.next γ w o r))
    (hAllows : ∀ γ o, P.allows γ o → P'.allows (φ γ) o) (hI : ∀ w, I' w → I w)
    (hQ : ∀ γ r, Q γ r → Q' (φ γ) r) {p : Prog S E α} (hp : Obeys h P I γ p Q) :
    Obeys h P' I' (φ γ) p Q' := by
  induction p generalizing γ with
  | pure a => exact hQ _ _ hp
  | throw e => exact hQ _ _ hp
  | op o k ih =>
    refine ⟨hAllows _ _ hp.1, fun w hw => ?_⟩
    rw [hNext]
    exact ih _ (hp.2 w (hI w hw))

/-- Operations that the protocol permits without moving a property of the ghost keep it. -/
theorem of_uses {allowed : S.Op → Prop} {J : Γ → Prop} {p : Prog S E α} (hp : p.Uses allowed)
    (hAllow : ∀ γ o, J γ → allowed o → P.allows γ o)
    (hNext : ∀ γ w o r, J γ → allowed o → J (P.next γ w o r)) (hJ : J γ) :
    Obeys h P I γ p fun γ' _ => J γ' := by
  induction p generalizing γ with
  | pure a => exact hJ
  | throw e => exact hJ
  | op o k ih =>
    exact ⟨hAllow _ _ hJ hp.1, fun w _ => ih _ (hp.2 _) (hNext _ _ _ _ hJ hp.1)⟩

end Obeys

structure Thread (S : Signature) (E α Γ : Type) where
  prog : Prog S E α
  ghost : Γ

structure Pool (S : Signature) (E W α Γ ι : Type) where
  world : W
  threads : ι → Thread S E α Γ

namespace Pool
variable [DecidableEq ι] (h : Handler S E W) (P : Protocol S E W Γ)

/-- Thread `i` performs the operation it awaits; a finished thread does nothing. -/
def step (p : Pool S E W α Γ ι) (i : ι) : Pool S E W α Γ ι :=
  match (p.threads i).prog with
  | .op o k =>
    let answer := h o p.world
    ⟨answer.2, Function.update p.threads i
      ⟨k answer.1, P.next (p.threads i).ghost p.world o answer.1⟩⟩
  | _ => p

/-- One run: the schedule names the thread that goes next, in any order. -/
def run (p : Pool S E W α Γ ι) (schedule : List ι) : Pool S E W α Γ ι :=
  schedule.foldl (step h P) p

/-- Every step of the run meets a condition on the pool it is taken in. -/
def Along (C : Pool S E W α Γ ι → ι → Prop) : Pool S E W α Γ ι → List ι → Prop
  | _, [] => True
  | p, i :: schedule => C p i ∧ Along C (step h P p i) schedule

instance decidableAlong (C : Pool S E W α Γ ι → ι → Prop) [∀ p i, Decidable (C p i)] :
    (p : Pool S E W α Γ ι) → (schedule : List ι) → Decidable (Along h P C p schedule)
  | _, [] => isTrue trivial
  | p, i :: schedule =>
    have := decidableAlong C (step h P p i) schedule
    inferInstanceAs (Decidable (_ ∧ _))

def Finished (p : Pool S E W α Γ ι) : Prop := ∀ i, (p.threads i).prog.result.isSome

omit [DecidableEq ι] in
instance [Fintype ι] (p : Pool S E W α Γ ι) : Decidable p.Finished :=
  inferInstanceAs (Decidable (∀ _, _))

variable {h P}

@[simp] theorem run_nil (p : Pool S E W α Γ ι) : p.run h P [] = p := rfl

@[simp] theorem run_cons (p : Pool S E W α Γ ι) (i : ι) (schedule : List ι) :
    p.run h P (i :: schedule) = (p.step h P i).run h P schedule := rfl

theorem run_append (p : Pool S E W α Γ ι) (earlier later : List ι) :
    p.run h P (earlier ++ later) = (p.run h P earlier).run h P later := List.foldl_append

theorem along_iff {C : Pool S E W α Γ ι → ι → Prop} {p : Pool S E W α Γ ι} {schedule : List ι} :
    Along h P C p schedule ↔
      ∀ earlier i later, schedule = earlier ++ i :: later → C (p.run h P earlier) i := by
  induction schedule generalizing p with
  | nil => exact ⟨fun _ earlier i later hSplit => by simp at hSplit, fun _ => trivial⟩
  | cons i schedule ih =>
    constructor
    · rintro ⟨hFirst, hRest⟩ earlier j later hSplit
      cases earlier with
      | nil =>
        cases hSplit
        exact hFirst
      | cons k earlier =>
        cases hSplit
        exact ih.mp hRest earlier j later rfl
    · intro hAll
      refine ⟨hAll [] i schedule rfl, ih.mpr ?_⟩
      rintro earlier j later rfl
      exact hAll (i :: earlier) j later rfl

theorem along_append {C : Pool S E W α Γ ι → ι → Prop} {p : Pool S E W α Γ ι}
    {earlier later : List ι} : Along h P C p (earlier ++ later) ↔
      Along h P C p earlier ∧ Along h P C (p.run h P earlier) later := by
  induction earlier generalizing p with
  | nil => exact (iff_of_eq (true_and _)).symm
  | cons i earlier ih => exact (and_congr_right fun _ => ih).trans and_assoc.symm

theorem step_idle {p : Pool S E W α Γ ι} {i : ι} (hDone : (p.threads i).prog.result.isSome) :
    p.step h P i = p := by
  unfold step
  split
  · rename_i o k hProg
    rw [hProg] at hDone
    cases hDone
  · rfl

theorem step_op {p : Pool S E W α Γ ι} {i : ι} {o : S.Op} {k : Except E (S.Res o) → Prog S E α}
    (hProg : (p.threads i).prog = .op o k) :
    p.step h P i = ⟨(h o p.world).2, Function.update p.threads i
      ⟨k (h o p.world).1, P.next (p.threads i).ghost p.world o (h o p.world).1⟩⟩ := by
  unfold step
  rw [hProg]

/-- What the logs of all threads satisfy after thread `i` has added to its own. -/
theorem forall_mem_log {A : Type} {Q : ι → A → Prop} {threads : ι → Thread S E α (List A)}
    {i : ι} {prog : Prog S E α} {added : List A} :
    (∀ j, ∀ a ∈ (Function.update threads i ⟨prog, (threads i).ghost ++ added⟩ j).ghost, Q j a) ↔
      (∀ j, ∀ a ∈ (threads j).ghost, Q j a) ∧ ∀ a ∈ added, Q i a := by
  constructor
  · intro hAll
    have hOwn := hAll i
    simp only [Function.update_self, List.forall_mem_append] at hOwn
    refine ⟨fun j => ?_, hOwn.2⟩
    by_cases hj : j = i
    · exact hj ▸ hOwn.1
    · simpa only [Function.update_of_ne hj] using hAll j
  · rintro ⟨hBefore, hAdded⟩ j
    by_cases hj : j = i
    · subst hj
      simpa only [Function.update_self] using List.forall_mem_append.mpr ⟨hBefore j, hAdded⟩
    · simpa only [Function.update_of_ne hj] using hBefore j

/-- What one step can do: nothing, or the operation the thread awaits. -/
theorem step_cases (h : Handler S E W) (P : Protocol S E W Γ) (p : Pool S E W α Γ ι) (i : ι) :
    p.step h P i = p ∨ ∃ o k, (p.threads i).prog = .op o k ∧
      p.step h P i = ⟨(h o p.world).2, Function.update p.threads i
        ⟨k (h o p.world).1, P.next (p.threads i).ghost p.world o (h o p.world).1⟩⟩ := by
  match hProg : (p.threads i).prog with
  | .pure a => exact .inl (step_idle (by rw [hProg]; rfl))
  | .throw e => exact .inl (step_idle (by rw [hProg]; rfl))
  | .op o k => exact .inr ⟨o, k, rfl, step_op hProg⟩

theorem run_induction {J : Pool S E W α Γ ι → Prop} {C : Pool S E W α Γ ι → ι → Prop}
    (hStep : ∀ p i, J p → C p i → J (p.step h P i)) {schedule : List ι}
    {p : Pool S E W α Γ ι} (hJ : J p) (hC : Along h P C p schedule) : J (p.run h P schedule) := by
  induction schedule generalizing p with
  | nil => exact hJ
  | cons i schedule ih => exact ih (hStep p i hJ hC.1) hC.2

/-- Under an invariant, one condition on the steps of a run gives another. -/
theorem along_imp {J : Pool S E W α Γ ι → Prop} {C C' : Pool S E W α Γ ι → ι → Prop}
    (hStep : ∀ p i, J p → C p i → J (p.step h P i)) (hImp : ∀ p i, J p → C p i → C' p i)
    {schedule : List ι} {p : Pool S E W α Γ ι} (hJ : J p) (hC : Along h P C p schedule) :
    Along h P C' p schedule := by
  induction schedule generalizing p with
  | nil => trivial
  | cons i schedule ih => exact ⟨hImp p i hJ hC.1, ih (hStep p i hJ hC.1) hC.2⟩

theorem run_invariant {J : Pool S E W α Γ ι → Prop} (hStep : ∀ p i, J p → J (p.step h P i))
    {p : Pool S E W α Γ ι} (hJ : J p) (schedule : List ι) : J (p.run h P schedule) := by
  induction schedule generalizing p with
  | nil => exact hJ
  | cons i schedule ih => exact ih (hStep p i hJ)

/-- A property that each step carries on exactly when it meets the condition is one that the run
ends with exactly when all its steps do. -/
theorem run_exact {J K : Pool S E W α Γ ι → Prop} {C : Pool S E W α Γ ι → ι → Prop}
    (hStep : ∀ p i, J p → J (p.step h P i))
    (hExact : ∀ p i, J p → (K (p.step h P i) ↔ K p ∧ C p i)) {p : Pool S E W α Γ ι} (hJ : J p)
    (schedule : List ι) : K (p.run h P schedule) ↔ K p ∧ Along h P C p schedule := by
  induction schedule generalizing p with
  | nil => exact (and_iff_left trivial).symm
  | cons i schedule ih => rw [run_cons, ih (hStep p i hJ), hExact p i hJ, and_assoc]; rfl

variable {I : W → Prop}

/-- Every thread keeps to the protocol from where it stands. -/
def Obedient (h : Handler S E W) (P : Protocol S E W Γ) (I : W → Prop)
    (Q : ι → Γ → Except E α → Prop) (p : Pool S E W α Γ ι) : Prop :=
  ∀ i, Obeys h P I (p.threads i).ghost (p.threads i).prog (Q i)

/-- A step may rely on what its own thread asks of the world. -/
theorem obeys_step {I : ι → W → Prop} {Q : ι → Γ → Except E α → Prop} {p : Pool S E W α Γ ι}
    (hp : ∀ j, Obeys h P (I j) (p.threads j).ghost (p.threads j).prog (Q j)) (i : ι)
    (hWorld : I i p.world) (j : ι) :
    Obeys h P (I j) ((p.step h P i).threads j).ghost ((p.step h P i).threads j).prog (Q j) := by
  obtain hIdle | ⟨o, k, hProg, hStep⟩ := step_cases h P p i
  · rw [hIdle]
    exact hp j
  · have hi := hp i
    rw [hProg] at hi
    rw [hStep]
    by_cases hj : j = i
    · subst hj
      simpa using hi.2 p.world hWorld
    · simpa [Function.update_of_ne hj] using hp j

theorem obedient_step {Q : ι → Γ → Except E α → Prop} {p : Pool S E W α Γ ι}
    (hp : p.Obedient h P I Q) (hWorld : I p.world) (i : ι) :
    (p.step h P i).Obedient h P I Q := obeys_step hp i hWorld

omit [DecidableEq ι] in
theorem Obedient.allows {Q : ι → Γ → Except E α → Prop} {p : Pool S E W α Γ ι}
    (hp : p.Obedient h P I Q) {i : ι} {o : S.Op} {k : Except E (S.Res o) → Prog S E α}
    (hProg : (p.threads i).prog = .op o k) : P.allows (p.threads i).ghost o := by
  have hi := hp i
  rw [hProg] at hi
  exact hi.1

omit [DecidableEq ι] in
theorem Obedient.ended {Q : ι → Γ → Except E α → Prop} {p : Pool S E W α Γ ι}
    (hp : p.Obedient h P I Q) {i : ι} (hDone : (p.threads i).prog.result.isSome) :
    ∃ r, (p.threads i).prog.result = some r ∧ Q i (p.threads i).ghost r := by
  have hi := hp i
  match hProg : (p.threads i).prog with
  | .pure a => exact ⟨_, rfl, by rwa [hProg] at hi⟩
  | .throw e => exact ⟨_, rfl, by rwa [hProg] at hi⟩
  | .op o k =>
    rw [hProg] at hDone
    cases hDone

end Pool

end Effect
