import Manejaplus.Effect.Pool

/-! # What one permitted operation keeps, every run keeps

An invariant of a pool has two parts: one of the world, and one of each ghost
in that world. Both are shown of a single permitted operation, against the
ghost of its own thread and against that of any other.
-/
namespace Effect
set_option autoImplicit false

variable {S : Signature} {E W Γ ι α β : Type}

namespace Obeys
variable {h : Handler S E W} {P : Protocol S E W Γ} {I : W → Prop} {γ : Γ}

/-- One operation, and what comes after it if it goes through. -/
theorem perform_cases {o : S.Op} {f : S.Res o → Prog S E β} {Q : Γ → Except E β → Prop}
    (hAllows : P.allows γ o)
    (hOk : ∀ w a, (h o w).1 = .ok a → Obeys h P I (P.next γ w o (.ok a)) (f a) Q)
    (hError : ∀ w e, Q (P.next γ w o (.error e)) (.error e)) :
    Obeys h P I γ ((Prog.perform o).bind f) Q := by
  refine ⟨hAllows, fun w _ => ?_⟩
  cases hAnswer : (h o w).1 with
  | ok a => exact hOk w a hAnswer
  | error e => exact hError w e

theorem attempt_then {p : Prog S E α} {f : Except E α → Prog S E β} {R : Γ → Except E α → Prop}
    {Q : Γ → Except E β → Prop} (hp : Obeys h P I γ p R)
    (hf : ∀ γ' r, R γ' r → Obeys h P I γ' (f r) Q) : Obeys h P I γ (p.attempt.bind f) Q :=
  bind.mpr (attempt.mpr (mono hf hp))

theorem carrying {J : Γ → Prop} {p : Prog S E α} {Q : Γ → Except E α → Prop}
    (hNext : ∀ γ w o r, J γ → J (P.next γ w o r)) (hJ : J γ) (hp : Obeys h P I γ p Q) :
    Obeys h P I γ p fun γ' r => J γ' ∧ Q γ' r := by
  induction p generalizing γ with
  | pure a => exact ⟨hJ, hp⟩
  | throw e => exact ⟨hJ, hp⟩
  | op o k ih => exact ⟨hp.1, fun w hw => ih _ (hNext _ _ _ _ hJ) (hp.2 w hw)⟩

end Obeys

/-- Every operation that the protocol permits keeps the invariant of the world, moves the ghost of
its thread within its own, and leaves the others' true. -/
structure Maintains (h : Handler S E W) (P : Protocol S E W Γ) (K : W → Prop)
    (J : W → Γ → Prop) : Prop where
  world : ∀ w γ o, K w → J w γ → P.allows γ o → K (h o w).2
  own : ∀ w γ o, K w → J w γ → P.allows γ o → J (h o w).2 (P.next γ w o (h o w).1)
  others : ∀ w γ γ' o, K w → J w γ → P.allows γ o → J w γ' → J (h o w).2 γ'

/-- The invariant, of threads that all keep to the protocol. -/
structure Maintained (h : Handler S E W) (P : Protocol S E W Γ) (Q : ι → Γ → Except E α → Prop)
    (K : W → Prop) (J : W → Γ → Prop) (p : Pool S E W α Γ ι) : Prop where
  obedient : p.Obedient h P (fun _ => True) Q
  world : K p.world
  ghost : ∀ i, J p.world (p.threads i).ghost

variable [DecidableEq ι] {h : Handler S E W} {P : Protocol S E W Γ}
  {Q : ι → Γ → Except E α → Prop} {K : W → Prop} {J : W → Γ → Prop} {p : Pool S E W α Γ ι}

namespace Maintained

theorem step (hKeeps : Maintains h P K J) (hp : Maintained h P Q K J p) (i : ι) :
    Maintained h P Q K J (p.step h P i) := by
  have hObedient := Pool.obedient_step hp.obedient trivial i
  obtain hIdle | ⟨o, k, hProg, hStep⟩ := Pool.step_cases h P p i
  · rwa [hIdle]
  have hAllows := hp.obedient.allows hProg
  refine ⟨hObedient, ?_, fun j => ?_⟩
  · rw [hStep]
    exact hKeeps.world _ _ _ hp.world (hp.ghost i) hAllows
  · rw [hStep]
    by_cases hj : j = i
    · subst hj
      simpa only [Function.update_self] using hKeeps.own _ _ _ hp.world (hp.ghost j) hAllows
    · simpa only [Function.update_of_ne hj] using
        hKeeps.others _ _ _ _ hp.world (hp.ghost i) hAllows (hp.ghost j)

theorem run (hKeeps : Maintains h P K J) (hp : Maintained h P Q K J p) (schedule : List ι) :
    Maintained h P Q K J (p.run h P schedule) :=
  Pool.run_invariant (J := Maintained h P Q K J) (fun _ i hp => hp.step hKeeps i) hp schedule

omit [DecidableEq ι] in
theorem ended (hp : Maintained h P Q K J p) {i : ι} {r : Except E α}
    (hDone : (p.threads i).prog.result = some r) :
    Q i (p.threads i).ghost r ∧ J p.world (p.threads i).ghost := by
  obtain ⟨r', hResult, hEnd⟩ := hp.obedient.ended (i := i) (by rw [hDone]; rfl)
  cases hDone.symm.trans hResult
  exact ⟨hEnd, hp.ghost i⟩

end Maintained

theorem Pool.unchanged {ξ : Type} {F : Γ → ξ} (hNext : ∀ γ w o r, F (P.next γ w o r) = F γ)
    (schedule : List ι) (i : ι) :
    F ((p.run h P schedule).threads i).ghost = F (p.threads i).ghost := by
  refine Pool.run_invariant (J := fun q : Pool S E W α Γ ι =>
    ∀ i, F (q.threads i).ghost = F (p.threads i).ghost) (fun q i hq j => ?_) (fun _ => rfl) schedule i
  obtain hIdle | ⟨o, k, _, hStep⟩ := Pool.step_cases h P q i
  · rw [hIdle]
    exact hq j
  · rw [hStep]
    by_cases hj : j = i
    · subst hj
      simp only [Function.update_self]
      exact (hNext _ _ _ _).trans (hq j)
    · simpa only [Function.update_of_ne hj] using hq j

/-- What a ghost has come to, one permitted operation of its thread has brought. -/
theorem Pool.learned {G : Γ → Prop} {i : ι} (hObedient : p.Obedient h P (fun _ => True) Q)
    (hNew : ¬ G (p.threads i).ghost) {schedule : List ι}
    (hEnd : G ((p.run h P schedule).threads i).ghost) :
    ∃ earlier later o k, schedule = earlier ++ i :: later ∧
      ((p.run h P earlier).threads i).prog = .op o k ∧
      P.allows ((p.run h P earlier).threads i).ghost o ∧
      ¬ G ((p.run h P earlier).threads i).ghost ∧
      G (P.next ((p.run h P earlier).threads i).ghost (p.run h P earlier).world o
        (h o (p.run h P earlier).world).1) := by
  induction schedule generalizing p with
  | nil => exact absurd hEnd hNew
  | cons j schedule ih =>
    by_cases hFirst : G ((p.step h P j).threads i).ghost
    · obtain hIdle | ⟨o, k, hProg, hStep⟩ := Pool.step_cases h P p j
      · rw [hIdle] at hFirst
        exact absurd hFirst hNew
      rw [hStep] at hFirst
      by_cases hi : i = j
      · subst hi
        simp only [Function.update_self] at hFirst
        exact ⟨[], schedule, o, k, rfl, hProg, hObedient.allows hProg, hNew, hFirst⟩
      · simp only [Function.update_of_ne hi] at hFirst
        exact absurd hFirst hNew
    · obtain ⟨earlier, later, o, k, rfl, hLearned⟩ :=
        ih (Pool.obedient_step hObedient trivial j) hFirst hEnd
      exact ⟨j :: earlier, later, o, k, rfl, hLearned⟩

/-- What is found in the world, and was not there at the start, some thread has recorded. -/
theorem Pool.recorded {ξ : Type} {F : W → ξ → Prop} {G : Γ → ξ → Prop}
    (hStep : ∀ w γ o x, F (h o w).2 x → F w x ∨ G (P.next γ w o (h o w).1) x)
    (hKeep : ∀ w γ o r x, G γ x → G (P.next γ w o r) x) (schedule : List ι) {x : ξ}
    (hFound : F (p.run h P schedule).world x) :
    F p.world x ∨ ∃ i, G ((p.run h P schedule).threads i).ghost x := by
  refine Pool.run_invariant (J := fun q : Pool S E W α Γ ι => ∀ x, F q.world x →
    F p.world x ∨ ∃ i, G (q.threads i).ghost x) (fun q i hq x hx => ?_)
    (fun x hx => .inl hx) schedule x hFound
  obtain hIdle | ⟨o, k, _, hNext⟩ := Pool.step_cases h P q i
  · rw [hIdle] at hx ⊢
    exact hq x hx
  rw [hNext] at hx ⊢
  obtain hOld | hNew := hStep _ (q.threads i).ghost o x hx
  · refine (hq x hOld).imp_right ?_
    rintro ⟨j, hj⟩
    refine ⟨j, ?_⟩
    by_cases hSame : j = i
    · subst hSame
      simpa only [Function.update_self] using hKeep _ _ _ _ x hj
    · simpa only [Function.update_of_ne hSame] using hj
  · exact .inr ⟨i, by simpa only [Function.update_self] using hNew⟩

end Effect
