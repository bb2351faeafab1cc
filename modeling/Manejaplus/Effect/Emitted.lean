import Manejaplus.Effect.Pool

/-! # What the steps of a run emit

An observer of a run keeps a log, to which each step adds. An invariant of pool
and log carries over from one step to the run; so does a condition on the steps
that looks at what the log has so far.
-/
namespace Effect
namespace Pool
set_option autoImplicit false

variable {S : Signature} {E W Γ ι α L : Type} [DecidableEq ι]

section
variable (h : Handler S E W) (P : Protocol S E W Γ) (emit : Pool S E W α Γ ι → ι → List L)

/-- The log of a run, in the order of its steps. -/
def emitted (p : Pool S E W α Γ ι) : List ι → List L
  | [] => []
  | i :: schedule => emit p i ++ emitted (p.step h P i) schedule

/-- Every step of the run meets a condition on the log so far and the pool it is taken in. -/
def AlongLog (C : List L → Pool S E W α Γ ι → ι → Prop) :
    List L → Pool S E W α Γ ι → List ι → Prop
  | _, _, [] => True
  | log, p, i :: schedule => C log p i ∧ AlongLog C (log ++ emit p i) (p.step h P i) schedule

end

variable {h : Handler S E W} {P : Protocol S E W Γ} {emit : Pool S E W α Γ ι → ι → List L}

theorem alongLog_mono {C C' : List L → Pool S E W α Γ ι → ι → Prop}
    (hImp : ∀ log p i, C log p i → C' log p i) {log : List L} {p : Pool S E W α Γ ι}
    {schedule : List ι} (hC : AlongLog h P emit C log p schedule) :
    AlongLog h P emit C' log p schedule := by
  induction schedule generalizing log p with
  | nil => trivial
  | cons i schedule ih => exact ⟨hImp _ _ _ hC.1, ih hC.2⟩

theorem alongLog_prefix {C : List L → Pool S E W α Γ ι → ι → Prop} {log : List L}
    {p : Pool S E W α Γ ι} {earlier schedule : List ι} (hPrefix : earlier <+: schedule)
    (hC : AlongLog h P emit C log p schedule) : AlongLog h P emit C log p earlier := by
  induction earlier generalizing log p schedule with
  | nil => trivial
  | cons i earlier ih =>
    obtain ⟨later, rfl⟩ := hPrefix
    exact ⟨hC.1, ih (List.prefix_append earlier later) hC.2⟩

theorem run_emitted {J : Pool S E W α Γ ι → List L → Prop} {C : Pool S E W α Γ ι → ι → Prop}
    (hStep : ∀ p i log, J p log → C p i → J (p.step h P i) (log ++ emit p i))
    {schedule : List ι} {p : Pool S E W α Γ ι} {log : List L} (hJ : J p log)
    (hC : Along h P C p schedule) : J (p.run h P schedule) (log ++ emitted h P emit p schedule) := by
  induction schedule generalizing p log with
  | nil =>
    rw [emitted, List.append_nil]
    exact hJ
  | cons i schedule ih =>
    rw [emitted, ← List.append_assoc]
    exact ih (hStep p i log hJ hC.1) hC.2

/-- The counterpart of `run_exact` for a condition that looks at the log. -/
theorem run_exact_log {J : Pool S E W α Γ ι → List L → Prop} {K : Pool S E W α Γ ι → Prop}
    {C : List L → Pool S E W α Γ ι → ι → Prop}
    (hStep : ∀ p i log, J p log → J (p.step h P i) (log ++ emit p i))
    (hExact : ∀ p i log, J p log → (K (p.step h P i) ↔ K p ∧ C log p i))
    {p : Pool S E W α Γ ι} {log : List L} (hJ : J p log) (schedule : List ι) :
    K (p.run h P schedule) ↔ K p ∧ AlongLog h P emit C log p schedule := by
  induction schedule generalizing p log with
  | nil => exact (and_iff_left trivial).symm
  | cons i schedule ih =>
    rw [run_cons, ih (hStep p i log hJ), hExact p i log hJ, and_assoc]
    rfl

end Pool
end Effect
