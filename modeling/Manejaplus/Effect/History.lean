import Mathlib.Logic.Basic

/-! # Requests served one at a time

A run is the list of the requests served so far, the latest first. Its history
lists what each of them found, answered and left behind.
-/
namespace Effect
set_option autoImplicit false

variable {W R O : Type}

structure Event (W R O : Type) where
  before : W
  request : R
  outcome : O
  after : W

variable (serve : R → W → O × W) (start : W)

def reach : List R → W
  | [] => start
  | r :: rs => (serve r (reach rs)).2

def serveEvent (r : R) (w : W) : Event W R O := ⟨w, r, (serve r w).1, (serve r w).2⟩

def history : List R → List (Event W R O)
  | [] => []
  | r :: rs => serveEvent serve r (reach serve start rs) :: history rs

/-- Each request of the run meets a condition on the past it is served in. -/
def Steps (C : List (Event W R O) → W → R → Prop) : List R → Prop
  | [] => True
  | r :: rs => C (history serve start rs) (reach serve start rs) r ∧ Steps C rs

variable {serve start}

@[simp] theorem serveEvent_before (r : R) (w : W) : (serveEvent serve r w).before = w := rfl

@[simp] theorem serveEvent_after (r : R) (w : W) :
    (serveEvent serve r w).after = (serve r w).2 := rfl

theorem history_induction {J : List (Event W R O) → W → Prop}
    {C : List (Event W R O) → W → R → Prop} (hStart : J [] start)
    (hStep : ∀ past w r, J past w → C past w r →
      J (serveEvent serve r w :: past) (serve r w).2)
    {rs : List R} (hC : Steps serve start C rs) :
    J (history serve start rs) (reach serve start rs) := by
  induction rs with
  | nil => exact hStart
  | cons r rs ih => exact hStep _ _ r (ih hC.2) hC.1

theorem steps_true (rs : List R) : Steps serve start (fun _ _ _ => True) rs := by
  induction rs with
  | nil => trivial
  | cons r rs ih => exact ⟨trivial, ih⟩

theorem history_invariant {J : List (Event W R O) → W → Prop} (hStart : J [] start)
    (hStep : ∀ past w r, J past w → J (serveEvent serve r w :: past) (serve r w).2)
    (rs : List R) : J (history serve start rs) (reach serve start rs) :=
  history_induction hStart (fun past w r hJ _ => hStep past w r hJ) (steps_true rs)

theorem reach_append (rs rs' : List R) :
    reach serve start (rs ++ rs') = reach serve (reach serve start rs') rs := by
  induction rs with
  | nil => rfl
  | cons r rs ih => exact congrArg (fun w => (serve r w).2) ih

/-- Every event of a history parts the run in what was served before it and what came after. -/
theorem history_split {rs : List R} {newer older : List (Event W R O)} {ev : Event W R O}
    (h : history serve start rs = newer ++ ev :: older) :
    ∃ later r earlier, rs = later ++ r :: earlier ∧
      newer = history serve ev.after later ∧ older = history serve start earlier ∧
      ev = serveEvent serve r (reach serve start earlier) := by
  induction rs generalizing newer with
  | nil => cases newer <;> cases h
  | cons r rs ih =>
    cases newer with
    | nil =>
      cases h
      exact ⟨[], r, rs, rfl, rfl, rfl, rfl⟩
    | cons latest newer =>
      obtain ⟨hLatest, hRest⟩ := List.cons.inj h
      obtain ⟨later, r', earlier, rfl, hNewer, hOlder, hEvent⟩ := ih hRest
      refine ⟨r :: later, r', earlier, rfl, ?_, hOlder, hEvent⟩
      rw [history, hNewer, ← hLatest, reach_append, hEvent]
      rfl

/-- What every single step guarantees of its event holds of the whole history. -/
theorem history_forall {P : Event W R O → Prop} {C : List (Event W R O) → W → R → Prop}
    (hStep : ∀ past w r, C past w r → P (serveEvent serve r w)) {rs : List R}
    (hC : Steps serve start C rs) : ∀ ev ∈ history serve start rs, P ev :=
  history_induction (J := fun past _ => ∀ ev ∈ past, P ev) nofun
    (fun past w r hPast hr => List.forall_mem_cons.mpr ⟨hStep past w r hr, hPast⟩) hC

/-- A property of single events, as a condition on the steps of the run. -/
theorem forall_history_iff {P : Event W R O → Prop} {rs : List R} :
    (∀ ev ∈ history serve start rs, P ev) ↔
      Steps serve start (fun _ w r => P (serveEvent serve r w)) rs := by
  induction rs with
  | nil => exact iff_of_true (fun ev hev => absurd hev List.not_mem_nil) trivial
  | cons r rs ih => exact List.forall_mem_cons.trans (and_congr_right fun _ => ih)

theorem mem_history {ev : Event W R O} {rs : List R} (h : ev ∈ history serve start rs) :
    ∃ r w, ev = serveEvent serve r w :=
  history_forall (P := fun ev => ∃ r w, ev = serveEvent serve r w) (C := fun _ _ _ => True)
    (fun _ w r _ => ⟨r, w, rfl⟩) (steps_true rs) ev h

end Effect
