import Mathlib.Data.List.Basic

/-! # A journal of writes under transactions

Every write names the transaction it was made in, or none. A transaction is
running until it is committed or rolled back, and what it has written shares
its fate; a write without a transaction is there for good.
-/
namespace Effect
set_option autoImplicit false

/-- A transaction, by the order in which they were opened. -/
abbrev TxId := Nat

inductive TxStatus where
  | running
  | committed
  | rolledBack
  deriving DecidableEq, Repr

structure Entry (A : Type) where
  manager : Option TxId
  item : A

structure Journal (A : Type) where
  entries : List (Entry A)
  status : List TxStatus

namespace Journal
variable {A : Type}

def write (j : Journal A) (manager : Option TxId) (item : A) : Journal A :=
  { j with entries := j.entries ++ [⟨manager, item⟩] }

def begin (j : Journal A) : Journal A := { j with status := j.status ++ [.running] }

def finish (j : Journal A) (tx : TxId) (s : TxStatus) : Journal A :=
  { j with status := j.status.set tx s }

def Under (j : Journal A) (manager : Option TxId) (n : Nat) : Prop :=
  (j.entries[n]?).map Entry.manager = some manager

def Stands (j : Journal A) (tx : TxId) (s : TxStatus) : Prop := j.status[tx]? = some s

/-- The entry is in the database: it was written outside of transactions, or its own committed. -/
def durable (j : Journal A) (n : Nat) : Bool :=
  match (j.entries[n]?).map Entry.manager with
  | some none => true
  | some (some tx) => j.status[tx]? == some .committed
  | none => false

/-- The journal has gone on to the second one, where at most the transaction `moved` has ended. -/
structure Extends (moved : Option TxId) (j j' : Journal A) : Prop where
  running : ∀ tx, moved = some tx → j.Stands tx .running
  entries : ∀ m n, j.Under m n → j'.Under m n
  status : ∀ tx s, moved ≠ some tx → j.Stands tx s → j'.Stands tx s

theorem extends_refl (j : Journal A) : Extends none j j :=
  ⟨fun _ h => (by cases h), fun _ _ h => h, fun _ _ _ h => h⟩

theorem under_write {j : Journal A} {m m' : Option TxId} {item : A} {n : Nat} (h : j.Under m n) :
    (j.write m' item).Under m n := by
  obtain ⟨e, hEntry, hManager⟩ := Option.map_eq_some_iff.mp h
  refine Option.map_eq_some_iff.mpr ⟨e, ?_, hManager⟩
  have hLess : n < j.entries.length := (List.getElem?_eq_some_iff.mp hEntry).1
  rw [write, List.getElem?_append_left hLess, hEntry]

theorem under_new (j : Journal A) (m : Option TxId) (item : A) :
    (j.write m item).Under m j.entries.length := by
  simp [Under, write]

theorem extends_write (j : Journal A) (m : Option TxId) (item : A) :
    Extends none j (j.write m item) :=
  ⟨fun _ h => (by cases h), fun _ _ => under_write, fun _ _ _ h => h⟩

theorem extends_begin (j : Journal A) : Extends none j j.begin := by
  refine ⟨fun _ h => (by cases h), fun _ _ h => h, ?_⟩
  intro tx s _ h
  have hLess : tx < j.status.length := (List.getElem?_eq_some_iff.mp h).1
  rw [Stands, begin, List.getElem?_append_left hLess, h]

theorem stands_begin (j : Journal A) : j.begin.Stands j.status.length .running := by
  simp [Stands, begin]

theorem fresh_begin {j : Journal A} {tx : TxId} {s : TxStatus} (h : j.Stands tx s) :
    tx ≠ j.status.length := by
  have hLess : tx < j.status.length := (List.getElem?_eq_some_iff.mp h).1
  exact Nat.ne_of_lt hLess

theorem stands_finish_of_ne {j : Journal A} {tx tx' : TxId} {s s' : TxStatus} (hOther : tx ≠ tx') :
    (j.finish tx s).Stands tx' s' ↔ j.Stands tx' s' := by
  rw [Stands, finish, List.getElem?_set_ne hOther]
  rfl

theorem extends_finish {j : Journal A} {tx : TxId} {s : TxStatus} (h : j.Stands tx .running) :
    Extends (some tx) j (j.finish tx s) := by
  refine ⟨?_, fun _ _ h => h, ?_⟩
  · rintro tx' ⟨rfl⟩
    exact h
  · intro tx' s' hNe hStands
    have hOther : tx ≠ tx' := fun hSame => hNe (congrArg some hSame)
    exact (stands_finish_of_ne hOther).mpr hStands

theorem stands_finish {j : Journal A} {tx : TxId} {s s' : TxStatus} (h : j.Stands tx s') :
    (j.finish tx s).Stands tx s := by
  have hLess : tx < j.status.length := (List.getElem?_eq_some_iff.mp h).1
  simp [Stands, finish, hLess]

theorem Extends.ended {moved : Option TxId} {j j' : Journal A} (h : Extends moved j j') {tx : TxId}
    {s : TxStatus} (hs : s ≠ .running) (hStands : j.Stands tx s) : j'.Stands tx s := by
  refine h.status tx s (fun hMoved => ?_) hStands
  have hRunning := h.running tx hMoved
  rw [Stands, hStands] at hRunning
  exact hs (Option.some.inj hRunning)

theorem durable_none {j : Journal A} {n : Nat} (h : j.Under none n) : j.durable n = true := by
  rw [durable, h]

theorem durable_some {j : Journal A} {tx : TxId} {s : TxStatus} {n : Nat} (h : j.Under (some tx) n)
    (hStands : j.Stands tx s) : j.durable n = (s == .committed) := by
  rw [durable, h]
  simp only
  rw [hStands]
  rfl

/-- What has been written since. -/
def since (j j' : Journal A) : List (Entry A) := j'.entries.drop j.entries.length

theorem since_of_entries {j j' : Journal A} {added : List (Entry A)}
    (h : j'.entries = j.entries ++ added) : j.since j' = added := by
  rw [since, h, List.drop_left]

theorem since_append {j j₁ j₂ : Journal A} (h : j.entries <+: j₁.entries)
    (h' : j₁.entries <+: j₂.entries) : j.since j₂ = j.since j₁ ++ j₁.since j₂ := by
  obtain ⟨added, hAdded⟩ := h
  obtain ⟨more, hMore⟩ := h'
  rw [since_of_entries hAdded.symm, since_of_entries hMore.symm]
  exact since_of_entries (by rw [← hMore, ← hAdded, List.append_assoc])

theorem forall_since {j j' : Journal A} {tx : TxId} :
    (∀ e ∈ j.since j', e.manager = some tx) ↔
      ∀ n, j.entries.length ≤ n → n < j'.entries.length → j'.Under (some tx) n := by
  constructor
  · intro h n hFrom hTo
    have hEntry : j'.entries[n]? = some j'.entries[n] := List.getElem?_eq_getElem hTo
    refine Option.map_eq_some_iff.mpr ⟨_, hEntry, h _ (List.mem_drop_iff_getElem.mpr ?_)⟩
    exact ⟨n - j.entries.length, by omega, by simp only [Nat.add_sub_cancel' hFrom]⟩
  · intro h e he
    obtain ⟨k, hk, rfl⟩ := List.mem_drop_iff_getElem.mp he
    rw [Nat.add_comm] at hk
    obtain ⟨e', hEntry, hManager⟩ :=
      Option.map_eq_some_iff.mp (h (j.entries.length + k) (Nat.le_add_right _ _) hk)
    rw [List.getElem?_eq_getElem hk] at hEntry
    rwa [Option.some.inj hEntry]

end Journal

end Effect
