import Manejaplus.Regex.Pattern

/-! # Searching a text

A search takes the leftmost position at which the pattern matches. A scan goes
on behind every match, and has an end if no match is empty.
-/
namespace Regex
set_option autoImplicit false

namespace Pattern

/-- The first match, with its position; `i` is the position of the text. -/
def search (r : Pattern) : Nat → List Char → Option (Nat × Match)
  | i, [] => (r.first []).map (i, ·)
  | i, c :: cs =>
    match r.first (c :: cs) with
    | some m => some (i, m)
    | none => search r (i + 1) cs

/-- `RegExp.prototype.exec` of a global expression. -/
def exec (r : Pattern) (text : List Char) (lastIndex : Nat) : Option (Nat × Match) :=
  if lastIndex ≤ text.length then r.search lastIndex (text.drop lastIndex) else none

/-- `while ((match = regex.exec(text)) !== null)`, for so many turns at most. -/
def scan (r : Pattern) (text : List Char) : Nat → Nat → Option (List (Nat × Match))
  | 0, _ => none
  | turns + 1, lastIndex =>
    match r.exec text lastIndex with
    | none => some []
    | some (i, m) => (scan r text turns (i + m.read.length)).map ((i, m) :: ·)

variable {r : Pattern} {text : List Char}

theorem search_none {i : Nat} {cs : List Char} (h : r.search i cs = none) :
    ∀ k ≤ cs.length, r.first (cs.drop k) = none := by
  induction cs generalizing i with
  | nil =>
    intro k _
    rw [List.drop_nil]
    exact Option.map_eq_none_iff.mp h
  | cons c cs ih =>
    rw [search] at h
    split at h
    · cases h
    · rename_i hFirst
      intro k hk
      cases k with
      | zero => exact hFirst
      | succ k => exact ih h k (Nat.le_of_succ_le_succ hk)

theorem search_some {i j : Nat} {cs : List Char} {m : Match} (h : r.search i cs = some (j, m)) :
    ∃ k ≤ cs.length, j = i + k ∧ r.first (cs.drop k) = some m ∧
      ∀ k' < k, r.first (cs.drop k') = none := by
  induction cs generalizing i with
  | nil =>
    obtain ⟨m', hFirst, hEq⟩ := Option.map_eq_some_iff.mp h
    cases hEq
    exact ⟨0, Nat.le_refl _, rfl, hFirst, fun k hk => absurd hk (Nat.not_lt_zero k)⟩
  | cons c cs ih =>
    rw [search] at h
    split at h
    · rename_i hFirst
      cases h
      exact ⟨0, Nat.zero_le _, rfl, hFirst, fun k hk => absurd hk (Nat.not_lt_zero k)⟩
    · rename_i hNone
      obtain ⟨k, hk, rfl, hFirst, hBefore⟩ := ih h
      refine ⟨k + 1, Nat.succ_le_succ hk, by omega, hFirst, fun k' hk' => ?_⟩
      cases k' with
      | zero => exact hNone
      | succ k' => exact hBefore k' (by omega)

theorem exec_none {last : Nat} (h : r.exec text last = none) :
    ∀ i, last ≤ i → i ≤ text.length → r.first (text.drop i) = none := by
  intro i hLast hLength
  rw [exec, if_pos (Nat.le_trans hLast hLength)] at h
  have hNone := search_none h (i - last) (by rw [List.length_drop]; omega)
  rwa [List.drop_drop, Nat.add_sub_cancel' hLast] at hNone

theorem exec_some {last i : Nat} {m : Match} (h : r.exec text last = some (i, m)) :
    last ≤ i ∧ i ≤ text.length ∧ r.first (text.drop i) = some m ∧
      ∀ k, last ≤ k → k < i → r.first (text.drop k) = none := by
  rw [exec] at h
  split at h
  · obtain ⟨k, hk, rfl, hFirst, hBefore⟩ := search_some h
    rw [List.length_drop] at hk
    refine ⟨Nat.le_add_right _ _, by omega, ?_, fun k' hLast hk' => ?_⟩
    · rwa [List.drop_drop] at hFirst
    · have hNone := hBefore (k' - last) (by omega)
      rwa [List.drop_drop, Nat.add_sub_cancel' hLast] at hNone
  · cases h

theorem end_le {i : Nat} {m : Match} (hi : i ≤ text.length) (h : r.first (text.drop i) = some m) :
    i + m.read.length ≤ text.length := by
  have hLength := congrArg List.length (read_append_rest (mem_of_first h))
  rw [List.length_drop, List.length_append] at hLength
  omega

/-- No match is empty. -/
def Reads (r : Pattern) : Prop := ∀ cs m, r.first cs = some m → m.read ≠ []

theorem scan_ends (hReads : r.Reads) {turns last : Nat} (hTurns : text.length < turns + last) (hPos : 0 < turns) :
    ∃ found, r.scan text turns last = some found := by
  induction turns generalizing last with
  | zero => cases hPos
  | succ turns ih =>
    rw [scan]
    cases hExec : r.exec text last with
    | none => exact ⟨[], rfl⟩
    | some p =>
      obtain ⟨i, m⟩ := p
      obtain ⟨hLast, hLength, hFirst, _⟩ := exec_some hExec
      have hEnd := end_le hLength hFirst
      have hRead := List.length_pos_of_ne_nil (hReads _ _ hFirst)
      obtain ⟨found, hFound⟩ := @ih (i + m.read.length) (by omega) (by omega)
      exact ⟨(i, m) :: found, Option.map_eq_some_iff.mpr ⟨found, hFound, rfl⟩⟩

/-- What a scan from a position on has found: matches, one behind the other, and none is missed
but those that begin within another. -/
structure Scanned (r : Pattern) (text : List Char) (last : Nat) (found : List (Nat × Match)) :
    Prop where
  from_last : ∀ o ∈ found, last ≤ o.1
  within : ∀ o ∈ found, o.1 ≤ text.length
  matched : ∀ o ∈ found, r.first (text.drop o.1) = some o.2
  apart : found.Pairwise fun o o' => o.1 + o.2.read.length ≤ o'.1
  covered : ∀ k m, last ≤ k → k ≤ text.length → r.first (text.drop k) = some m →
    (k, m) ∈ found ∨ ∃ o ∈ found, o.1 < k ∧ k < o.1 + o.2.read.length

theorem scanned {turns last : Nat} {found : List (Nat × Match)}
    (h : r.scan text turns last = some found) : Scanned r text last found := by
  induction turns generalizing last found with
  | zero => cases h
  | succ turns ih =>
    rw [scan] at h
    split at h
    · rename_i hExec
      cases h
      refine ⟨nofun, nofun, nofun, .nil, fun k m hLast hLength hFirst => ?_⟩
      cases (exec_none hExec k hLast hLength).symm.trans hFirst
    · rename_i i m hExec
      obtain ⟨hLast, hLength, hFirst, hBefore⟩ := exec_some hExec
      obtain ⟨rest, hRest, rfl⟩ := Option.map_eq_some_iff.mp h
      obtain ⟨hFrom, hWithin, hMatched, hApart, hCovered⟩ := ih hRest
      refine ⟨?_, ?_, ?_, ?_, fun k m' hk hkLength hkFirst => ?_⟩
      · exact List.forall_mem_cons.mpr ⟨hLast, fun o ho => by have := hFrom o ho; omega⟩
      · exact List.forall_mem_cons.mpr ⟨hLength, hWithin⟩
      · exact List.forall_mem_cons.mpr ⟨hFirst, hMatched⟩
      · exact List.pairwise_cons.mpr ⟨hFrom, hApart⟩
      · -- before the match there is none, within it the match covers, behind it the rest of the scan
        obtain hBefore' | rfl | hAfter := Nat.lt_trichotomy k i
        · cases (hBefore k hk hBefore').symm.trans hkFirst
        · cases hFirst.symm.trans hkFirst
          exact .inl List.mem_cons_self
        · by_cases hEnd : k < i + m.read.length
          · exact .inr ⟨(i, m), List.mem_cons_self, hAfter, hEnd⟩
          · obtain hIn | ⟨o, ho, hCover⟩ := hCovered k m' (by omega) hkLength hkFirst
            · exact .inl (List.mem_cons_of_mem _ hIn)
            · exact .inr ⟨o, List.mem_cons_of_mem _ ho, hCover⟩

theorem not_overlapping {found : List (Nat × Match)}
    (hApart : found.Pairwise fun o o' => o.1 + o.2.read.length ≤ o'.1) {o o' : Nat × Match}
    (ho : o ∈ found) (ho' : o' ∈ found) : ¬ (o.1 < o'.1 ∧ o'.1 < o.1 + o.2.read.length) := by
  rintro ⟨hBefore, hWithin⟩
  induction found with
  | nil => cases ho
  | cons q found ih =>
    obtain ⟨hFirst, hRest⟩ := List.pairwise_cons.mp hApart
    obtain rfl | hIn := List.mem_cons.mp ho
    · obtain rfl | hIn' := List.mem_cons.mp ho'
      · exact Nat.lt_irrefl _ hBefore
      · have := hFirst o' hIn'
        omega
    · obtain rfl | hIn' := List.mem_cons.mp ho'
      · have := hFirst o hIn
        omega
      · exact ih hRest hIn hIn'

theorem Scanned.nodup {last : Nat} {found : List (Nat × Match)} (hReads : r.Reads)
    (h : Scanned r text last found) : found.Nodup := by
  refine h.apart.imp_of_mem fun ho _ hApart hEq => ?_
  have hRead := List.length_pos_of_ne_nil (hReads _ _ (h.matched _ ho))
  rw [← hEq] at hApart
  omega

section Exact
variable {Wanted : Nat → Match → Prop} {found : List (Nat × Match)}

/-- Every wanted occurrence is a match, none begins within another, and what else matches begins
within a wanted one. -/
structure Separated (r : Pattern) (text : List Char) (Wanted : Nat → Match → Prop) : Prop where
  matched : ∀ k m, Wanted k m → r.first (text.drop k) = some m
  apart : ∀ k m k' m', Wanted k m → Wanted k' m' → ¬ (k < k' ∧ k' < k + m.read.length)
  covered : ∀ k m, k ≤ text.length → r.first (text.drop k) = some m → ¬ Wanted k m →
    ∃ k' m', Wanted k' m' ∧ k' < k ∧ k < k' + m'.read.length

theorem wanted_of_mem (h : Scanned r text 0 found) (hSeparated : Separated r text Wanted)
    (hWithin : ∀ k m, Wanted k m → k ≤ text.length) {i : Nat} {m : Match} (hm : (i, m) ∈ found) :
    Wanted i m := by
  induction i using Nat.strongRecOn generalizing m with
  | ind i ih =>
    by_contra hOther
    obtain ⟨k, m', hWanted, hBefore, hCovers⟩ :=
      hSeparated.covered i m (h.within _ hm) (h.matched _ hm) hOther
    obtain hIn | ⟨⟨j, w⟩, ho, hBegins, hEnds⟩ := h.covered k m' (Nat.zero_le _)
      (hWithin k m' hWanted) (hSeparated.matched k m' hWanted)
    · exact not_overlapping h.apart hIn hm ⟨hBefore, hCovers⟩
    · exact hSeparated.apart _ _ _ _ (ih j (Nat.lt_trans hBegins hBefore) ho) hWanted ⟨hBegins, hEnds⟩

/-- A scan finds exactly the wanted occurrences if these are separated from all else. -/
theorem exact_iff (h : Scanned r text 0 found) (hWithin : ∀ k m, Wanted k m → k ≤ text.length) :
    (∀ k m, (k, m) ∈ found ↔ Wanted k m) ↔ Separated r text Wanted := by
  constructor
  · intro hExact
    refine ⟨fun k m hWanted => h.matched _ ((hExact k m).mpr hWanted),
      fun k m k' m' hWanted hWanted' => ?_, fun k m hLength hFirst hOther => ?_⟩
    · exact not_overlapping h.apart ((hExact k m).mpr hWanted) ((hExact k' m').mpr hWanted')
    · obtain hIn | ⟨⟨j, w⟩, ho, hCovers⟩ := h.covered k m (Nat.zero_le _) hLength hFirst
      · exact absurd ((hExact k m).mp hIn) hOther
      · exact ⟨j, w, (hExact j w).mp ho, hCovers⟩
  · intro hSeparated k m
    refine ⟨wanted_of_mem h hSeparated hWithin, fun hWanted => ?_⟩
    obtain hIn | ⟨⟨j, w⟩, ho, hCovers⟩ := h.covered k m (Nat.zero_le _) (hWithin k m hWanted)
      (hSeparated.matched k m hWanted)
    · exact hIn
    · exact absurd hCovers (hSeparated.apart _ _ _ _ (wanted_of_mem h hSeparated hWithin ho) hWanted)

end Exact

end Pattern

end Regex
