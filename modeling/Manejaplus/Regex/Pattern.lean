import Mathlib.Data.List.Basic

/-! # Regular expressions by backtracking

A pattern has at most one group. Its matches at the beginning of a text are
listed in the order in which a backtracking engine would try them.
-/
namespace Regex
set_option autoImplicit false

inductive Pattern where
  | text (s : List Char)
  | one (p : Char → Bool)
  | many (p : Char → Bool)
  | opt (r : Pattern)
  | seq (r s : Pattern)
  | group (r : Pattern)

/-- What a pattern has read, what its group has, and what is left of the text. -/
structure Match where
  read : List Char
  group : Option (List Char)
  rest : List Char
  deriving DecidableEq, Repr

namespace Match

def after (m m' : Match) : Match :=
  ⟨m.read ++ m'.read, m'.group.or m.group, m'.rest⟩

def grouped (m : Match) : Match := { m with group := some m.read }

end Match

namespace Pattern

/-- `p*`, greedily. -/
def readingsMany (p : Char → Bool) : List Char → List Match
  | [] => [⟨[], none, []⟩]
  | c :: cs =>
    if p c then (readingsMany p cs).map (fun m => { m with read := c :: m.read }) ++ [⟨[], none, c :: cs⟩]
    else [⟨[], none, c :: cs⟩]

def readings : Pattern → List Char → List Match
  | .text s, cs => if s.isPrefixOf cs then [⟨s, none, cs.drop s.length⟩] else []
  | .one p, c :: cs => if p c then [⟨[c], none, cs⟩] else []
  | .one _, [] => []
  | .many p, cs => readingsMany p cs
  | .opt r, cs => r.readings cs ++ [⟨[], none, cs⟩]
  | .seq r s, cs => (r.readings cs).flatMap fun m => (s.readings m.rest).map m.after
  | .group r, cs => (r.readings cs).map Match.grouped

section Equations
variable {r s : Pattern} {p : Char → Bool} {c : Char} {cs : List Char}

theorem readings_text {t : List Char} :
    (text t).readings cs = if t.isPrefixOf cs then [⟨t, none, cs.drop t.length⟩] else [] := rfl

theorem readings_one_nil : (one p).readings [] = [] := rfl

theorem readings_one_cons :
    (one p).readings (c :: cs) = if p c then [⟨[c], none, cs⟩] else [] := rfl

theorem readings_many : (many p).readings cs = readingsMany p cs := rfl

theorem readings_opt : (opt r).readings cs = r.readings cs ++ [⟨[], none, cs⟩] := rfl

theorem readings_seq : (seq r s).readings cs =
    (r.readings cs).flatMap fun m => (s.readings m.rest).map m.after := rfl

theorem readings_group : (group r).readings cs = (r.readings cs).map Match.grouped := rfl

end Equations

/-- The match that is taken. -/
def first (r : Pattern) (cs : List Char) : Option Match := (r.readings cs).head?

/-- `p+` -/
def plus (p : Char → Bool) : Pattern := .seq (.one p) (.many p)

section Members
variable {r s : Pattern} {p : Char → Bool} {cs : List Char} {m : Match}

theorem mem_text {t : List Char} :
    m ∈ (text t).readings cs ↔ ∃ rest, cs = t ++ rest ∧ m = ⟨t, none, rest⟩ := by
  rw [readings_text]
  constructor
  · intro h
    split at h
    · rename_i hPrefix
      obtain ⟨rest, rfl⟩ := List.isPrefixOf_iff_prefix.mp hPrefix
      exact ⟨rest, rfl, by simpa using h⟩
    · cases h
  · rintro ⟨rest, rfl, rfl⟩
    simp

theorem text_reads (t rest : List Char) : ⟨t, none, rest⟩ ∈ (text t).readings (t ++ rest) :=
  mem_text.mpr ⟨rest, rfl, rfl⟩

theorem mem_one : m ∈ (one p).readings cs ↔ ∃ c rest, cs = c :: rest ∧ p c ∧ m = ⟨[c], none, rest⟩ := by
  cases cs with
  | nil => simp [readings_one_nil]
  | cons c cs =>
    rw [readings_one_cons]
    constructor
    · intro h
      split at h
      · rename_i hc
        exact ⟨c, cs, rfl, hc, by simpa using h⟩
      · cases h
    · rintro ⟨_, _, hEq, hc, rfl⟩
      cases hEq
      simp [hc]

theorem mem_many : m ∈ (many p).readings cs ↔
    ∃ read rest, cs = read ++ rest ∧ (∀ c ∈ read, p c) ∧ m = ⟨read, none, rest⟩ := by
  rw [readings_many]
  induction cs generalizing m with
  | nil =>
    simp only [readingsMany, List.mem_singleton, List.nil_eq, List.append_eq_nil_iff]
    constructor
    · rintro rfl
      exact ⟨[], [], ⟨rfl, rfl⟩, nofun, rfl⟩
    · rintro ⟨_, _, ⟨rfl, rfl⟩, _, rfl⟩
      rfl
  | cons c cs ih =>
    rw [readingsMany]
    constructor
    · intro h
      split at h
      · rename_i hc
        obtain h | h := List.mem_append.mp h
        · obtain ⟨m', hm', rfl⟩ := List.mem_map.mp h
          obtain ⟨read, rest, rfl, hRead, rfl⟩ := ih.mp hm'
          exact ⟨c :: read, rest, rfl, List.forall_mem_cons.mpr ⟨hc, hRead⟩, rfl⟩
        · exact ⟨[], c :: cs, rfl, nofun, List.mem_singleton.mp h⟩
      · exact ⟨[], c :: cs, rfl, nofun, List.mem_singleton.mp h⟩
    · rintro ⟨read, rest, hEq, hRead, rfl⟩
      cases read with
      | nil =>
        cases hEq
        split <;> simp
      | cons d read =>
        cases hEq
        obtain ⟨hc, hRead⟩ := List.forall_mem_cons.mp hRead
        rw [if_pos hc]
        refine List.mem_append_left _ (List.mem_map.mpr ⟨⟨read, none, rest⟩, ?_, rfl⟩)
        exact ih.mpr ⟨read, rest, rfl, hRead, rfl⟩

theorem mem_opt : m ∈ (opt r).readings cs ↔ m ∈ r.readings cs ∨ m = ⟨[], none, cs⟩ := by
  rw [readings_opt, List.mem_append, List.mem_singleton]

theorem mem_seq : m ∈ (seq r s).readings cs ↔
    ∃ m₁ ∈ r.readings cs, ∃ m₂ ∈ s.readings m₁.rest, m = m₁.after m₂ := by
  rw [readings_seq, List.mem_flatMap]
  refine exists_congr fun m₁ => and_congr_right fun _ => ?_
  rw [List.mem_map]
  exact exists_congr fun m₂ => and_congr_right fun _ => eq_comm

theorem mem_seq_of {m₁ m₂ : Match} (h₁ : m₁ ∈ r.readings cs) (h₂ : m₂ ∈ s.readings m₁.rest) :
    m₁.after m₂ ∈ (seq r s).readings cs := mem_seq.mpr ⟨m₁, h₁, m₂, h₂, rfl⟩

theorem mem_group : m ∈ (group r).readings cs ↔ ∃ m' ∈ r.readings cs, m = m'.grouped := by
  rw [readings_group, List.mem_map]
  exact exists_congr fun m' => and_congr_right fun _ => eq_comm

theorem mem_plus : m ∈ (plus p).readings cs ↔
    ∃ read rest, cs = read ++ rest ∧ read ≠ [] ∧ (∀ c ∈ read, p c) ∧ m = ⟨read, none, rest⟩ := by
  rw [plus, mem_seq]
  constructor
  · rintro ⟨_, h₁, _, h₂, rfl⟩
    obtain ⟨c, rest, rfl, hc, rfl⟩ := mem_one.mp h₁
    obtain ⟨read, rest, rfl, hRead, rfl⟩ := mem_many.mp h₂
    exact ⟨c :: read, rest, rfl, List.cons_ne_nil _ _, List.forall_mem_cons.mpr ⟨hc, hRead⟩, rfl⟩
  · rintro ⟨read, rest, rfl, hNil, hRead, rfl⟩
    cases read with
    | nil => exact absurd rfl hNil
    | cons c read =>
      obtain ⟨hc, hRead⟩ := List.forall_mem_cons.mp hRead
      exact ⟨⟨[c], none, read ++ rest⟩, mem_one.mpr ⟨c, _, rfl, hc, rfl⟩, ⟨read, none, rest⟩,
        mem_many.mpr ⟨read, rest, rfl, hRead, rfl⟩, rfl⟩

end Members

theorem read_append_rest {r : Pattern} {cs : List Char} {m : Match} (h : m ∈ r.readings cs) :
    cs = m.read ++ m.rest := by
  induction r generalizing cs m with
  | text t =>
    obtain ⟨rest, rfl, rfl⟩ := mem_text.mp h
    rfl
  | one p =>
    obtain ⟨c, rest, rfl, _, rfl⟩ := mem_one.mp h
    rfl
  | many p =>
    obtain ⟨read, rest, rfl, _, rfl⟩ := mem_many.mp h
    rfl
  | opt r ih =>
    obtain h | rfl := mem_opt.mp h
    · exact ih h
    · rfl
  | seq r s ihr ihs =>
    obtain ⟨m₁, h₁, m₂, h₂, rfl⟩ := mem_seq.mp h
    rw [ihr h₁, ihs h₂, Match.after, List.append_assoc]
  | group r ih =>
    obtain ⟨m', h', rfl⟩ := mem_group.mp h
    exact @ih cs m' h'

section First
variable {r s : Pattern} {p : Char → Bool} {cs : List Char} {m : Match}

theorem mem_of_first (h : r.first cs = some m) : m ∈ r.readings cs := List.mem_of_head? h

theorem first_eq_none : r.first cs = none ↔ r.readings cs = [] := List.head?_eq_none_iff

theorem first_isSome (h : m ∈ r.readings cs) : ∃ m', r.first cs = some m' := by
  cases hFirst : r.first cs with
  | some m' => exact ⟨m', rfl⟩
  | none =>
    rw [first_eq_none.mp hFirst] at h
    cases h

theorem first_eq_some (hUnique : ∀ m₁ ∈ r.readings cs, ∀ m₂ ∈ r.readings cs, m₁ = m₂) :
    r.first cs = some m ↔ m ∈ r.readings cs := by
  refine ⟨mem_of_first, fun h => ?_⟩
  obtain ⟨m', hFirst⟩ := first_isSome h
  rw [hFirst, hUnique m' (mem_of_first hFirst) m h]

/-- A first part that can be followed up in one way only. -/
theorem first_seq {m₁ m₂ : Match} (hIn : m₁ ∈ r.readings cs) (hFirst : s.first m₁.rest = some m₂)
    (hOnly : ∀ m ∈ r.readings cs, ∀ m' ∈ s.readings m.rest, m = m₁) :
    (seq r s).first cs = some (m₁.after m₂) := by
  have hHead : ∀ m ∈ r.readings cs, m ≠ m₁ → ((s.readings m.rest).map m.after).head? = none := by
    intro m hm hOther
    cases hNext : s.readings m.rest with
    | nil => rfl
    | cons m' _ => exact absurd (hOnly m hm m' (hNext ▸ List.mem_cons_self)) hOther
  have hTaken : ((s.readings m₁.rest).map m₁.after).head? = some (m₁.after m₂) := by
    rw [List.head?_map, show (s.readings m₁.rest).head? = some m₂ from hFirst]
    rfl
  rw [first, readings_seq, List.head?_flatMap]
  clear hOnly
  generalize r.readings cs = ms at hIn hHead ⊢
  induction ms with
  | nil => cases hIn
  | cons m ms ih =>
    rw [List.findSome?_cons]
    by_cases hm : m = m₁
    · rw [hm, hTaken]
    · rw [hHead m List.mem_cons_self hm]
      exact ih ((List.mem_cons.mp hIn).resolve_left (Ne.symm hm))
        fun m' hm' => hHead m' (List.mem_cons_of_mem _ hm')

theorem first_group (h : r.first cs = some m) : (group r).first cs = some m.grouped := by
  rw [first, readings_group, List.head?_map, show (r.readings cs).head? = some m from h]
  rfl

/-- `p*` reads as much as it can. -/
theorem first_many : (many p).first cs = some ⟨cs.takeWhile p, none, cs.dropWhile p⟩ := by
  rw [first, readings_many]
  induction cs with
  | nil => rfl
  | cons c cs ih =>
    rw [readingsMany]
    split
    · rename_i hc
      rw [List.head?_append, List.head?_map, ih, List.takeWhile_cons_of_pos hc,
        List.dropWhile_cons_of_pos hc]
      rfl
    · rename_i hc
      rw [List.takeWhile_cons_of_neg hc, List.dropWhile_cons_of_neg hc]
      rfl

theorem first_plus (h : cs.takeWhile p ≠ []) :
    (plus p).first cs = some ⟨cs.takeWhile p, none, cs.dropWhile p⟩ := by
  cases cs with
  | nil => exact absurd rfl h
  | cons c cs =>
    have hc : p c := by
      by_contra hc
      exact h (List.takeWhile_cons_of_neg hc)
    rw [List.takeWhile_cons_of_pos hc, List.dropWhile_cons_of_pos hc]
    apply first_seq (mem_one.mpr ⟨c, cs, rfl, hc, rfl⟩) first_many
    intro m hm _ _
    obtain ⟨_, _, hEq, _, rfl⟩ := mem_one.mp hm
    cases hEq
    rfl

end First

end Pattern

/-- The character lies in one of these ranges. -/
def inRanges (ranges : List (Nat × Nat)) (c : Char) : Bool :=
  ranges.any fun range => range.1 ≤ c.toNat && c.toNat ≤ range.2

/-- `\w` -/
def word : Char → Bool := inRanges [(48, 57), (65, 90), (95, 95), (97, 122)]

/-- `\s` -/
def space : Char → Bool :=
  inRanges [(9, 13), (0x20, 0x20), (0xa0, 0xa0), (0x1680, 0x1680), (0x2000, 0x200a), (0x2028, 0x2029),
    (0x202f, 0x202f), (0x205f, 0x205f), (0x3000, 0x3000), (0xfeff, 0xfeff)]

theorem not_space_of_word {c : Char} (h : word c) : ¬ space c := by
  simp only [word, space, inRanges, List.any_cons, List.any_nil, Bool.or_eq_true, Bool.and_eq_true,
    decide_eq_true_eq, Bool.false_eq_true, or_false] at h ⊢
  omega

/-- Two texts that agree and leave a class of characters at some point leave it at the same. -/
theorem split_unique {p : Char → Bool} {xs xs' ys ys' : List Char} {c c' : Char}
    (hxs : ∀ d ∈ xs, p d) (hc : ¬ p c) (hxs' : ∀ d ∈ xs', p d) (hc' : ¬ p c')
    (h : xs ++ c :: ys = xs' ++ c' :: ys') : xs = xs' ∧ c = c' ∧ ys = ys' := by
  induction xs generalizing xs' with
  | nil =>
    cases xs' with
    | nil =>
      cases h
      exact ⟨rfl, rfl, rfl⟩
    | cons d ds =>
      cases h
      exact absurd (hxs' _ List.mem_cons_self) hc
  | cons d ds ih =>
    cases xs' with
    | nil =>
      cases h
      exact absurd (hxs _ List.mem_cons_self) hc'
    | cons d' ds' =>
      rw [List.cons_append, List.cons_append, List.cons.injEq] at h
      obtain ⟨rfl, hTail⟩ := h
      obtain ⟨rfl, rfl, rfl⟩ := ih (fun e he => hxs e (List.mem_cons_of_mem _ he))
        (fun e he => hxs' e (List.mem_cons_of_mem _ he)) hTail
      exact ⟨rfl, rfl, rfl⟩

end Regex
