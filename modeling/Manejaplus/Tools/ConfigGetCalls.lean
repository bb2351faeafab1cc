import Manejaplus.Regex.Scan

/-! # The keys that the sources ask the configuration for

A regular expression goes through every file of a directory tree. It is
compared with the calls that the files contain.
-/
namespace Manejaplus
open Regex
set_option autoImplicit false

/-- What a directory lists. A file that cannot be read has no content. -/
inductive DirectoryEntry where
  | directory (file : String) (list : List DirectoryEntry)
  | file (file : String) (content : Option (List Char))
  | other (file : String)

namespace SetupEnviroments

def quote (c : Char) : Bool := c == '\'' || c == '"' || c == '\x60'

def keyChar (c : Char) : Bool := word c || c == '.'

def typeArgument : Pattern := .seq (.text ['<']) (.seq (.many (· != '>')) (.text ['>']))

/-- The expression from its parentheses on. -/
def argumentPattern : Pattern :=
  .seq (.many space) (.seq (.text ['(']) (.seq (.many space) (.seq (.one quote)
    (.seq (.group (.plus keyChar)) (.seq (.one quote) (.seq (.many space) (.text [')'])))))))

@[irreducible] def configGet : List Char := "config.get".toList

def regex : Pattern :=
  .seq (.text configGet) (.seq (.opt typeArgument) argumentPattern)

/-- `match[1]` -/
def key (m : Match) : String := String.ofList (m.group.getD [])

/-- The keys of one file; none if the loop had not ended after a turn for every position. -/
def contentCalls (content : List Char) : Option (List String) :=
  (regex.scan content (content.length + 1) 0).map fun found => found.map fun o => key o.2

def isSource (file : String) : Bool :=
  ".ts".toList.isSuffixOf file.toList || ".js".toList.isSuffixOf file.toList

mutual
def findConfigGetCalls : List DirectoryEntry → Option (List String)
  | [] => some []
  | entry :: list => do
    let keys ← entryCalls entry
    let results ← findConfigGetCalls list
    return keys ++ results

def entryCalls : DirectoryEntry → Option (List String)
  | .directory _ list => findConfigGetCalls list
  | .file file content =>
    if isSource file then
      match content with
      | some content => contentCalls content
      | none => some []
    else some []
  | .other _ => some []
end

mutual
/-- The contents of the sources in a tree. -/
def sources : List DirectoryEntry → List (List Char)
  | [] => []
  | entry :: list => entrySources entry ++ sources list

def entrySources : DirectoryEntry → List (List Char)
  | .directory _ list => sources list
  | .file file content => if isSource file then content.toList else []
  | .other _ => []
end

def occurrences (content : List Char) : List (Nat × Match) :=
  (regex.scan content (content.length + 1) 0).getD []

theorem regex_reads : regex.Reads := by
  intro cs m h hNil
  obtain ⟨_, h₁, _, _, rfl⟩ := Pattern.mem_seq.mp (Pattern.mem_of_first h)
  obtain ⟨_, _, rfl⟩ := Pattern.mem_text.mp h₁
  have hText : configGet = [] := (List.append_eq_nil_iff.mp hNil).1
  rw [configGet] at hText
  cases hText

/-- The loop over a file ends. -/
theorem scan_occurrences (content : List Char) :
    regex.scan content (content.length + 1) 0 = some (occurrences content) := by
  have hEnds : ∃ found, regex.scan content (content.length + 1) 0 = some found :=
    Pattern.scan_ends regex_reads (Nat.lt_succ_self content.length) (Nat.succ_pos _)
  obtain ⟨found, hFound⟩ := hEnds
  rw [occurrences, hFound, Option.getD_some]

theorem contentCalls_eq (content : List Char) :
    contentCalls content = some ((occurrences content).map fun o => key o.2) := by
  rw [contentCalls, scan_occurrences, Option.map_some]

mutual
theorem findConfigGetCalls_eq : ∀ list, findConfigGetCalls list =
    some ((sources list).flatMap fun content => (occurrences content).map fun o => key o.2)
  | [] => rfl
  | entry :: list => by
    rw [findConfigGetCalls, entryCalls_eq entry, findConfigGetCalls_eq list, sources,
      List.flatMap_append]
    rfl

theorem entryCalls_eq : ∀ entry, entryCalls entry =
    some ((entrySources entry).flatMap fun content => (occurrences content).map fun o => key o.2)
  | .directory _ list => findConfigGetCalls_eq list
  | .file file none => by
    rw [entryCalls, entrySources]
    split <;> rfl
  | .file file (some content) => by
    rw [entryCalls, entrySources]
    split
    · simp [contentCalls_eq]
    · rfl
  | .other _ => rfl
end

/-- The part of a call from its parentheses on: blanks, quotes and the key. -/
structure CallArguments where
  before : List Char
  inside : List Char
  openQuote : Char
  key : List Char
  closeQuote : Char
  after : List Char

namespace CallArguments

def text (a : CallArguments) : List Char :=
  a.before ++ '(' :: (a.inside ++ a.openQuote :: (a.key ++ a.closeQuote :: (a.after ++ [')'])))

structure Valid (a : CallArguments) : Prop where
  before : ∀ c ∈ a.before, space c
  inside : ∀ c ∈ a.inside, space c
  openQuote : quote a.openQuote
  nonempty : a.key ≠ []
  key : ∀ c ∈ a.key, keyChar c
  closeQuote : quote a.closeQuote
  after : ∀ c ∈ a.after, space c

end CallArguments

theorem quote_cases {c : Char} (h : quote c) : c = '\'' ∨ c = '"' ∨ c = '\x60' := by
  simpa [quote, or_assoc] using h

theorem not_space_of_quote {c : Char} (h : quote c) : ¬ space c := by
  obtain rfl | rfl | rfl := quote_cases h <;> decide

theorem not_keyChar_of_quote {c : Char} (h : quote c) : ¬ keyChar c := by
  obtain rfl | rfl | rfl := quote_cases h <;> decide

theorem no_bracket {a : CallArguments} (h : a.Valid) : ∀ c ∈ a.text, c ≠ '<' ∧ c ≠ '>' := by
  have hSpace : ∀ {c : Char}, space c → c ≠ '<' ∧ c ≠ '>' := by
    intro c hc
    constructor <;> rintro rfl <;> exact absurd hc (by decide)
  have hQuote : ∀ {c : Char}, quote c → c ≠ '<' ∧ c ≠ '>' := by
    intro c hc
    obtain rfl | rfl | rfl := quote_cases hc <;> decide
  have hKey : ∀ {c : Char}, keyChar c → c ≠ '<' ∧ c ≠ '>' := by
    intro c hc
    constructor <;> rintro rfl <;> exact absurd hc (by decide)
  intro c hc
  simp only [CallArguments.text, List.mem_append, List.mem_cons, List.not_mem_nil, or_false] at hc
  obtain hc | rfl | hc | rfl | hc | rfl | hc | rfl := hc
  · exact hSpace (h.before c hc)
  · decide
  · exact hSpace (h.inside c hc)
  · exact hQuote h.openQuote
  · exact hKey (h.key c hc)
  · exact hQuote h.closeQuote
  · exact hSpace (h.after c hc)
  · decide

theorem text_unique {a b : CallArguments} (ha : a.Valid) (hb : b.Valid) {r r' : List Char}
    (h : a.text ++ r = b.text ++ r') : a = b ∧ r = r' := by
  obtain ⟨before, inside, openQuote, key, closeQuote, after⟩ := a
  obtain ⟨before', inside', openQuote', key', closeQuote', after'⟩ := b
  simp only [CallArguments.text, List.append_assoc, List.cons_append, List.nil_append] at h
  have hParen : ¬ space '(' := by decide
  have hParen' : ¬ space ')' := by decide
  obtain ⟨rfl, _, h₁⟩ := split_unique ha.before hParen hb.before hParen h
  obtain ⟨rfl, rfl, h₂⟩ := split_unique ha.inside (not_space_of_quote ha.openQuote) hb.inside
    (not_space_of_quote hb.openQuote) h₁
  obtain ⟨rfl, rfl, h₃⟩ := split_unique ha.key (not_keyChar_of_quote ha.closeQuote) hb.key
    (not_keyChar_of_quote hb.closeQuote) h₂
  obtain ⟨rfl, _, rfl⟩ := split_unique ha.after hParen' hb.after hParen' h₃
  exact ⟨rfl, rfl⟩

theorem mem_argumentPattern {cs : List Char} {m : Match} : m ∈ argumentPattern.readings cs ↔
    ∃ a : CallArguments, a.Valid ∧ ∃ rest, cs = a.text ++ rest ∧ m = ⟨a.text, some a.key, rest⟩ := by
  constructor
  · intro h
    obtain ⟨_, h₁, _, t₁, rfl⟩ := Pattern.mem_seq.mp h
    obtain ⟨before, _, rfl, hBefore, rfl⟩ := Pattern.mem_many.mp h₁
    obtain ⟨_, h₂, _, t₂, rfl⟩ := Pattern.mem_seq.mp t₁
    obtain ⟨_, rfl, rfl⟩ := Pattern.mem_text.mp h₂
    obtain ⟨_, h₃, _, t₃, rfl⟩ := Pattern.mem_seq.mp t₂
    obtain ⟨inside, _, rfl, hInside, rfl⟩ := Pattern.mem_many.mp h₃
    obtain ⟨_, h₄, _, t₄, rfl⟩ := Pattern.mem_seq.mp t₃
    obtain ⟨openQuote, _, rfl, hOpen, rfl⟩ := Pattern.mem_one.mp h₄
    obtain ⟨_, h₅, _, t₅, rfl⟩ := Pattern.mem_seq.mp t₄
    obtain ⟨_, hPlus, rfl⟩ := Pattern.mem_group.mp h₅
    obtain ⟨key, _, rfl, hNil, hKey, rfl⟩ := Pattern.mem_plus.mp hPlus
    obtain ⟨_, h₆, _, t₆, rfl⟩ := Pattern.mem_seq.mp t₅
    obtain ⟨closeQuote, _, rfl, hClose, rfl⟩ := Pattern.mem_one.mp h₆
    obtain ⟨_, h₇, _, t₇, rfl⟩ := Pattern.mem_seq.mp t₆
    obtain ⟨after, _, rfl, hAfter, rfl⟩ := Pattern.mem_many.mp h₇
    obtain ⟨rest, rfl, rfl⟩ := Pattern.mem_text.mp t₇
    exact ⟨⟨before, inside, openQuote, key, closeQuote, after⟩,
      ⟨hBefore, hInside, hOpen, hNil, hKey, hClose, hAfter⟩, rest,
      by simp [CallArguments.text], by simp [CallArguments.text, Match.after, Match.grouped]⟩
  · rintro ⟨⟨before, inside, openQuote, key, closeQuote, after⟩, ha, rest, rfl, rfl⟩
    have hEnd : (⟨after ++ [')'], none, rest⟩ : Match) ∈
        (Pattern.seq (.many space) (.text [')'])).readings (after ++ ')' :: rest) :=
      Pattern.mem_seq_of (Pattern.mem_many.mpr ⟨after, _, rfl, ha.after, rfl⟩)
        (Pattern.text_reads [')'] rest)
    have hClose := Pattern.mem_seq_of
      (Pattern.mem_one.mpr ⟨closeQuote, after ++ ')' :: rest, rfl, ha.closeQuote, rfl⟩) hEnd
    have hKey := Pattern.mem_seq_of (Pattern.mem_group.mpr ⟨_, Pattern.mem_plus.mpr
      ⟨key, closeQuote :: (after ++ ')' :: rest), rfl, ha.nonempty, ha.key, rfl⟩, rfl⟩) hClose
    have hOpen := Pattern.mem_seq_of (Pattern.mem_one.mpr
      ⟨openQuote, key ++ closeQuote :: (after ++ ')' :: rest), rfl, ha.openQuote, rfl⟩) hKey
    have hInside := Pattern.mem_seq_of (Pattern.mem_many.mpr
      ⟨inside, openQuote :: (key ++ closeQuote :: (after ++ ')' :: rest)), rfl, ha.inside, rfl⟩) hOpen
    have hParen := Pattern.mem_seq_of (Pattern.text_reads ['('] _) hInside
    have hAll := Pattern.mem_seq_of (Pattern.mem_many.mpr ⟨before, _, rfl, ha.before, rfl⟩) hParen
    simpa [CallArguments.text, argumentPattern, Match.after, Match.grouped] using hAll

/-- Every `<` of a text has its `>`. -/
inductive Balanced : List Char → Prop
  | nil : Balanced []
  | char {c : Char} {cs : List Char} (hOpen : c ≠ '<') (hClose : c ≠ '>') (h : Balanced cs) :
      Balanced (c :: cs)
  | nest {inner cs : List Char} (hInner : Balanced inner) (h : Balanced cs) :
      Balanced ('<' :: (inner ++ '>' :: cs))

theorem Balanced.no_close {t : List Char} (h : Balanced t) (hOpen : '<' ∉ t) : '>' ∉ t := by
  induction h with
  | nil => exact List.not_mem_nil
  | char _ hClose _ ih =>
    rw [List.mem_cons, not_or] at hOpen ⊢
    exact ⟨Ne.symm hClose, ih hOpen.2⟩
  | nest _ _ _ _ => exact absurd List.mem_cons_self hOpen

theorem Balanced.no_open {t : List Char} (h : Balanced t) (hClose : '>' ∉ t) : '<' ∉ t := by
  induction h with
  | nil => exact List.not_mem_nil
  | char hOpen _ _ ih =>
    rw [List.mem_cons, not_or] at hClose ⊢
    exact ⟨Ne.symm hOpen, ih hClose.2⟩
  | nest _ _ _ _ =>
    exact absurd (List.mem_cons_of_mem _ (List.mem_append_right _ List.mem_cons_self)) hClose

theorem balanced_of_none {t : List Char} (hOpen : '<' ∉ t) (hClose : '>' ∉ t) : Balanced t := by
  induction t with
  | nil => exact .nil
  | cons c t ih =>
    rw [List.mem_cons, not_or] at hOpen hClose
    exact .char (Ne.symm hOpen.1) (Ne.symm hClose.1) (ih hOpen.2 hClose.2)

/-- What stands between `config.get` and the parentheses. -/
def typeText : Option (List Char) → List Char
  | none => []
  | some t => '<' :: (t ++ ['>'])

def callText (type : Option (List Char)) (a : CallArguments) : List Char :=
  configGet ++ (typeText type ++ a.text)

/-- A text goes on with these parts of a call. -/
structure Shape (cs : List Char) (type : Option (List Char)) (a : CallArguments) (m : Match) :
    Prop where
  valid : a.Valid
  text : cs = callText type a ++ m.rest
  read : m.read = callText type a
  group : m.group = some a.key

/-- A call of `config.get`, with a balanced type argument if with any. -/
def Call (cs : List Char) (type : Option (List Char)) (m : Match) : Prop :=
  ∃ a, Shape cs type a m ∧ (∀ t ∈ type, Balanced t) ∧ a.openQuote = a.closeQuote

/-- What the expression takes for a call: the quotes differ, or a `<` has no `>`. -/
def LookAlike (cs : List Char) (m : Match) : Prop :=
  ∃ type a, Shape cs type a m ∧ (∀ t ∈ type, '>' ∉ t) ∧
    (a.openQuote ≠ a.closeQuote ∨ ∃ t ∈ type, '<' ∈ t)

theorem mem_typeArgument {cs : List Char} {m : Match} : m ∈ typeArgument.readings cs ↔
    ∃ t rest, '>' ∉ t ∧ cs = typeText (some t) ++ rest ∧ m = ⟨typeText (some t), none, rest⟩ := by
  constructor
  · intro h
    obtain ⟨_, h₁, _, t₁, rfl⟩ := Pattern.mem_seq.mp h
    obtain ⟨_, rfl, rfl⟩ := Pattern.mem_text.mp h₁
    obtain ⟨_, h₂, _, t₂, rfl⟩ := Pattern.mem_seq.mp t₁
    obtain ⟨t, _, rfl, ht, rfl⟩ := Pattern.mem_many.mp h₂
    obtain ⟨rest, rfl, rfl⟩ := Pattern.mem_text.mp t₂
    exact ⟨t, rest, fun hIn => absurd (ht _ hIn) (by decide), by simp [typeText], rfl⟩
  · rintro ⟨t, rest, hType, rfl, rfl⟩
    have ht : ∀ c ∈ t, (c != '>') = true := fun c hc => bne_iff_ne.mpr fun hEq => hType (hEq ▸ hc)
    have hMany := Pattern.mem_seq_of (Pattern.mem_many.mpr ⟨t, _, rfl, ht, rfl⟩)
      (Pattern.text_reads ['>'] rest)
    simpa [typeArgument, typeText, Match.after] using
      Pattern.mem_seq_of (Pattern.text_reads ['<'] _) hMany

theorem mem_tail {cs : List Char} {m : Match} :
    m ∈ (Pattern.seq (.opt typeArgument) argumentPattern).readings cs ↔
      ∃ type, ∃ a : CallArguments, a.Valid ∧ (∀ t ∈ type, '>' ∉ t) ∧ cs = typeText type ++ a.text ++ m.rest ∧
        m.read = typeText type ++ a.text ∧ m.group = some a.key := by
  constructor
  · intro h
    obtain ⟨m₁, h₁, _, t₁, rfl⟩ := Pattern.mem_seq.mp h
    obtain ⟨a, ha, rest, hText, rfl⟩ := mem_argumentPattern.mp t₁
    obtain hType | rfl := Pattern.mem_opt.mp h₁
    · obtain ⟨t, _, ht, rfl, rfl⟩ := mem_typeArgument.mp hType
      refine ⟨some t, a, ha, ?_, ?_, rfl, rfl⟩
      · rintro _ ⟨⟩
        exact ht
      · rw [List.append_assoc]
        exact congrArg (typeText (some t) ++ ·) hText
    · exact ⟨none, a, ha, nofun, hText, rfl, rfl⟩
  · rintro ⟨type, a, ha, hType, rfl, hRead, hGroup⟩
    obtain ⟨read, group, rest⟩ := m
    cases hRead
    cases hGroup
    rw [List.append_assoc]
    have hArguments : (⟨a.text, some a.key, rest⟩ : Match) ∈ argumentPattern.readings (a.text ++ rest) :=
      mem_argumentPattern.mpr ⟨a, ha, rest, rfl, rfl⟩
    cases type with
    | none => exact Pattern.mem_seq_of (Pattern.mem_opt.mpr (.inr rfl)) hArguments
    | some t =>
      have hOpt := Pattern.mem_opt.mpr (.inl (mem_typeArgument.mpr
        ⟨t, a.text ++ rest, hType t rfl, rfl, rfl⟩))
      exact Pattern.mem_seq_of hOpt hArguments

theorem mem_regex {cs : List Char} {m : Match} : m ∈ regex.readings cs ↔
    ∃ type a, Shape cs type a m ∧ ∀ t ∈ type, '>' ∉ t := by
  rw [regex]
  constructor
  · intro h
    obtain ⟨_, h₁, m₂, t₁, rfl⟩ := Pattern.mem_seq.mp h
    obtain ⟨rest, rfl, rfl⟩ := Pattern.mem_text.mp h₁
    obtain ⟨type, a, ha, hType, hText, hRead, hGroup⟩ := mem_tail.mp t₁
    refine ⟨type, a, ⟨ha, ?_, ?_, ?_⟩, hType⟩
    · rw [callText, List.append_assoc]
      exact congrArg (_ ++ ·) hText
    · rw [callText, ← hRead]
      rfl
    · rw [Match.after, hGroup]
      rfl
  · rintro ⟨type, a, ⟨ha, rfl, hRead, hGroup⟩, hType⟩
    obtain ⟨read, group, rest⟩ := m
    cases hRead
    cases hGroup
    rw [callText, List.append_assoc]
    have hTail : (⟨typeText type ++ a.text, some a.key, rest⟩ : Match) ∈
        (Pattern.seq (.opt typeArgument) argumentPattern).readings (typeText type ++ a.text ++ rest) :=
      mem_tail.mpr ⟨type, a, ha, hType, rfl, rfl, rfl⟩
    exact Pattern.mem_seq_of (Pattern.text_reads _ _) hTail

theorem typeText_some_ne {t r : List Char} {a : CallArguments} (ha : a.Valid) {r' : List Char} :
    typeText (some t) ++ r ≠ a.text ++ r' := by
  intro h
  cases hText : a.text with
  | nil => exact absurd hText (by simp [CallArguments.text])
  | cons c cs =>
    rw [hText, typeText, List.cons_append, List.cons_append, List.cons.injEq] at h
    exact (no_bracket ha c (hText ▸ List.mem_cons_self)).1 h.1.symm

/-- Without a `>` in it, the type argument ends at the first one. -/
theorem callText_unique {type type' : Option (List Char)} {a a' : CallArguments} (ha : a.Valid)
    (ha' : a'.Valid) (hType : ∀ t ∈ type, '>' ∉ t) (hType' : ∀ t ∈ type', '>' ∉ t)
    {r r' : List Char} (h : callText type a ++ r = callText type' a' ++ r') :
    type = type' ∧ a = a' ∧ r = r' := by
  rw [callText, callText, List.append_assoc, List.append_assoc, List.append_assoc,
    List.append_assoc] at h
  replace h := List.append_cancel_left h
  cases type with
  | none =>
    cases type' with
    | none =>
      obtain ⟨rfl, rfl⟩ := text_unique ha ha' h
      exact ⟨rfl, rfl, rfl⟩
    | some t' => exact absurd h.symm (typeText_some_ne ha)
  | some t =>
    cases type' with
    | none => exact absurd h (typeText_some_ne ha')
    | some t' =>
      rw [typeText, typeText, List.cons_append, List.cons_append, List.append_assoc,
        List.append_assoc] at h
      have hClose : ∀ {u : List Char}, '>' ∉ u → ∀ c ∈ u, (c != '>') = true := fun hu c hc =>
        bne_iff_ne.mpr fun hEq => hu (hEq ▸ hc)
      obtain ⟨rfl, _, hRest⟩ := split_unique (hClose (hType t rfl)) (by decide)
        (hClose (hType' t' rfl)) (by decide) (List.tail_eq_of_cons_eq h)
      obtain ⟨rfl, rfl⟩ := text_unique ha ha' hRest
      exact ⟨rfl, rfl, rfl⟩

theorem first_regex {cs : List Char} {m : Match} :
    regex.first cs = some m ↔ ∃ type a, Shape cs type a m ∧ ∀ t ∈ type, '>' ∉ t := by
  rw [← mem_regex]
  apply Pattern.first_eq_some
  intro m₁ h₁ m₂ h₂
  obtain ⟨_, _, hShape₁, hType₁⟩ := mem_regex.mp h₁
  obtain ⟨_, _, hShape₂, hType₂⟩ := mem_regex.mp h₂
  obtain ⟨rfl, rfl, hRest⟩ := callText_unique hShape₁.valid hShape₂.valid hType₁ hType₂
    (hShape₁.text.symm.trans hShape₂.text)
  obtain ⟨_, _, _⟩ := m₁
  obtain ⟨_, _, _⟩ := m₂
  cases hShape₁.read
  cases hShape₁.group
  cases hShape₂.read
  cases hShape₂.group
  cases hRest
  rfl

/-- The arguments of one match are the same, whether read as a call or by the expression, if the
type argument has no bracket. -/
theorem no_open_of_first {cs : List Char} {type : Option (List Char)} {a : CallArguments} {m : Match}
    (hShape : Shape cs type a m) (hBalanced : ∀ t ∈ type, Balanced t)
    (hFirst : regex.first cs = some m) : ∀ t ∈ type, '<' ∉ t := by
  rintro t rfl hOpen
  obtain ⟨type', a', hShape', hType'⟩ := first_regex.mp hFirst
  have hRead : callText (some t) a = callText type' a' := hShape.read.symm.trans hShape'.read
  rw [callText, callText] at hRead
  replace hRead := List.append_cancel_left hRead
  have hIn : '>' ∈ t := by
    by_contra hNone
    exact (hBalanced t rfl).no_open hNone hOpen
  cases type' with
  | none =>
    have hEq : typeText (some t) ++ a.text = a'.text ++ [] := by
      rw [hRead, List.append_nil]
      rfl
    exact typeText_some_ne hShape'.valid hEq
  | some t' =>
    -- the expression takes the first `>` for the end
    obtain ⟨u, v, rfl, hu⟩ := List.eq_append_cons_of_mem hIn
    rw [typeText, typeText, List.cons_append, List.cons_append, List.append_assoc,
      List.append_assoc, List.append_assoc, List.cons_append] at hRead
    have hClose : ∀ {w : List Char}, '>' ∉ w → ∀ c ∈ w, (c != '>') = true := fun hw c hc =>
      bne_iff_ne.mpr fun hEq => hw (hEq ▸ hc)
    obtain ⟨_, _, hText⟩ := split_unique (hClose hu) (by decide) (hClose (hType' t' rfl)) (by decide)
      (List.tail_eq_of_cons_eq hRead)
    have hEnd : v ++ (['>'] ++ a.text) = a'.text := hText
    have hBracket : '>' ∈ a'.text := by
      rw [← hEnd]
      simp
    exact (no_bracket hShape'.valid '>' hBracket).2 rfl

theorem lookAlike_iff {cs : List Char} {m : Match} :
    LookAlike cs m ↔ regex.first cs = some m ∧ ∀ type, ¬ Call cs type m := by
  constructor
  · rintro ⟨type, a, hShape, hType, hOther⟩
    have hFirst : regex.first cs = some m := first_regex.mpr ⟨type, a, hShape, hType⟩
    refine ⟨hFirst, ?_⟩
    rintro type' ⟨a', hShape', hBalanced, hQuotes⟩
    have hPlain := no_open_of_first hShape' hBalanced hFirst
    obtain ⟨rfl, rfl, _⟩ := callText_unique hShape.valid hShape'.valid hType
      (fun t ht => (hBalanced t ht).no_close (hPlain t ht)) (hShape.text.symm.trans hShape'.text)
    obtain hQuotes' | ⟨t, ht, hOpen⟩ := hOther
    · exact hQuotes' hQuotes
    · exact hPlain t ht hOpen
  · rintro ⟨hFirst, hOther⟩
    obtain ⟨type, a, hShape, hType⟩ := first_regex.mp hFirst
    refine ⟨type, a, hShape, hType, ?_⟩
    by_contra hCall
    rw [not_or, not_not] at hCall
    refine hOther type ⟨a, hShape, fun t ht => balanced_of_none (fun hOpen => ?_) (hType t ht), hCall.1⟩
    exact hCall.2 ⟨t, ht, hOpen⟩

/-- A call begins at this position, and this is its text and its key. -/
def CallAt (content : List Char) (i : Nat) (m : Match) : Prop :=
  ∃ type, Call (content.drop i) type m

theorem shape_within {content : List Char} {i : Nat} {type : Option (List Char)} {a : CallArguments}
    {m : Match} (h : Shape (content.drop i) type a m) : i ≤ content.length := by
  by_contra hBeyond
  have hText := h.text
  rw [List.drop_eq_nil_of_le (by omega), callText, CallArguments.text] at hText
  simp at hText

/-- The type arguments have no brackets of their own, no call begins within another, and what is
only taken for a call begins within one. -/
structure Searchable (content : List Char) : Prop where
  plain : ∀ i type m, Call (content.drop i) type m → ∀ t ∈ type, '<' ∉ t
  apart : ∀ i m j m', CallAt content i m → CallAt content j m' →
    ¬ (i < j ∧ j < i + m.read.length)
  covered : ∀ i m, LookAlike (content.drop i) m →
    ∃ j m', CallAt content j m' ∧ j < i ∧ i < j + m'.read.length

theorem searchable_iff_separated {content : List Char} :
    Searchable content ↔ Pattern.Separated regex content (CallAt content) := by
  constructor
  · intro h
    refine ⟨?_, h.apart, fun i m _ hFirst hOther => h.covered i m ?_⟩
    · rintro i m ⟨type, a, hShape, hBalanced, hQuotes⟩
      have hPlain := h.plain i type m ⟨a, hShape, hBalanced, hQuotes⟩
      exact first_regex.mpr ⟨type, a, hShape, fun t ht => (hBalanced t ht).no_close (hPlain t ht)⟩
    · exact lookAlike_iff.mpr ⟨hFirst, fun type hCall => hOther ⟨type, hCall⟩⟩
  · intro h
    refine ⟨fun i type m hCall => ?_, h.apart, fun i m hLook => ?_⟩
    · have hFirst := h.matched i m ⟨type, hCall⟩
      obtain ⟨a, hShape, hBalanced, _⟩ := hCall
      exact no_open_of_first hShape hBalanced hFirst
    · obtain ⟨hFirst, hOther⟩ := lookAlike_iff.mp hLook
      obtain ⟨_, _, hShape, _⟩ := hLook
      exact h.covered i m (shape_within hShape) hFirst fun ⟨type, hCall⟩ => hOther type hCall

/-- The matches in a text are its calls, every one once. -/
structure FindsCallsOf (content : List Char) : Prop where
  once : (occurrences content).Nodup
  calls : ∀ i m, (i, m) ∈ occurrences content ↔ CallAt content i m

theorem findsCallsOf_iff {content : List Char} : FindsCallsOf content ↔ Searchable content := by
  have hScanned := Pattern.scanned (scan_occurrences content)
  have hWithin : ∀ i m, CallAt content i m → i ≤ content.length := by
    rintro i m ⟨_, _, hShape, _⟩
    exact shape_within hShape
  rw [searchable_iff_separated, ← Pattern.exact_iff hScanned hWithin]
  exact ⟨fun h => h.calls, fun h => ⟨hScanned.nodup regex_reads, h⟩⟩

/-- The keys are those of the calls in the sources of the tree, every call counted once; that there
are keys says that every loop has ended. -/
structure FindsCalls (list : List DirectoryEntry) : Prop where
  keys : findConfigGetCalls list =
    some ((sources list).flatMap fun content => (occurrences content).map fun o => key o.2)
  calls : ∀ content ∈ sources list, FindsCallsOf content

end SetupEnviroments

open SetupEnviroments in
theorem findsCalls_iff (list : List DirectoryEntry) :
    FindsCalls list ↔ ∀ content ∈ sources list, Searchable content :=
  ⟨fun h content hContent => findsCallsOf_iff.mp (h.calls content hContent),
    fun h => ⟨findConfigGetCalls_eq list, fun content hContent =>
      findsCallsOf_iff.mpr (h content hContent)⟩⟩

namespace Sample

def recordCall : List Char := "config.get<Record<string, string>>('ENV')".toList

def envArguments : SetupEnviroments.CallArguments where
  before := []
  inside := []
  openQuote := '\''
  key := "ENV".toList
  closeQuote := '\''
  after := []

theorem envArguments_valid : envArguments.Valid where
  before := List.forall_mem_nil _
  inside := List.forall_mem_nil _
  openQuote := by decide
  nonempty := List.cons_ne_nil _ _
  key := List.all_eq_true.mp rfl
  closeQuote := by decide
  after := List.forall_mem_nil _

theorem record_balanced : SetupEnviroments.Balanced "Record<string, string>".toList := by
  have hInner : SetupEnviroments.Balanced "string, string".toList :=
    SetupEnviroments.balanced_of_none (by decide) (by decide)
  iterate 6 refine .char (by decide) (by decide) ?_
  exact .nest hInner .nil

theorem recordCall_call : SetupEnviroments.CallAt recordCall 0 ⟨recordCall, some "ENV".toList, []⟩ :=
  ⟨some "Record<string, string>".toList, envArguments,
    ⟨envArguments_valid, by decide +kernel, by decide +kernel, rfl⟩,
    fun _ ht => Option.some.inj ht ▸ record_balanced, rfl⟩

end Sample

open SetupEnviroments in
/-- A call whose type argument has brackets of its own is not found. -/
theorem not_findsCalls : ¬ FindsCalls [.file "tools.ts" (some Sample.recordCall)] := by
  intro h
  have hFound := ((h.calls Sample.recordCall (by decide)).calls 0 _).mpr Sample.recordCall_call
  have hNone : occurrences Sample.recordCall = [] := by decide +kernel
  rw [hNone] at hFound
  cases hFound

end Manejaplus
