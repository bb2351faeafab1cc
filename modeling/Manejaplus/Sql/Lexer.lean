import Manejaplus.Sql.Numerals

/-! # Tokens of an SQL text

PostgreSQL's lexical rules for names, numbers, quoted identifiers, string
literals, `$$` bodies and comments, as a machine that reads one character at a
time. Keywords are not told apart from names, an operator is a row of symbols,
a letter in front of a quotation (`E`, `U&`) or a tag between the dollars does
not change what that is, and literals on two lines stay two.
-/
namespace Sql
set_option autoImplicit false

/-- The longest beginning of whole characters that takes at most so many bytes. -/
def clip : Nat → Text → Text
  | _, [] => []
  | n, c :: cs => if c.utf8Size ≤ n then c :: clip (n - c.utf8Size) cs else []

/-- Identifiers are cut to 63 bytes. -/
def nameLimit : Nat := 63

def bytes (cs : Text) : Nat := cs.foldr (fun c n => c.utf8Size + n) 0

/-- A character of an unquoted name: a letter, a digit, `_`, `$`, or anything beyond ASCII. -/
def isWord (c : Char) : Bool := c.isAlphanum || c == '_' || c == '$' || 128 ≤ c.toNat

def isBlank (c : Char) : Bool :=
  c == ' ' || c == '\t' || c == '\n' || c == '\r' || c == '\x0b' || c == '\x0c'

/-- Unquoted names are folded to lower case, and only in ASCII. -/
def fold (cs : Text) : Text := cs.map Char.toLower

inductive Token where
  | word (s : Text)
  | integer (n : Nat)
  | number (s : Text)
  | identifier (s : Text)
  | literal (s : Text)
  | body (s : Text)
  | symbol (c : Char)
  deriving DecidableEq, Repr

inductive Quote where
  | identifier
  | literal
  deriving DecidableEq, Repr

namespace Quote

def char : Quote → Char
  | .identifier => '"'
  | .literal => '\''

/-- The token of what stands between the quotes; an identifier must not be empty. -/
def token : Quote → Text → Option Token
  | .identifier, [] => none
  | .identifier, s => some (.identifier (clip nameLimit s))
  | .literal, s => some (.literal s)

end Quote

/-- The first whole number that has no room in 31 bits. -/
def integerLimit : Nat := 0x80000000

/-- A whole number of 31 bits is handed on as a value. -/
def Numeral.token (k : Numeral) (s : Text) : Token :=
  ((k.integer? s).filter (· < integerLimit)).elim (.number s) .integer

/-- A name right behind a number is an error. -/
def isJunk (c : Char) : Bool := isWord c && c != '$'

/-- Where the reader is. A second quote after a first one stands for the character itself. -/
inductive Mode where
  | gap
  | word (s : Text)
  | number (k : Numeral) (s : Text)
  | dot
  | quoted (q : Quote) (s : Text)
  | closing (q : Quote) (s : Text)
  | dollar
  | body (s : Text)
  | bodyDollar (s : Text)
  | dash
  | slash
  | line
  | block (depth : Nat)
  | blockStar (depth : Nat)
  | blockSlash (depth : Nat)
  deriving DecidableEq, Repr

/-- The first character of something new. -/
def start (c : Char) : List Token × Mode :=
  if isBlank c then ([], .gap)
  else if c = '$' then ([], .dollar)
  else if c = '.' then ([], .dot)
  else if c.isDigit then ([], .number (.first c) [c])
  else if isWord c then ([], .word [c])
  else if c = '"' then ([], .quoted .identifier [])
  else if c = '\'' then ([], .quoted .literal [])
  else if c = '-' then ([], .dash)
  else if c = '/' then ([], .slash)
  else ([.symbol c], .gap)

/-- A token ends in front of the character. -/
def emit (t : Token) (c : Char) : List Token × Mode := (t :: (start c).1, (start c).2)

def step : Mode → Char → Option (List Token × Mode)
  | .gap, c => some (start c)
  | .word s, c =>
    some (if isWord c then ([], .word (s ++ [c])) else emit (.word (clip nameLimit (fold s))) c)
  | .number k s, c => (k.next c).elim
    (if k.complete ∧ ¬ isJunk c then some (emit (k.token s) c) else none)
    fun k' => some ([], .number k' (s ++ [c]))
  | .dot, c =>
    some (if c.isDigit then ([], .number (.digits .fraction) ['.', c]) else emit (.symbol '.') c)
  | .quoted q s, c => some ([], if c = q.char then .closing q s else .quoted q (s ++ [c]))
  | .closing q s, c =>
    if c = q.char then some ([], .quoted q (s ++ [c]))
    else (q.token s).map fun t => emit t c
  | .dollar, c => some (if c = '$' then ([], .body []) else emit (.symbol '$') c)
  | .body s, c => some ([], if c = '$' then .bodyDollar s else .body (s ++ [c]))
  | .bodyDollar s, c => some (if c = '$' then ([.body s], .gap) else ([], .body (s ++ ['$', c])))
  | .dash, c => some (if c = '-' then ([], .line) else emit (.symbol '-') c)
  | .slash, c => some (if c = '*' then ([], .block 0) else emit (.symbol '/') c)
  | .line, c => some ([], if c = '\n' ∨ c = '\r' then .gap else .line)
  | .block d, c =>
    some ([], if c = '*' then .blockStar d else if c = '/' then .blockSlash d else .block d)
  | .blockStar d, c => some ([],
    if c = '/' then (match d with
      | 0 => .gap
      | d + 1 => .block d)
    else if c = '*' then .blockStar d else .block d)
  | .blockSlash d, c =>
    some ([], if c = '*' then .block (d + 1) else if c = '/' then .blockSlash d else .block d)

/-- The last token, at the end of the text; `none` where something is left open. -/
def finish : Mode → Option (List Token)
  | .gap => some []
  | .word s => some [.word (clip nameLimit (fold s))]
  | .number k s => if k.complete then some [k.token s] else none
  | .dot => some [.symbol '.']
  | .closing q s => (q.token s).map fun t => [t]
  | .dollar => some [.symbol '$']
  | .dash => some [.symbol '-']
  | .slash => some [.symbol '/']
  | .line => some []
  | _ => none

def run : Mode → Text → Option (List Token × Mode)
  | m, [] => some ([], m)
  | m, c :: cs => do
    let (ts, m') ← step m c
    let (ts', m'') ← run m' cs
    some (ts ++ ts', m'')

/-- The tokens of a text that is read from some point on. -/
def read (m : Mode) (cs : Text) : Option (List Token) := do
  let (ts, m') ← run m cs
  let ts' ← finish m'
  some (ts ++ ts')

def lex (sql : String) : Option (List Token) := read .gap sql.toList

section Reading
variable {m m' m'' : Mode} {cs cs' : Text} {ts ts' : List Token}

theorem run_cons {c : Char} : run m (c :: cs) = some (ts, m') ↔
    ∃ first m₁ rest, step m c = some (first, m₁) ∧ run m₁ cs = some (rest, m') ∧
      ts = first ++ rest := by
  simp only [run, Option.bind_eq_bind, Option.bind_eq_some_iff, Option.some.injEq, Prod.mk.injEq]
  constructor
  · rintro ⟨⟨first, m₁⟩, hStep, ⟨rest, m₂⟩, hRun, rfl, rfl⟩
    exact ⟨first, m₁, rest, hStep, hRun, rfl⟩
  · rintro ⟨first, m₁, rest, hStep, hRun, rfl⟩
    exact ⟨(first, m₁), hStep, (rest, m'), hRun, rfl, rfl⟩

theorem run_append (h : run m cs = some (ts, m')) (h' : run m' cs' = some (ts', m'')) :
    run m (cs ++ cs') = some (ts ++ ts', m'') := by
  induction cs generalizing m ts with
  | nil =>
    cases h
    exact h'
  | cons c cs ih =>
    obtain ⟨first, m₁, rest, hStep, hRun, rfl⟩ := run_cons.mp h
    exact run_cons.mpr ⟨first, m₁, rest ++ ts', hStep, ih hRun, List.append_assoc _ _ _⟩

theorem read_nil : read m [] = finish m := by
  cases h : finish m <;> simp [read, run, h]

theorem read_cons (c : Char) :
    read m (c :: cs) = (step m c).bind fun next => (read next.2 cs).map (next.1 ++ ·) := by
  simp only [read, run, Option.bind_eq_bind]
  cases step m c with
  | none => rfl
  | some first =>
    simp only [Option.bind_some]
    cases run first.2 cs with
    | none => rfl
    | some rest => cases h : finish rest.2 <;> simp [h]

/-- What is read of a text, after what is read of its beginning. -/
theorem read_append (h : run m cs = some (ts, m')) :
    read m (cs ++ cs') = (read m' cs').map (ts ++ ·) := by
  induction cs generalizing m ts with
  | nil =>
    cases h
    cases h' : read m' cs' <;> simp [h']
  | cons c cs ih =>
    obtain ⟨first, m₁, rest, hStep, hRun, rfl⟩ := run_cons.mp h
    rw [List.cons_append, read_cons, hStep, Option.bind_some, ih hRun, Option.map_map]
    congr 1
    funext ts
    exact (List.append_assoc _ _ _).symm

/-- Where a token ends, the rest is read as at the beginning of a text. -/
theorem read_emit {c : Char} {t : Token} (h : step m c = some (emit t c)) :
    read m (c :: cs) = (read .gap (c :: cs)).map (t :: ·) := by
  rw [read_cons, read_cons, h]
  simp only [emit, step, Option.bind_some, Option.map_map]
  rfl

end Reading

section Words
variable {cs rest s : Text}

theorem run_word (h : ∀ c ∈ cs, isWord c = true) : run (.word s) cs = some ([], .word (s ++ cs)) := by
  induction cs generalizing s with
  | nil => simp [run]
  | cons c cs ih =>
    obtain ⟨hc, hcs⟩ := List.forall_mem_cons.mp h
    refine run_cons.mpr ⟨[], .word (s ++ [c]), [], ?_, ?_, rfl⟩
    · simp [step, hc]
    · rw [ih hcs, List.append_assoc]
      rfl

theorem read_word (h : ∀ c, rest.head? = some c → isWord c = false) : read (.word s) rest =
    (read .gap rest).map (.word (clip nameLimit (fold s)) :: ·) := by
  cases rest with
  | nil => rfl
  | cons c rest => exact read_emit (by simp [step, h c rfl])

/-- A number is read to its end, where no name may follow. -/
theorem read_number (k : Numeral) (s cs : Text) : read (.number k s) cs =
    if (k.munch cs).1.complete ∧ ((k.munch cs).2.2.head?.any isJunk) = false then
      (read .gap (k.munch cs).2.2).map ((k.munch cs).1.token (s ++ (k.munch cs).2.1) :: ·)
    else none := by
  induction cs generalizing k s with
  | nil =>
    rw [read_nil, finish, Numeral.munch]
    cases k.complete <;> simp [read_nil, finish]
  | cons c cs ih =>
    rw [Numeral.munch]
    cases hNext : k.next c with
    | none =>
      simp only [Option.elim_none, List.append_nil, List.head?_cons, Option.any_some]
      by_cases hEnd : k.complete = true ∧ isJunk c = false
      · rw [if_pos hEnd]
        exact read_emit (by simp [step, hNext, hEnd])
      · rw [if_neg hEnd, read_cons]
        have hStep : step (.number k s) c = none := by
          simp only [step, hNext, Option.elim_none]
          exact if_neg (by simpa using hEnd)
        rw [hStep]
        rfl
    | some k' =>
      have hStep : step (.number k s) c = some ([], .number k' (s ++ [c])) := by
        simp [step, hNext]
      rw [read_cons, hStep]
      simp only [Option.bind_some, List.nil_append, Option.map_id', Option.elim_some]
      rw [ih, List.append_assoc]
      rfl

end Words

section Quotes
variable {q : Quote} {cs rest s : Text} {ts : List Token}

/-- A text as it is written between quotes. -/
def double (q : Char) : Text → Text
  | [] => []
  | c :: cs => if c = q then q :: q :: double q cs else c :: double q cs

theorem run_quoted (h : q.char ∉ cs) : run (.quoted q s) cs = some ([], .quoted q (s ++ cs)) := by
  induction cs generalizing s with
  | nil => simp [run]
  | cons c cs ih =>
    rw [List.mem_cons, not_or] at h
    refine run_cons.mpr ⟨[], .quoted q (s ++ [c]), [], ?_, ?_, rfl⟩
    · simp [step, Ne.symm h.1]
    · rw [ih h.2, List.append_assoc]
      rfl

theorem read_closing (h : rest.head? ≠ some q.char) : read (.closing q s) rest =
    (q.token s).bind fun t => (read .gap rest).map (t :: ·) := by
  cases rest with
  | nil => cases hToken : q.token s <;> simp [read_nil, finish, hToken]
  | cons c rest =>
    have hc : c ≠ q.char := fun h' => h (congrArg some h')
    cases hToken : q.token s with
    | none => simp [read_cons, step, hc, hToken]
    | some t => exact read_emit (by simp [step, hc, hToken])

theorem read_quoted (h : read (.quoted q s) cs = some ts) :
    ∃ v rest t ts', cs = double q.char v ++ q.char :: rest ∧ rest.head? ≠ some q.char ∧
      q.token (s ++ v) = some t ∧ read .gap rest = some ts' ∧ ts = t :: ts' := by
  induction hn : cs.length using Nat.strongRecOn generalizing cs s with
  | ind n ih =>
    subst hn
    cases cs with
    | nil => simp [read_nil, finish] at h
    | cons c cs =>
      rw [read_cons] at h
      by_cases hc : c = q.char
      · subst hc
        simp only [step, if_true, Option.bind_some, List.nil_append, Option.map_id'] at h
        by_cases hHead : cs.head? = some q.char
        · obtain ⟨cs, rfl⟩ : ∃ cs', cs = q.char :: cs' := by
            cases cs with
            | nil => cases hHead
            | cons c cs => exact ⟨cs, congrArg (· :: cs) (Option.some.inj hHead)⟩
          rw [read_cons] at h
          simp only [step, if_true, Option.bind_some, List.nil_append, Option.map_id'] at h
          have hLess : cs.length < (q.char :: q.char :: cs).length := by
            simp only [List.length_cons]
            omega
          obtain ⟨v, rest, t, ts', rfl, hRest, hToken, hRead, rfl⟩ := ih cs.length hLess h rfl
          refine ⟨q.char :: v, rest, t, ts', ?_, hRest, ?_, hRead, rfl⟩
          · simp [double]
          · rwa [List.append_cons]
        · rw [read_closing hHead] at h
          obtain ⟨t, hToken, ts', hRead, rfl⟩ : ∃ t, q.token s = some t ∧
              ∃ ts', read .gap cs = some ts' ∧ t :: ts' = ts := by
            simpa [Option.bind_eq_some_iff] using h
          exact ⟨[], cs, t, ts', rfl, hHead, by rwa [List.append_nil], hRead, rfl⟩
      · simp only [step, if_neg hc, Option.bind_some, List.nil_append, Option.map_id'] at h
        obtain ⟨v, rest, t, ts', rfl, hRest, hToken, hRead, rfl⟩ := ih cs.length (by simp) h rfl
        refine ⟨c :: v, rest, t, ts', ?_, hRest, ?_, hRead, rfl⟩
        · simp [double, hc]
        · rwa [List.append_cons]

/-- A text without quotes between two of them. -/
theorem read_between (h : q.char ∉ cs) (hRest : rest.head? ≠ some q.char) :
    read (.quoted q s) (cs ++ q.char :: rest) =
      (q.token (s ++ cs)).bind fun t => (read .gap rest).map (t :: ·) := by
  rw [read_append (run_quoted h), read_cons, ← read_closing hRest]
  simp [step]

theorem read_literal (h : '\'' ∉ cs) (hRest : rest.head? ≠ some '\'') :
    read (.quoted .literal s) (cs ++ '\'' :: rest) =
      (read .gap rest).map (.literal (s ++ cs) :: ·) :=
  @read_between .literal cs rest s h hRest

theorem token_identifier {t : Token} : Quote.identifier.token s = some t ↔
    s ≠ [] ∧ t = .identifier (clip nameLimit s) := by
  cases s with
  | nil => simp [Quote.token]
  | cons c s => simp [Quote.token, eq_comm]

@[simp] theorem double_nil (c : Char) : double c [] = [] := rfl

theorem double_cons_self (c : Char) (cs : Text) : double c (c :: cs) = c :: c :: double c cs := by
  simp [double]

theorem double_cons {c d : Char} (h : d ≠ c) (cs : Text) : double c (d :: cs) = d :: double c cs := by
  simp [double, h]

theorem read_double (v : Text) :
    read (.quoted q s) (double q.char v ++ cs) = read (.quoted q (s ++ v)) cs := by
  induction v generalizing s with
  | nil => rw [List.append_nil]; rfl
  | cons c v ih =>
    rw [List.append_cons, ← ih]
    by_cases hc : c = q.char
    · rw [hc, double_cons_self, List.cons_append, List.cons_append, read_cons]
      simp only [step, if_true, Option.bind_some, List.nil_append, Option.map_id']
      rw [read_cons]
      simp [step]
    · rw [double_cons hc, List.cons_append, read_cons]
      simp [step, hc]

/-- A quotation that has been opened, with this text in it, and what stands behind its end. -/
def Encloses (q : Quote) (cs v rest : Text) : Prop :=
  cs = double q.char v ++ q.char :: rest ∧ rest.head? ≠ some q.char

theorem read_encloses {v : Text} (h : Encloses q cs v rest) : read (.quoted q s) cs =
    (q.token (s ++ v)).bind fun t => (read .gap rest).map (t :: ·) := by
  obtain ⟨rfl, hHead⟩ := h
  rw [read_double, read_cons, ← read_closing hHead]
  simp [step]

theorem double_head {c d : Char} {cs more : Text} :
    (double c (d :: cs) ++ more).head? = some d := by
  by_cases h : d = c
  · rw [h, double_cons_self]
    rfl
  · rw [double_cons h]
    rfl

theorem length_le_double (c : Char) (cs : Text) : cs.length ≤ (double c cs).length := by
  induction cs with
  | nil => exact Nat.le_refl _
  | cons d cs ih =>
    rw [double]
    split <;> simp only [List.length_cons] <;> omega

theorem double_split {c : Char} {v more : Text} (h : c ∉ cs)
    (hText : cs ++ more = double c v ++ c :: rest) :
    ∃ e, v = cs ++ e ∧ more = double c e ++ c :: rest := by
  induction cs generalizing v with
  | nil => exact ⟨v, rfl, hText⟩
  | cons d cs ih =>
    rw [List.mem_cons, not_or] at h
    cases v with
    | nil =>
      cases hText
      exact absurd rfl h.1
    | cons d' v =>
      by_cases hd : d' = c
      · subst hd
        rw [double_cons_self] at hText
        exact absurd (List.cons.inj hText).1.symm h.1
      · rw [double_cons hd] at hText
        obtain ⟨rfl, hRest⟩ := List.cons.inj hText
        obtain ⟨e, rfl, hMore⟩ := ih h.2 hRest
        exact ⟨e, rfl, hMore⟩

/-- A quotation has half as many quotes at its beginning as are written there, and an odd one out
ends it. -/
theorem double_leading {d : Char} {v : Text} {k : Nat} (hd : d ≠ q.char)
    (h : Encloses q (List.replicate k q.char ++ d :: cs) v rest) :
    (∃ j w, k = 2 * j ∧ v = List.replicate j q.char ++ d :: w) ∨
      ∃ j, k = 2 * j + 1 ∧ v = List.replicate j q.char := by
  obtain ⟨hText, hHead⟩ := h
  induction v generalizing k with
  | nil =>
    cases k with
    | zero => exact absurd (List.cons.inj hText).1 hd
    | succ k =>
      cases k with
      | zero => exact .inr ⟨0, rfl, rfl⟩
      | succ k => exact absurd (by rw [← (List.cons.inj hText).2]; rfl) hHead
  | cons e v ih =>
    by_cases he : e = q.char
    · rw [he, double_cons_self] at hText
      cases k with
      | zero => exact absurd (List.cons.inj hText).1 hd
      | succ k =>
        have hText' := (List.cons.inj hText).2
        cases k with
        | zero => exact absurd (List.cons.inj hText').1 hd
        | succ k =>
          obtain ⟨j, w, hk, rfl⟩ | ⟨j, hk, rfl⟩ := ih (List.cons.inj hText').2
          · exact .inl ⟨j + 1, w, by omega, by rw [he]; rfl⟩
          · exact .inr ⟨j + 1, by omega, by rw [he]; rfl⟩
    · rw [double_cons he] at hText
      cases k with
      | zero =>
        obtain ⟨rfl, _⟩ := List.cons.inj hText
        exact .inl ⟨0, v, rfl, rfl⟩
      | succ k => exact absurd (List.cons.inj hText).1.symm he

/-- Between quotes a text stands for itself, and the quotation ends behind it, only if it has no
quote in it. -/
theorem not_mem_of_double {c : Char} {n e tail : Text}
    (hText : n ++ c :: tail = double c (n ++ e) ++ c :: rest)
    (hTail : c ∉ tail ∨ (e = [] ∧ tail.head? ≠ some c)) : c ∉ n := by
  -- a quote of `n` shifts what comes after it, by one more for each further quote
  have hShift : ∀ (n : Text) (k : Nat),
      n ++ c :: tail ≠ List.replicate (k + 1) c ++ (double c (n ++ e) ++ c :: rest) := by
    intro n
    induction n with
    | nil =>
      intro k hk
      rw [List.replicate_succ, List.cons_append, List.nil_append, List.nil_append] at hk
      have hTail' := List.tail_eq_of_cons_eq hk
      obtain hNone | ⟨rfl, hHead⟩ := hTail
      · exact hNone (by rw [hTail']; simp)
      · cases k <;> exact hHead (by rw [hTail']; rfl)
    | cons d n ih =>
      intro k hk
      rw [List.replicate_succ, List.cons_append, List.cons_append] at hk
      obtain ⟨rfl, hk⟩ := List.cons.inj hk
      rw [List.cons_append, double_cons_self] at hk
      refine ih (k + 1) (hk.trans ?_)
      rw [List.replicate_succ', List.replicate_succ']
      simp
  induction n with
  | nil => exact List.not_mem_nil
  | cons d n ih =>
    by_cases hd : d = c
    · subst hd
      rw [List.cons_append, List.cons_append, double_cons_self] at hText
      exact absurd (List.tail_eq_of_cons_eq hText) (hShift n 0)
    · rw [List.cons_append, List.cons_append, double_cons hd] at hText
      rw [List.mem_cons, not_or]
      exact ⟨Ne.symm hd, ih (List.tail_eq_of_cons_eq hText)⟩

end Quotes

section Bodies
variable {cs rest s : Text} {c : Char}

/-- The end of a body. -/
def dollars : Text := ['$', '$']

theorem prefix_dollars {cs : Text} : dollars <+: cs ↔ ∃ rest, cs = '$' :: '$' :: rest := by
  constructor
  · rintro ⟨rest, rfl⟩
    exact ⟨rest, rfl⟩
  · rintro ⟨rest, rfl⟩
    exact ⟨rest, rfl⟩

theorem dollars_cons (hc : c ≠ '$') : dollars <:+: c :: cs ↔ dollars <:+: cs := by
  rw [List.infix_cons_iff, or_iff_right]
  intro h
  obtain ⟨rest, hEq⟩ := prefix_dollars.mp h
  exact hc (List.cons.inj hEq).1

theorem dollars_append (h : '$' ∉ cs) (rest : Text) : dollars <:+: cs ++ rest ↔ dollars <:+: rest := by
  induction cs with
  | nil => rfl
  | cons c cs ih =>
    rw [List.mem_cons, not_or] at h
    rw [List.cons_append, dollars_cons (Ne.symm h.1), ih h.2]

theorem dollars_split (hc : c ≠ '$') :
    dollars <:+: cs ++ c :: rest ↔ dollars <:+: cs ∨ dollars <:+: rest := by
  induction cs with
  | nil =>
    rw [List.nil_append, dollars_cons hc]
    simp [dollars]
  | cons d cs ih =>
    have hPrefix : dollars <+: d :: (cs ++ c :: rest) ↔ dollars <+: d :: cs := by
      cases cs with
      | nil => simp [dollars, Ne.symm hc]
      | cons e cs => simp [dollars]
    rw [List.cons_append, List.infix_cons_iff, List.infix_cons_iff, hPrefix, ih, or_assoc]

theorem dollars_first (h : dollars <:+: cs) :
    ∃ before after, cs = before ++ '$' :: '$' :: after ∧ ¬ dollars <:+: before ++ ['$'] := by
  induction cs with
  | nil => simp [dollars] at h
  | cons c cs ih =>
    by_cases hHere : dollars <+: c :: cs
    · obtain ⟨rest, hEq⟩ := prefix_dollars.mp hHere
      exact ⟨[], rest, hEq, by decide⟩
    · obtain ⟨before, after, rfl, hBefore⟩ := ih ((List.infix_cons_iff.mp h).resolve_left hHere)
      refine ⟨c :: before, after, rfl, ?_⟩
      rw [List.cons_append, List.infix_cons_iff, not_or]
      refine ⟨fun hPrefix => hHere ?_, hBefore⟩
      obtain ⟨rest, hEq⟩ := prefix_dollars.mp hPrefix
      cases before with
      | nil =>
        obtain ⟨rfl, _⟩ := List.cons.inj hEq
        exact prefix_dollars.mpr ⟨_, rfl⟩
      | cons d before =>
        obtain ⟨rfl, hTail⟩ := List.cons.inj hEq
        obtain ⟨rfl, _⟩ := List.cons.inj hTail
        exact prefix_dollars.mpr ⟨_, rfl⟩

theorem run_body (h : ¬ dollars <:+: cs ++ ['$']) : run (.body s) cs = some ([], .body (s ++ cs)) := by
  induction hn : cs.length using Nat.strongRecOn generalizing cs s with
  | ind n ih =>
    subst hn
    cases cs with
    | nil => simp [run]
    | cons c cs =>
      rw [List.cons_append, List.infix_cons_iff, not_or] at h
      by_cases hc : c = '$'
      · subst hc
        cases cs with
        | nil => exact absurd (prefix_dollars.mpr ⟨[], rfl⟩) h.1
        | cons d cs =>
          have hd : d ≠ '$' := by
            rintro rfl
            exact h.1 (prefix_dollars.mpr ⟨_, rfl⟩)
          have hRest : ¬ dollars <:+: cs ++ ['$'] := fun hIn => h.2 (by
            rw [List.cons_append, dollars_cons hd]
            exact hIn)
          refine run_cons.mpr ⟨[], .bodyDollar s, [], by simp [step], ?_, rfl⟩
          refine run_cons.mpr ⟨[], .body (s ++ ['$', d]), [], by simp [step, hd], ?_, rfl⟩
          rw [ih cs.length (by simp only [List.length_cons]; omega) hRest rfl, List.append_assoc]
          rfl
      · refine run_cons.mpr ⟨[], .body (s ++ [c]), [], by simp [step, hc], ?_, rfl⟩
        rw [ih cs.length (by simp) h.2 rfl, List.append_assoc]
        rfl

/-- A body is read up to the first `$$` in it. -/
theorem read_body (h : ¬ dollars <:+: cs ++ ['$']) : read (.body []) (cs ++ '$' :: '$' :: rest) =
    (read .gap rest).map (.body cs :: ·) := by
  rw [read_append (run_body h), read_cons]
  simp only [step, if_true, Option.bind_some, List.nil_append, Option.map_id']
  rw [read_cons]
  simp [step]

end Bodies

section Names
variable {n : Nat} {cs e : Text}

@[simp] theorem bytes_nil : bytes [] = 0 := rfl

@[simp] theorem bytes_cons (c : Char) (cs : Text) : bytes (c :: cs) = c.utf8Size + bytes cs := rfl

theorem clip_isPrefix (n : Nat) (cs : Text) : clip n cs <+: cs := by
  induction cs generalizing n with
  | nil => exact List.prefix_rfl
  | cons c cs ih =>
    rw [clip]
    split
    · exact List.cons_prefix_cons.mpr ⟨rfl, ih _⟩
    · exact List.nil_prefix

theorem bytes_clip_le (n : Nat) (cs : Text) : bytes (clip n cs) ≤ n := by
  induction cs generalizing n with
  | nil => exact Nat.zero_le _
  | cons c cs ih =>
    rw [clip]
    split
    · have := ih (n - c.utf8Size)
      rw [bytes_cons]
      omega
    · exact Nat.zero_le _

theorem clip_append (h : bytes cs ≤ n) : clip n (cs ++ e) = cs ++ clip (n - bytes cs) e := by
  induction cs generalizing n with
  | nil => rfl
  | cons c cs ih =>
    rw [bytes_cons] at h
    rw [List.cons_append, clip, if_pos (by omega), ih (by omega), bytes_cons, Nat.sub_add_eq]
    rfl

theorem clip_eq_self : clip n cs = cs ↔ bytes cs ≤ n := by
  constructor
  · intro h
    rw [← h]
    exact bytes_clip_le n cs
  · intro h
    have hAll := clip_append (e := []) h
    rwa [List.append_nil, clip, List.append_nil] at hAll

theorem clip_full (h : n ≤ bytes cs) : clip n (cs ++ e) = clip n cs := by
  induction cs generalizing n with
  | nil =>
    cases Nat.le_zero.mp h
    cases e with
    | nil => rfl
    | cons c e =>
      have := c.utf8Size_pos
      exact if_neg (by omega)
  | cons c cs ih =>
    rw [bytes_cons] at h
    rw [List.cons_append, clip, clip, ih (by omega)]

theorem bytes_clip_full (h : n ≤ bytes cs) : n < bytes (clip n cs) + 4 := by
  induction cs generalizing n with
  | nil =>
    cases Nat.le_zero.mp h
    decide
  | cons c cs ih =>
    have hSize := c.utf8Size_le_four
    rw [bytes_cons] at h
    rw [clip]
    split
    · have := ih (n := n - c.utf8Size) (by omega)
      rw [bytes_cons]
      omega
    · rw [bytes_nil]
      omega

theorem bytes_of_ascii (h : ∀ c ∈ cs, c.utf8Size = 1) : bytes cs = cs.length := by
  induction cs with
  | nil => rfl
  | cons c cs ih =>
    obtain ⟨hc, hcs⟩ := List.forall_mem_cons.mp h
    rw [bytes_cons, hc, ih hcs, List.length_cons, Nat.add_comm]

theorem bytes_replicate {c : Char} (h : c.utf8Size = 1) (k : Nat) : bytes (List.replicate k c) = k := by
  rw [bytes_of_ascii fun d hd => List.eq_of_mem_replicate hd ▸ h, List.length_replicate]

theorem bytes_digits (h : ∀ c ∈ cs, c.isDigit = true) : bytes cs = cs.length := by
  refine bytes_of_ascii fun c hc => Char.utf8Size_eq_one_iff.mpr ?_
  have hDigit : 48 ≤ c.val ∧ c.val ≤ 57 := by simpa [Char.isDigit] using h c hc
  exact UInt32.le_trans hDigit.2 (by decide)

theorem utf8Size_of_not_word {c : Char} (h : isWord c = false) : c.utf8Size = 1 := by
  have hAscii : c.toNat < 128 := by
    rw [← Nat.not_le]
    intro hBeyond
    simp [isWord, hBeyond] at h
  exact Char.utf8Size_eq_one_iff.mpr (UInt32.le_iff_toNat_le.mpr (Nat.le_of_lt_succ hAscii))

theorem utf8Size_toLower (c : Char) : c.toLower.utf8Size = c.utf8Size := by
  unfold Char.toLower
  split
  · rename_i h
    have hUpper : c.val.toNat ≤ 90 := UInt32.le_iff_toNat_le.mp h.2
    have hLower : (c.val + ('a'.val - 'A'.val)).toNat ≤ 127 := by
      rw [UInt32.toNat_add]
      have : ('a'.val - 'A'.val).toNat = 32 := by decide
      omega
    rw [Char.utf8Size_eq_one_iff.mpr, Char.utf8Size_eq_one_iff.mpr]
    · exact UInt32.le_iff_toNat_le.mpr (Nat.le_trans hUpper (by decide))
    · exact UInt32.le_iff_toNat_le.mpr hLower
  · rfl

theorem clip_fold (n : Nat) (cs : Text) : clip n (fold cs) = fold (clip n cs) := by
  induction cs generalizing n with
  | nil => rfl
  | cons c cs ih =>
    have hCons : fold (c :: cs) = c.toLower :: fold cs := rfl
    rw [hCons, clip, clip, utf8Size_toLower, ih]
    split <;> rfl

end Names

end Sql
