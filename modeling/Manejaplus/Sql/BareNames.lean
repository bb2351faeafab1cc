import Manejaplus.Sql.Statements

/-! # What a text without quotes around it is taken for

A name and a number are the first element of a list as far as their characters
go, and a minus sign right before a number belongs to it.
-/
namespace Sql
set_option autoImplicit false

/-- Nothing comes up to the end of the statement but further elements of the list. -/
def Continues (cs : Text) : Prop := ((read .gap cs).bind (path false)).isSome

instance (cs : Text) : Decidable (Continues cs) := inferInstanceAs (Decidable (_ = _))

/-- The number that a text begins with, as far as it can be told by one or two characters. -/
def numberAt : Text → Option (Numeral × Text × Text)
  | [] => none
  | c :: cs =>
    if c.isDigit then some (.first c, [c], cs)
    else if c = '.' then
      (cs.head?.filter Char.isDigit).map fun d => (.digits .fraction, ['.', d], cs.tail)
    else none

/-- A number, if it is known by how it is written. -/
def numberText (k : Numeral) (s cs : Text) : Text :=
  let t := s ++ (k.munch cs).2.1
  if (k.munch cs).1.complete ∧ (k.munch cs).1.token t = .number t then t else []

def leadingNumber (cs : Text) : Text :=
  (numberAt cs).elim [] fun (k, s, rest) => numberText k s rest

/-- The unquoted name that a text begins with, or the number, which may have a minus sign. -/
def leadingName : Text → Text
  | [] => []
  | c :: cs =>
    if c = '-' then (if leadingNumber cs = [] then [] else '-' :: leadingNumber cs)
    else if (numberAt (c :: cs)).isSome then leadingNumber (c :: cs)
    else if isJunk c then (c :: cs).takeWhile isWord
    else []

/-- What comes after it. -/
def afterName (cs : Text) : Text := cs.drop (leadingName cs).length

section
variable {c d : Char} {cs rest x v text : Text} {t : Token} {ts : List Token}
  {first : List Token → List Token}

theorem firstValue_read (hRead : read .gap cs = (read .gap rest).map first)
    (hFirst : ∀ ts, firstValue (first ts) = if (path false ts).isSome then some v else none) :
    (read .gap cs).bind firstValue = some x ↔ x = v ∧ Continues rest := by
  rw [hRead, Continues]
  cases read .gap rest with
  | none => simp
  | some ts =>
    rw [Option.map_some, Option.bind_some, hFirst, Option.bind_some]
    split
    · rename_i hEnd
      rw [Option.some.injEq, eq_comm]
      exact (and_iff_left hEnd).symm
    · rename_i hEnd
      exact iff_of_false nofun fun h => hEnd h.2

theorem bytes_reserved : ∀ w ∈ reservedWords, bytes w < 20 := by decide +kernel

/-- A reserved word is no element. -/
theorem firstValue_word {w : Text} (hRead : read .gap cs = (read .gap rest).map (.word w :: ·)) :
    (read .gap cs).bind firstValue = some x ↔ w ∉ reservedWords ∧ x = w ∧ Continues rest := by
  rw [← List.contains_iff_mem]
  by_cases hWord : reservedWords.contains w = true
  · have hNo : (Token.word w).value? = none := if_pos hWord
    have hNone : ∀ ts, firstValue (.word w :: ts) = none := fun ts => by
      simp only [firstValue, path, hNo, Option.bind_none]
    rw [hRead]
    refine iff_of_false (fun h => ?_) fun h => h.1 hWord
    obtain ⟨ts, hTokens, hValue⟩ := Option.bind_eq_some_iff.mp h
    obtain ⟨ts', _, rfl⟩ := Option.map_eq_some_iff.mp hTokens
    cases (hNone ts').symm.trans hValue
  · rw [and_iff_right hWord]
    exact firstValue_read hRead (firstValue_cons (if_neg hWord))

theorem not_continues (hRead : ∀ ts, read .gap cs = some ts → ∃ t ts', ts = t :: ts' ∧
    ∀ c, t ≠ .symbol c) : ¬ Continues cs := by
  intro hContinues
  unfold Continues at hContinues
  cases hTokens : read .gap cs with
  | none => rw [hTokens] at hContinues; cases hContinues
  | some ts =>
    obtain ⟨t, ts', rfl, hOther⟩ := hRead ts hTokens
    rw [hTokens, Option.bind_some] at hContinues
    cases t with
    | symbol c => exact hOther c rfl
    | word | integer | number | identifier | literal | body => cases hContinues

theorem not_word_of_blank (h : isBlank c = true) : isWord c = false := by
  simp only [isBlank, Bool.or_eq_true, beq_iff_eq] at h
  obtain ((((rfl | rfl) | rfl) | rfl) | rfl) | rfl := h <;> decide

theorem not_blank_of_word (h : isWord c = true) : isBlank c = false := by
  rw [← Bool.not_eq_true]
  intro hBlank
  rw [not_word_of_blank hBlank] at h
  cases h

theorem isWord_of_isDigit (h : c.isDigit = true) : isWord c = true := by
  simp [isWord, Char.isAlphanum, h]

theorem read_gap_quote (q : Quote) : read .gap (q.char :: cs) = read (.quoted q []) cs := by
  rw [read_cons]
  cases q <;> simp [step, start, Quote.char, isBlank, isWord, Char.isDigit]

theorem digit_ne (h : c.isDigit = true) : c ≠ '"' ∧ c ≠ '-' ∧ c ≠ '$' ∧ c ≠ '.' := by
  refine ⟨?_, ?_, ?_, ?_⟩
  all_goals
    rintro rfl
    cases h

theorem read_gap_digit (h : c.isDigit = true) :
    read .gap (c :: cs) = read (.number (.first c) [c]) cs := by
  obtain ⟨_, _, hDollar, hDot⟩ := digit_ne h
  rw [read_cons, step, start]
  simp [not_blank_of_word (isWord_of_isDigit h), hDollar, hDot, h]

theorem read_gap_dot : read .gap ('.' :: cs) = read .dot cs := by
  rw [read_cons]
  simp [step, start, isBlank]

theorem read_gap_word (hc : isJunk c = true) (hDigit : c.isDigit = false) :
    read .gap (c :: cs) = read (.word [c]) cs := by
  obtain ⟨hWord, hDollar⟩ : isWord c = true ∧ c ≠ '$' := by simpa [isJunk] using hc
  have hDot : c ≠ '.' := by rintro rfl; cases hWord
  rw [read_cons, step, start]
  simp [not_blank_of_word hWord, hDollar, hDot, hDigit, hWord]

/-- The whole of a name is read at once. -/
theorem read_leading (hc : isJunk c = true) (hDigit : c.isDigit = false) :
    read .gap (c :: cs) = (read .gap ((c :: cs).dropWhile isWord)).map
      (.word (clip nameLimit (fold ((c :: cs).takeWhile isWord))) :: ·) := by
  have hWord : isWord c = true := (Bool.and_eq_true _ _ ▸ hc).1
  have hAll : ∀ d ∈ cs.takeWhile isWord, isWord d = true := by
    rw [← List.all_eq_true]
    exact List.all_takeWhile
  have hRest : ∀ d, (cs.dropWhile isWord).head? = some d → isWord d = false := by
    intro d hd
    have := List.head?_dropWhile_not isWord cs
    simpa [hd] using this
  rw [read_gap_word hc hDigit, List.dropWhile_cons_of_pos hWord, List.takeWhile_cons_of_pos hWord]
  conv => lhs; rw [← List.takeWhile_append_dropWhile (p := isWord) (l := cs)]
  rw [read_append (run_word hAll), read_word hRest, Option.map_map]
  rfl

theorem numberAt_spec {k : Numeral} {s : Text} (h : numberAt cs = some (k, s, rest)) :
    cs = s ++ rest ∧ read .gap cs = read (.number k s) rest ∧ '"' ∉ s ∧ '-' ∉ s := by
  cases cs with
  | nil => cases h
  | cons c cs =>
    rw [numberAt] at h
    split at h
    · rename_i hDigit
      cases h
      obtain ⟨hQuote, hMinus, _⟩ := digit_ne hDigit
      exact ⟨rfl, read_gap_digit hDigit, by simp [Ne.symm hQuote], by simp [Ne.symm hMinus]⟩
    split at h
    · rename_i hDot
      subst hDot
      obtain ⟨d, hHead, hNext⟩ := Option.map_eq_some_iff.mp h
      cases hNext
      obtain ⟨hHead, hDigit⟩ := Option.filter_eq_some_iff.mp hHead
      obtain ⟨cs, rfl⟩ : ∃ cs', cs = d :: cs' := ⟨cs.tail, List.eq_cons_of_mem_head? hHead⟩
      obtain ⟨hQuote, hMinus, _⟩ := digit_ne hDigit
      refine ⟨rfl, ?_, by simp [Ne.symm hQuote], by simp [Ne.symm hMinus]⟩
      rw [read_gap_dot, read_cons]
      simp [step, hDigit]
    · cases h

theorem not_digit_of_numberAt (h : numberAt (c :: cs) = none) : c.isDigit = false := by
  rw [← Bool.not_eq_true]
  intro hDigit
  rw [numberAt, if_pos hDigit] at h
  cases h

theorem Numeral.token_eq (k : Numeral) (s : Text) :
    k.token s = .number s ∨ ∃ n < integerLimit, k.token s = .integer n := by
  unfold Numeral.token
  cases h : (k.integer? s).filter (· < integerLimit) with
  | none => exact .inl rfl
  | some n => exact .inr ⟨n, by simpa using (Option.filter_eq_some_iff.mp h).2, rfl⟩

/-- A name that is a word ends at the first other character. -/
theorem leadingName_word (hc : isJunk c = true) (hDigit : c.isDigit = false) :
    leadingName (c :: cs) = (c :: cs).takeWhile isWord := by
  have hDot : c ≠ '.' := by rintro rfl; cases hc
  have hMinus : c ≠ '-' := by rintro rfl; cases hc
  simp [leadingName, numberAt, hDigit, hDot, hMinus, hc]

theorem afterName_eq (h : cs = leadingName cs ++ rest) : afterName cs = rest := by
  have hDrop : (leadingName cs ++ rest).drop (leadingName cs).length = rest := List.drop_left
  rwa [← h] at hDrop

/-- Behind a name or a number nothing of either kind comes in a list. -/
theorem not_continues_junk (hc : isJunk c = true) : ¬ Continues (c :: cs) := by
  apply not_continues
  intro ts hRead
  by_cases hDigit : c.isDigit = true
  · rw [read_gap_digit hDigit, read_number] at hRead
    split at hRead
    · obtain ⟨ts', _, rfl⟩ := Option.map_eq_some_iff.mp hRead
      refine ⟨_, ts', rfl, ?_⟩
      obtain hToken | ⟨n, _, hToken⟩ := Numeral.token_eq (Numeral.munch (.first c) cs).1
        ([c] ++ (Numeral.munch (.first c) cs).2.1) <;>
        rw [hToken] <;> exact fun _ h => by cases h
    · cases hRead
  · rw [read_leading hc (by simpa using hDigit)] at hRead
    obtain ⟨ts', _, rfl⟩ := Option.map_eq_some_iff.mp hRead
    exact ⟨_, ts', rfl, fun _ h => by cases h⟩

theorem not_continues_quote (q : Quote) : ¬ Continues (q.char :: cs) := by
  apply not_continues
  intro ts hRead
  rw [read_gap_quote] at hRead
  obtain ⟨v, rest, t, ts', _, _, hToken, _, rfl⟩ := read_quoted hRead
  refine ⟨t, ts', rfl, ?_⟩
  cases q with
  | identifier =>
    obtain ⟨_, rfl⟩ := token_identifier.mp hToken
    exact fun _ h => by cases h
  | literal =>
    cases hToken
    exact fun _ h => by cases h

theorem firstValue_signed {v : Text} (hValue : t.signed? c = some v) (ts : List Token) :
    firstValue (.symbol c :: t :: ts) = if (path false ts).isSome then some v else none := by
  rw [firstValue, path, hValue, Option.bind_some]
  cases path false ts <;> rfl

/-- How a number behind such a sign is read, and what it is taken for. -/
structure Sign (sign : Text) (value : Token → Option Text) : Prop where
  text : sign = [] ∨ sign = ['-']
  reads : ∀ {cs}, (numberAt cs).isSome →
    read .gap (sign ++ cs) = (read .gap cs).map (sign.map Token.symbol ++ ·)
  first : ∀ {t v}, value t = some v → ∀ ts, firstValue (sign.map Token.symbol ++ t :: ts) =
    if (path false ts).isSome then some v else none
  number : ∀ s, value (.number s) = some (clip nameLimit (fold (sign ++ s)))
  integer : ∀ n, ∃ before, before <+: sign ∧
    value (.integer n) = some (before ++ Nat.toDigits 10 n)
  name : ∀ {cs}, (numberAt cs).isSome →
    leadingName (sign ++ cs) = if leadingNumber cs = [] then [] else sign ++ leadingNumber cs

theorem not_minus_of_numberAt (h : (numberAt (c :: cs)).isSome = true) : c ≠ '-' := by
  rintro rfl
  cases h

theorem unsigned : Sign [] Token.value? where
  text := .inl rfl
  reads _ := by simp
  first := firstValue_cons
  number _ := rfl
  integer _ := ⟨[], List.prefix_rfl, rfl⟩
  name {cs} h := by
    cases cs with
    | nil => cases h
    | cons c cs =>
      rw [List.nil_append, leadingName, if_neg (not_minus_of_numberAt h), if_pos h]
      split <;> simp_all

theorem minus : Sign ['-'] (Token.signed? '-') where
  text := .inr rfl
  reads {cs} h := by
    cases cs with
    | nil => cases h
    | cons c cs =>
      have hStart : read .gap ('-' :: c :: cs) = read .dash (c :: cs) := by
        rw [read_cons]
        simp [step, start, isBlank, isWord]
      exact hStart.trans (read_emit (by simp [step, not_minus_of_numberAt h]))
  first := firstValue_signed
  number s := rfl
  integer n := by
    by_cases hn : n = 0
    · exact ⟨[], List.nil_prefix, by simp [Token.signed?, hn]⟩
    · exact ⟨['-'], List.prefix_rfl, by simp [Token.signed?, hn]⟩
  name h := rfl

/-- The number that a text begins with, behind its sign, is the first element, if it is one. -/
theorem firstValue_number {k : Numeral} {s sign : Text} {value : Token → Option Text}
    (hSign : Sign sign value) (h : numberAt cs = some (k, s, rest)) :
    (read .gap (sign ++ cs)).bind firstValue = some x ↔
      ((k.munch rest).1.complete = true ∧
        value ((k.munch rest).1.token (s ++ (k.munch rest).2.1)) = some x) ∧
      Continues (k.munch rest).2.2 := by
  obtain ⟨_, hRead, _⟩ := numberAt_spec h
  have hText := hSign.reads (by rw [h]; rfl)
  rw [hRead, read_number] at hText
  by_cases hEnd : (k.munch rest).1.complete = true ∧
      (k.munch rest).2.2.head?.any isJunk = false
  · obtain ⟨v, hValue⟩ : ∃ v,
        value ((k.munch rest).1.token (s ++ (k.munch rest).2.1)) = some v := by
      obtain hToken | ⟨n, _, hToken⟩ := Numeral.token_eq (k.munch rest).1
        (s ++ (k.munch rest).2.1)
      · exact ⟨_, hToken ▸ hSign.number _⟩
      · obtain ⟨_, _, hInteger⟩ := hSign.integer n
        exact ⟨_, hToken ▸ hInteger⟩
    rw [if_pos hEnd, Option.map_map] at hText
    rw [firstValue_read hText (hSign.first hValue), hValue, and_iff_right hEnd.1,
      Option.some.injEq, eq_comm]
  · rw [hText, if_neg hEnd]
    refine iff_of_false nofun ?_
    rintro ⟨⟨hComplete, _⟩, hContinues⟩
    refine hEnd ⟨hComplete, ?_⟩
    rw [← Bool.not_eq_true]
    intro hJunk
    cases hRest : (k.munch rest).2.2 with
    | nil => rw [hRest] at hJunk; cases hJunk
    | cons c cs =>
      rw [hRest] at hJunk hContinues
      exact not_continues_junk hJunk hContinues

end

end Sql
