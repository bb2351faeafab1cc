import Manejaplus.Sql.BareNames

/-! # What a text begins with

Behind blanks and comments: a number, an unquoted name, a quotation or a symbol.
-/
namespace Sql
set_option autoImplicit false

/-- Blanks and comments. -/
def IsGap (cs : Text) : Prop := run .gap cs = some ([], .gap)

/-- The text begins with something else than a blank or a comment. -/
def opens : Text → Bool
  | [] => false
  | c :: cs => !isBlank c && !(c == '-' && cs.head? == some '-') && !(c == '/' && cs.head? == some '*')

/-- Within a comment. -/
def Mode.isComment : Mode → Bool
  | .line => true
  | .block _ => true
  | .blockStar _ => true
  | .blockSlash _ => true
  | _ => false

/-- A text in quotes or between dollars that can be read, and what stands behind it. -/
def Quotation (cs v rest : Text) : Prop :=
  (∃ (q : Quote) (more : Text), cs = q.char :: more ∧ Encloses q more v rest ∧
      (q.token v).isSome = true) ∨
    (cs = '$' :: '$' :: (v ++ '$' :: '$' :: rest) ∧ ¬ dollars <:+: v ++ ['$'])

/-- The text begins like a number. -/
def isNumeric (cs : Text) : Bool := cs.head?.any fun c => c.isDigit || c == '.'

section
variable {m m' : Mode} {c d : Char} {cs rest x v s : Text} {t : Token} {ts : List Token}

theorem step_comment (h : m.isComment = true) (c : Char) :
    ∃ m', step m c = some ([], m') ∧ (m'.isComment = true ∨ m' = .gap) := by
  cases m with
  | line =>
    refine ⟨_, rfl, ?_⟩
    split
    · exact .inr rfl
    · exact .inl rfl
  | block depth =>
    refine ⟨_, rfl, .inl ?_⟩
    split_ifs <;> rfl
  | blockStar depth =>
    refine ⟨_, rfl, ?_⟩
    split
    · cases depth with
      | zero => exact .inr rfl
      | succ depth => exact .inl rfl
    · split <;> exact .inl rfl
  | blockSlash depth =>
    refine ⟨_, rfl, .inl ?_⟩
    split_ifs <;> rfl
  | _ => cases h

/-- A comment ends, and the reader goes on behind it. -/
theorem read_comment (hMode : m.isComment = true) (hRead : read m cs = some ts) (hSome : ts ≠ []) :
    ∃ comment rest, cs = comment ++ rest ∧ run m comment = some ([], .gap) ∧
      read .gap rest = some ts := by
  induction cs generalizing m with
  | nil =>
    rw [read_nil] at hRead
    cases m with
    | line => exact absurd (Option.some.inj hRead).symm hSome
    | block | blockStar | blockSlash => cases hRead
    | _ => cases hMode
  | cons c cs ih =>
    obtain ⟨m', hStep, hNext⟩ := step_comment hMode c
    have hRest : read m' cs = some ts := by
      rw [read_cons, hStep] at hRead
      simpa using hRead
    obtain hComment | rfl := hNext
    · obtain ⟨comment, rest, rfl, hRun, hBehind⟩ := ih hComment hRest
      exact ⟨c :: comment, rest, rfl, run_cons.mpr ⟨[], m', [], hStep, hRun, rfl⟩, hBehind⟩
    · exact ⟨[c], cs, rfl, run_cons.mpr ⟨[], .gap, [], hStep, rfl, rfl⟩, hRest⟩

/-- A blank, or what a comment begins with. -/
theorem gap_first (h : opens (c :: cs) = false) : ∃ first behind m, c :: cs = first ++ behind ∧
    first ≠ [] ∧ run .gap first = some ([], m) ∧ (m = .gap ∨ m.isComment = true) ∧
      '"' ∉ first ∧ bytes first ≤ 2 ∧ ∀ more, opens (first ++ more) = false := by
  simp only [opens, Bool.and_eq_false_iff, Bool.not_eq_false', Bool.and_eq_true, beq_iff_eq] at h
  obtain (hBlank | ⟨rfl, hDash⟩) | ⟨rfl, hStar⟩ := h
  · have hQuote : c ≠ '"' := by rintro rfl; cases hBlank
    refine ⟨[c], cs, .gap, rfl, List.cons_ne_nil _ _, by simp [run, step, start, hBlank], .inl rfl,
      by simpa using Ne.symm hQuote, ?_, fun more => by simp [opens, hBlank]⟩
    simp [utf8Size_of_not_word (not_word_of_blank hBlank)]
  · obtain ⟨cs, rfl⟩ : ∃ cs', cs = '-' :: cs' := ⟨cs.tail, List.eq_cons_of_mem_head? hDash⟩
    exact ⟨['-', '-'], cs, .line, rfl, List.cons_ne_nil _ _, by decide, .inr rfl, by decide,
      by decide, fun more => by simp [opens]⟩
  · obtain ⟨cs, rfl⟩ : ∃ cs', cs = '*' :: cs' := ⟨cs.tail, List.eq_cons_of_mem_head? hStar⟩
    exact ⟨['/', '*'], cs, .block 0, rfl, List.cons_ne_nil _ _, by decide, .inr rfl, by decide,
      by decide, fun more => by simp [opens]⟩

/-- Behind the blanks and comments at its beginning a text that has tokens opens one. -/
theorem gap_split (hRead : read .gap cs = some ts) (hSome : ts ≠ []) :
    ∃ gap rest, cs = gap ++ rest ∧ IsGap gap ∧ opens rest = true ∧
      (gap = [] ∨ opens cs = false) := by
  induction hn : cs.length using Nat.strongRecOn generalizing cs with
  | ind n ih =>
    subst hn
    cases cs with
    | nil => exact absurd (Option.some.inj hRead).symm hSome
    | cons c cs =>
      by_cases hOpens : opens (c :: cs) = true
      · exact ⟨[], c :: cs, rfl, rfl, hOpens, .inl rfl⟩
      have hNot : opens (c :: cs) = false := by simpa using hOpens
      obtain ⟨first, behind, m, hText, hFirst, hRun, hMode, _⟩ := gap_first hNot
      rw [hText, read_append hRun] at hRead
      have hBehind : read m behind = some ts := by simpa using hRead
      have hLength : behind.length < (c :: cs).length := by
        rw [hText, List.length_append]
        have := List.length_pos_of_ne_nil hFirst
        omega
      obtain rfl | hComment := hMode
      · obtain ⟨gap, rest, rfl, hGap, hRest, _⟩ := ih _ hLength hBehind rfl
        exact ⟨first ++ gap, rest, by rw [hText, List.append_assoc], run_append hRun hGap, hRest,
          .inr hNot⟩
      · obtain ⟨comment, more, rfl, hComment, hMore⟩ := read_comment hComment hBehind hSome
        have hLess : more.length < (c :: cs).length := by
          rw [List.length_append] at hLength
          omega
        obtain ⟨gap, rest, rfl, hGap, hRest, _⟩ := ih _ hLess hMore rfl
        refine ⟨first ++ comment ++ gap, rest, ?_, ?_, hRest, .inr hNot⟩
        · rw [hText, List.append_assoc, List.append_assoc]
        · exact run_append (run_append hRun hComment) hGap

/-- Between quotes a blank or a comment stays what the text begins with. -/
theorem opens_quoted {n : Nat} (hn : 2 ≤ n) (hSome : cs ≠ []) (hOpens : opens cs = false)
    {more : Text} (hText : cs ++ more = double '"' v ++ '"' :: rest) : opens (clip n v) = false := by
  cases cs with
  | nil => exact absurd rfl hSome
  | cons c cs =>
    obtain ⟨first, behind, _, hFirst, _, _, _, hQuote, hBytes, hNot⟩ := gap_first hOpens
    rw [hFirst, List.append_assoc] at hText
    obtain ⟨e, rfl, _⟩ := double_split hQuote hText
    rw [clip_append (Nat.le_trans hBytes hn)]
    exact hNot _

/-- What is between the dollars ends at the first two of them. -/
theorem body_split {s all : Text} (hs : ¬ dollars <:+: s ++ ['$']) :
    (read (.body s) cs = some ts ∧ all = s ++ cs ∨
      read (.bodyDollar s) cs = some ts ∧ all = s ++ '$' :: cs) →
    ∃ v rest, all = v ++ '$' :: '$' :: rest ∧ ¬ dollars <:+: v ++ ['$'] := by
  induction cs generalizing s with
  | nil => rintro (⟨h, _⟩ | ⟨h, _⟩) <;> cases (read_nil.symm.trans h)
  | cons c cs ih =>
    have hBody : ¬ dollars <:+: s := fun h => hs (h.trans (List.prefix_append s _).isInfix)
    intro h
    simp only [read_cons, step, Option.bind_some] at h
    by_cases hc : c = '$'
    · subst hc
      obtain ⟨h, rfl⟩ | ⟨_, rfl⟩ := h
      · exact ih hs (.inr ⟨by simpa using h, rfl⟩)
      · exact ⟨s, cs, rfl, hs⟩
    · have hOne : ¬ dollars <:+: ['$'] := by decide
      obtain ⟨h, rfl⟩ | ⟨h, rfl⟩ := h
      · refine ih (s := s ++ [c]) ?_ (.inl ⟨by simpa [hc] using h, by simp⟩)
        rw [List.append_assoc, List.singleton_append, dollars_split hc]
        exact not_or.mpr ⟨hBody, hOne⟩
      · refine ih (s := s ++ ['$', c]) ?_ (.inl ⟨by simpa [hc] using h, by simp⟩)
        rw [show s ++ ['$', c] ++ ['$'] = s ++ ['$'] ++ c :: ['$'] by simp, dollars_split hc]
        exact not_or.mpr ⟨hs, hOne⟩

theorem read_gap_cons (h : start c = ([], m)) : read .gap (c :: cs) = read m cs := by
  rw [read_cons, step, Option.bind_some, h]
  simp

theorem read_gap_dollars : read .gap ('$' :: '$' :: cs) = read (.body []) cs := by
  rw [read_gap_cons (m := .dollar) rfl, read_cons]
  simp [step]

/-- A quotation is one token, which is no number. -/
theorem read_quotation (h : Quotation cs v rest) : ∃ t, t.value? = some (clip nameLimit v) ∧
    (∀ d, t.signed? d = none) ∧ read .gap cs = (read .gap rest).map (t :: ·) := by
  obtain ⟨q, more, rfl, hEncloses, hToken⟩ | ⟨rfl, hBody⟩ := h
  · obtain ⟨t, hToken⟩ := Option.isSome_iff_exists.mp hToken
    have hRead : read .gap (q.char :: more) = (read .gap rest).map (t :: ·) := by
      rw [read_gap_quote, read_encloses hEncloses, List.nil_append, hToken, Option.bind_some]
    cases q with
    | identifier =>
      obtain ⟨_, rfl⟩ := token_identifier.mp hToken
      exact ⟨_, rfl, fun _ => rfl, hRead⟩
    | literal =>
      cases hToken
      exact ⟨_, rfl, fun _ => rfl, hRead⟩
  · exact ⟨.body v, rfl, fun _ => rfl, read_gap_dollars.trans (read_body hBody)⟩

theorem firstValue_quotation (h : Quotation cs v rest) :
    (read .gap cs).bind firstValue = some x ↔ x = clip nameLimit v ∧ Continues rest := by
  obtain ⟨t, hValue, _, hRead⟩ := read_quotation h
  exact firstValue_read hRead (firstValue_cons hValue)

theorem quotation_of_quote {q : Quote} (hRead : read .gap (q.char :: cs) = some ts) :
    ∃ v rest, Quotation (q.char :: cs) v rest := by
  rw [read_gap_quote] at hRead
  obtain ⟨v, rest, t, _, hText, hHead, hToken, _⟩ := read_quoted hRead
  rw [List.nil_append] at hToken
  exact ⟨v, rest, .inl ⟨q, cs, rfl, ⟨hText, hHead⟩, by rw [hToken]; rfl⟩⟩

theorem quotation_of_dollars (hRead : read .gap ('$' :: '$' :: cs) = some ts) :
    ∃ v rest, Quotation ('$' :: '$' :: cs) v rest := by
  rw [read_gap_dollars] at hRead
  obtain ⟨v, rest, rfl, hBody⟩ := body_split (s := []) (by decide) (.inl ⟨hRead, rfl⟩)
  exact ⟨v, rest, .inr ⟨rfl, hBody⟩⟩

/-- A symbol that may have been the beginning of something longer. -/
theorem read_pending (hFinish : finish m = some [.symbol c])
    (hStep : ∀ d, cs.head? = some d → step m d = some (emit (.symbol c) d)) :
    read m cs = (read .gap cs).map (.symbol c :: ·) := by
  cases cs with
  | nil => rw [read_nil, hFinish]; rfl
  | cons d cs => exact read_emit (hStep d rfl)

/-- A text that begins with neither a blank nor a comment begins with a number, an unquoted name, a
quotation or a symbol. -/
theorem opening (hOpens : opens (c :: cs) = true) (hRead : read .gap (c :: cs) = some ts) :
    (numberAt (c :: cs)).isSome = true ∨ (isJunk c = true ∧ c.isDigit = false) ∨
      (∃ v rest, Quotation (c :: cs) v rest) ∨
        read .gap (c :: cs) = (read .gap cs).map (.symbol c :: ·) := by
  simp only [opens, Bool.and_eq_true, Bool.not_eq_true', Bool.and_eq_false_imp, beq_iff_eq] at hOpens
  obtain ⟨⟨hBlank, hDash⟩, hSlash⟩ := hOpens
  by_cases hNumber : (numberAt (c :: cs)).isSome = true
  · exact .inl hNumber
  refine .inr ?_
  have hDigit : c.isDigit = false := not_digit_of_numberAt (by simpa using hNumber)
  by_cases hJunk : isJunk c = true
  · exact .inl ⟨hJunk, hDigit⟩
  refine .inr ?_
  by_cases hIdentifier : c = Quote.identifier.char
  · subst hIdentifier
    exact .inl (quotation_of_quote hRead)
  by_cases hLiteral : c = Quote.literal.char
  · subst hLiteral
    exact .inl (quotation_of_quote hRead)
  by_cases hDollar : c = '$'
  · subst hDollar
    by_cases hTwo : cs.head? = some '$'
    · obtain ⟨cs, rfl⟩ : ∃ cs', cs = '$' :: cs' := ⟨cs.tail, List.eq_cons_of_mem_head? hTwo⟩
      exact .inl (quotation_of_dollars hRead)
    · refine .inr ((read_gap_cons (m := .dollar) rfl).trans (read_pending rfl fun d hd => ?_))
      have : d ≠ '$' := by rintro rfl; exact hTwo hd
      simp [step, this]
  refine .inr ?_
  by_cases hDot : c = '.'
  · subst hDot
    refine (read_gap_cons (m := .dot) rfl).trans (read_pending rfl fun d hd => ?_)
    have : d.isDigit = false := by simpa [numberAt, Char.isDigit, hd] using hNumber
    simp [step, this]
  by_cases hMinus : c = '-'
  · subst hMinus
    refine (read_gap_cons (m := .dash) rfl).trans (read_pending rfl fun d hd => ?_)
    have : d ≠ '-' := by rintro rfl; simp [hd] at hDash
    simp [step, this]
  by_cases hDivide : c = '/'
  · subst hDivide
    refine (read_gap_cons (m := .slash) rfl).trans (read_pending rfl fun d hd => ?_)
    have : d ≠ '*' := by rintro rfl; simp [hd] at hSlash
    simp [step, this]
  have hWord : isWord c = false := by simpa [isJunk, hDollar] using hJunk
  rw [read_cons, step, start]
  simp only [Quote.char] at hIdentifier hLiteral
  simp [hBlank, hDollar, hDot, hDigit, hWord, hIdentifier, hLiteral, hMinus, hDivide]

theorem toLower_of_small (h : c.toLower.toNat < 97) : c.toLower = c := by
  unfold Char.toLower at h ⊢
  split
  · rename_i hUpper
    rw [dif_pos hUpper] at h
    have hLow : 65 ≤ c.val.toNat := UInt32.le_iff_toNat_le.mp hUpper.1
    have hHigh : c.val.toNat ≤ 90 := UInt32.le_iff_toNat_le.mp hUpper.2
    have hSum : (c.val + ('a'.val - 'A'.val)).toNat = c.val.toNat + 32 := by
      rw [UInt32.toNat_add]
      have : ('a'.val - 'A'.val).toNat = 32 := by decide
      omega
    have hLess : (c.val + ('a'.val - 'A'.val)).toNat < 97 := h
    omega
  · rfl

theorem opens_of_word (h : isWord c = true) : opens (c.toLower :: cs) = true := by
  have hOther : ∀ d : Char, d.toNat < 97 → isWord d = false → c.toLower ≠ d := by
    rintro d hSmall hNo rfl
    rw [toLower_of_small hSmall, h] at hNo
    cases hNo
  have hBlank : isBlank c.toLower = false := by
    rw [← Bool.not_eq_true]
    intro hBlank
    simp only [isBlank, Bool.or_eq_true, beq_iff_eq] at hBlank
    obtain ((((h | h) | h) | h) | h) | h := hBlank <;> exact hOther _ (by decide) (by decide) h
  have hMinus := hOther '-' (by decide) (by decide)
  have hDivide := hOther '/' (by decide) (by decide)
  simp [opens, hBlank, hMinus, hDivide]

theorem opens_of_numeric (h : isNumeric cs = true) : opens cs = true ∧ opens ('-' :: cs) = true := by
  cases cs with
  | nil => cases h
  | cons c cs =>
    have hFigure : c.isDigit = true ∨ c = '.' := by simpa [isNumeric] using h
    have hOther : isBlank c = false ∧ c ≠ '-' ∧ c ≠ '/' := by
      obtain hDigit | rfl := hFigure
      · have hWord := isWord_of_isDigit hDigit
        refine ⟨not_blank_of_word hWord, ?_, ?_⟩
        all_goals
          rintro rfl
          cases hWord
      · decide
    have hDash : isBlank '-' = false := by decide
    simp [opens, hOther, hDash]

theorem isNumeric_append {more : Text} (h : isNumeric cs = true) : isNumeric (cs ++ more) = true := by
  cases cs with
  | nil => cases h
  | cons c cs => exact h

theorem isNumeric_digits (n : Nat) : isNumeric (Nat.toDigits 10 n) = true := by
  cases hDigits : Nat.toDigits 10 n with
  | nil => exact absurd hDigits (Nat.toDigits_ne_nil)
  | cons d ds =>
    have hDigit : d.isDigit = true := Nat.isDigit_of_mem_toDigits (by decide) (by decide)
      (hDigits ▸ List.mem_cons_self)
    simp [isNumeric, hDigit]

theorem toLower_digit (h : c.isDigit = true) : c.toLower = c := by
  unfold Char.toLower
  refine dif_neg fun hUpper => ?_
  have hDigit : 48 ≤ c.val ∧ c.val ≤ 57 := by simpa [Char.isDigit] using h
  exact absurd (UInt32.le_trans hUpper.1 hDigit.2) (by decide)

theorem isNumeric_clip {n : Nat} (hn : 4 ≤ n) (h : isNumeric cs = true) :
    isNumeric (clip n (fold cs)) = true := by
  cases cs with
  | nil => cases h
  | cons c cs =>
    have hSize := c.utf8Size_le_four
    have hFigure : c.isDigit = true ∨ c = '.' := by simpa [isNumeric] using h
    have hLower : c.toLower = c := by
      obtain hDigit | rfl := hFigure
      · exact toLower_digit hDigit
      · rfl
    rw [fold, List.map_cons, hLower, clip, if_pos (by omega)]
    exact h

/-- The value of a number begins with its sign or like a number. -/
theorem numeric_value {k : Numeral} {sign : Text} {value : Token → Option Text}
    (hSign : Sign sign value) (hs : isNumeric s = true) (h : value (k.token s) = some x) :
    ∃ before n, before <+: sign ∧ x = before ++ n ∧ isNumeric n = true := by
  obtain hToken | ⟨n, _, hToken⟩ := k.token_eq s
  · rw [hToken, hSign.number] at h
    cases h
    obtain rfl | rfl := hSign.text
    · exact ⟨[], _, List.prefix_rfl, rfl, isNumeric_clip (by decide) hs⟩
    · refine ⟨['-'], clip (nameLimit - 1) (fold s), List.prefix_rfl, ?_,
        isNumeric_clip (by decide) hs⟩
      have hFold : fold (['-'] ++ s) = '-' :: fold s := rfl
      rw [hFold, clip, if_pos (by decide)]
      rfl
  · obtain ⟨before, hBefore, hValue⟩ := hSign.integer n
    rw [hToken, hValue] at h
    cases h
    exact ⟨before, _, hBefore, rfl, isNumeric_digits n⟩

theorem numberAt_numeric {k : Numeral} (h : numberAt cs = some (k, s, rest)) :
    isNumeric s = true := by
  cases cs with
  | nil => cases h
  | cons c cs =>
    rw [numberAt] at h
    split at h
    · rename_i hDigit
      cases h
      simp [isNumeric, hDigit]
    split at h
    · obtain ⟨_, _, hNext⟩ := Option.map_eq_some_iff.mp h
      cases hNext
      rfl
    · cases h

/-- What comes first where a number stands. -/
theorem number_first (h : (numberAt cs).isSome = true) (hRead : read .gap cs = some ts) :
    ∃ k s ts', ts = Numeral.token k s :: ts' ∧ isNumeric s = true := by
  obtain ⟨⟨k, s, rest⟩, h⟩ := Option.isSome_iff_exists.mp h
  obtain ⟨_, hNumber, _⟩ := numberAt_spec h
  rw [hNumber, read_number] at hRead
  split at hRead
  · obtain ⟨ts', _, rfl⟩ := Option.map_eq_some_iff.mp hRead
    exact ⟨_, _, ts', rfl, isNumeric_append (numberAt_numeric h)⟩
  · cases hRead

theorem signed_cases (h : t.signed? c = some v) : c = '-' ∨ (c = '+' ∧ t.value? = some v) := by
  by_cases hMinus : c = '-'
  · exact .inl hMinus
  by_cases hPlus : c = '+'
  · subst hPlus
    refine .inr ⟨rfl, ?_⟩
    cases t with
    | integer | number => exact h
    | _ => cases h
  · cases t <;> simp [Token.signed?, hMinus, hPlus] at h

/-- A number with its sign. -/
theorem signed_value {k : Numeral} (hs : isNumeric s = true)
    (h : (k.token s).signed? c = some x) : (c = '-' ∨ c = '+') ∧
      (isNumeric x = true ∨ c = '-' ∧ ∃ n, x = '-' :: n ∧ isNumeric n = true) := by
  obtain rfl | ⟨rfl, hValue⟩ := signed_cases h
  · refine ⟨.inl rfl, ?_⟩
    obtain ⟨before, n, hBefore, rfl, hn⟩ := numeric_value minus hs h
    obtain rfl | ⟨_, hEq, hNil⟩ := List.prefix_cons_iff.mp hBefore
    · exact .inl hn
    · rw [List.prefix_nil.mp hNil] at hEq
      subst hEq
      exact .inr ⟨rfl, n, rfl, hn⟩
  · obtain ⟨before, n, hBefore, rfl, hn⟩ := numeric_value unsigned hs hValue
    rw [List.prefix_nil.mp hBefore]
    exact ⟨.inr rfl, .inl hn⟩

/-- A symbol that begins an element is the sign of a number behind it. -/
theorem signed_first (hRead : read .gap cs = some ts)
    (h : firstValue (.symbol c :: ts) = some x) : (c = '-' ∨ c = '+') ∧
      (isNumeric x = true ∨ c = '-' ∧ ∃ n, x = '-' :: n ∧ isNumeric n = true) ∧
      ((numberAt cs).isSome = true ∨ cs ≠ [] ∧ opens cs = false) := by
  cases ts with
  | nil => cases h
  | cons t ts =>
    have hSome : cs ≠ [] := by rintro rfl; cases hRead
    obtain ⟨gap, rest, rfl, hGap, hOpens, hFirst⟩ := gap_split hRead (List.cons_ne_nil _ _)
    have hRest : read .gap rest = some (t :: ts) := by
      rw [read_append hGap] at hRead
      simpa using hRead
    cases hSigned : t.signed? c with
    | none =>
      rw [firstValue, path, hSigned] at h
      cases h
    | some v =>
      rw [firstValue_signed hSigned] at h
      have hValue : v = x := by
        split at h
        · exact Option.some.inj h
        · cases h
      subst hValue
      cases rest with
      | nil => cases hOpens
      | cons d more =>
        -- the token behind a symbol has a sign only if it is a number
        have hOther : ∀ {t' : Token} {tail : Text}, t'.signed? c = none →
            read .gap (d :: more) ≠ (read .gap tail).map (t' :: ·) := by
          intro t' tail hNone hEq
          obtain ⟨_, _, hTokens⟩ := Option.map_eq_some_iff.mp (hEq.symm.trans hRest)
          cases hTokens
          cases hNone.symm.trans hSigned
        obtain hNumber | ⟨hJunk, hDigit⟩ | ⟨_, _, hQuotation⟩ | hSymbol := opening hOpens hRest
        · obtain ⟨k, s, ts', hTokens, hs⟩ := number_first hNumber hRest
          cases hTokens
          obtain ⟨hSign, hx⟩ := signed_value hs hSigned
          obtain rfl | hNot := hFirst
          · exact ⟨hSign, hx, .inl hNumber⟩
          · exact ⟨hSign, hx, .inr ⟨hSome, hNot⟩⟩
        · exact absurd (read_leading hJunk hDigit) (hOther rfl)
        · obtain ⟨t', _, hNone, hEq⟩ := read_quotation hQuotation
          exact absurd hEq (hOther (hNone c))
        · exact absurd hSymbol (hOther rfl)

/-- An element that is no quotation begins like no blank and no comment. -/
theorem opens_value (hOpens : opens cs = true) (h : (read .gap cs).bind firstValue = some x) :
    (∃ v rest, Quotation cs v rest) ∨ opens x = true := by
  obtain ⟨ts, hRead, hValue⟩ := Option.bind_eq_some_iff.mp h
  cases cs with
  | nil => cases hOpens
  | cons c cs =>
    obtain hNumber | ⟨hJunk, hDigit⟩ | hQuotation | hSymbol := opening hOpens hRead
    · obtain ⟨⟨k, s, rest⟩, hNumber⟩ := Option.isSome_iff_exists.mp hNumber
      obtain ⟨⟨_, hNumeral⟩, _⟩ := (firstValue_number unsigned hNumber).mp h
      obtain ⟨before, n, hBefore, rfl, hn⟩ :=
        numeric_value unsigned (isNumeric_append (numberAt_numeric hNumber)) hNumeral
      rw [List.prefix_nil.mp hBefore]
      exact .inr (opens_of_numeric hn).1
    · obtain ⟨_, rfl, _⟩ := (firstValue_word (read_leading hJunk hDigit)).mp h
      have hWord : isWord c = true := (Bool.and_eq_true _ _ ▸ hJunk).1
      have hSize := c.toLower.utf8Size_le_four
      rw [List.takeWhile_cons_of_pos hWord, fold, List.map_cons, clip,
        if_pos (by rw [nameLimit]; omega)]
      exact .inr (opens_of_word hWord)
    · exact .inl hQuotation
    · obtain ⟨ts', hRest, rfl⟩ := Option.map_eq_some_iff.mp (hSymbol.symm.trans hRead)
      obtain ⟨_, hNumeric | ⟨_, n, rfl, hn⟩, _⟩ := signed_first hRest hValue
      · exact .inr (opens_of_numeric hNumeric).1
      · exact .inr (opens_of_numeric hn).2

end

end Sql
