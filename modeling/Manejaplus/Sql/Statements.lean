import Manejaplus.Sql.Lexer

/-! # Statements about one schema -/
namespace Sql
set_option autoImplicit false

/-- A name, quoted or not. -/
def Token.name? : Token → Option Text
  | .word s => some s
  | .identifier s => some s
  | _ => none

/-- The reserved key words, but for `true`, `false` and `on`, which a list may hold. -/
def reservedWords : List Text :=
  ["all", "analyse", "analyze", "and", "any", "array", "as", "asc", "asymmetric", "both", "case",
    "cast", "check", "collate", "column", "constraint", "create", "current_catalog", "current_date",
    "current_role", "current_time", "current_timestamp", "current_user", "default", "deferrable",
    "desc", "distinct", "do", "else", "end", "except", "fetch", "for", "foreign", "from", "grant",
    "group", "having", "in", "initially", "intersect", "into", "lateral", "leading", "limit",
    "localtime", "localtimestamp", "not", "null", "offset", "only", "or", "order", "placing",
    "primary", "references", "returning", "select", "session_user", "some", "symmetric",
    "system_user", "table", "then", "to", "trailing", "union", "unique", "user", "using",
    "variadic", "when", "where", "window", "with"].map String.toList

/-- What an element of a list of names is taken for: strings and numbers are names as well. -/
def Token.value? : Token → Option Text
  | .word s => if reservedWords.contains s then none else some s
  | .integer n => some (Nat.toDigits 10 n)
  | .number s => some (clip nameLimit (fold s))
  | .identifier s => some s
  | .literal s => some (clip nameLimit s)
  | .body s => some (clip nameLimit s)
  | .symbol _ => none

/-- A number behind a sign. -/
def Token.signed? (c : Char) : Token → Option Text
  | .integer n =>
    if c = '-' ∧ n ≠ 0 then some ('-' :: Nat.toDigits 10 n)
    else if c = '+' ∨ c = '-' then some (Nat.toDigits 10 n)
    else none
  | .number s =>
    if c = '-' then some (clip nameLimit ('-' :: fold s))
    else if c = '+' then some (clip nameLimit (fold s))
    else none
  | _ => none

def keywords (ks : List String) : List Token := ks.map fun k => .word k.toList

def skip : List String → List Token → Option (List Token)
  | [], ts => some ts
  | k :: ks, .word w :: ts => if w = k.toList then skip ks ts else none
  | _ :: _, _ => none

/-- The end of a statement, be it marked or not. -/
def ended : List Token → Bool
  | [] => true
  | [.symbol ';'] => true
  | _ => false

/-- The name of a statement that consists of keywords, one name, and keywords. -/
def named (before after : List String) (ts : List Token) : Option Text :=
  match skip before ts with
  | some (t :: rest) => if (skip after rest).any ended then t.name? else none
  | _ => none

/-- A list up to the end of a statement, where the next element must come, or has just been. -/
def path : Bool → List Token → Option (List Text)
  | true, .symbol c :: t :: ts => (t.signed? c).bind fun v => (path false ts).map (v :: ·)
  | true, t :: ts => t.value?.bind fun v => (path false ts).map (v :: ·)
  | true, [] => none
  | false, .symbol c :: ts =>
    if c = ',' then path true ts
    else if c = ';' ∧ ∀ t ∈ ts, t = .symbol ';' then some []
    else none
  | false, [] => some []
  | false, _ :: _ => none

def createdSchema (sql : String) : Option Text :=
  (lex sql).bind (named ["create", "schema", "if", "not", "exists"] [])

/-- The list that a statement sets as the search path. -/
def selectedPath (sql : String) : Option (List Text) :=
  (lex sql).bind fun ts => (skip ["set", "search_path", "to"] ts).bind (path true)

/-- The schema that the search path leads to first. -/
def selectedSchema (sql : String) : Option Text := (selectedPath sql).bind List.head?

def droppedSchema (sql : String) : Option Text :=
  (lex sql).bind (named ["drop", "schema", "if", "exists"] ["cascade"])

def firstValue (ts : List Token) : Option Text := (path true ts).bind List.head?

section
variable {m : Mode} {cs rest : Text} {ts : List Token} {before after : List String}
  {f : List Token → Option Text} {isEnd : List Token → Bool}

theorem skip_keywords (ks : List String) (ts : List Token) : skip ks (keywords ks ++ ts) = some ts := by
  induction ks with
  | nil => rfl
  | cons k ks ih => exact (if_pos rfl).trans ih

/-- Behind its first keywords a statement is read from where they have led to. -/
theorem named_lex {sql : String} (hText : sql.toList = cs ++ rest)
    (h : run .gap cs = some (keywords before, m)) :
    (lex sql).bind (named before after) = (read m rest).bind (named [] after) := by
  rw [lex, hText, read_append h]
  cases read m rest with
  | none => rfl
  | some ts => simp [named, skip_keywords, skip]

theorem path_lex {sql : String} (hText : sql.toList = cs ++ rest)
    (h : run .gap cs = some (keywords ["set", "search_path", "to"], m)) :
    selectedPath sql = (read m rest).bind (path true) := by
  rw [selectedPath, lex, hText, read_append h]
  cases read m rest with
  | none => rfl
  | some ts => simp only [Option.map_some, Option.bind_some, skip_keywords]

theorem selectedSchema_lex {sql : String} (hText : sql.toList = cs ++ rest)
    (h : run .gap cs = some (keywords ["set", "search_path", "to"], m)) :
    selectedSchema sql = (read m rest).bind firstValue := by
  rw [selectedSchema, path_lex hText h, Option.bind_assoc]
  rfl

/-- A statement that begins with another keyword. -/
theorem named_lex_other {sql k : String} {w : Text} (hText : sql.toList = cs ++ rest)
    (h : run .gap cs = some (.word w :: ts, m)) (hOther : w ≠ k.toList) :
    (lex sql).bind (named (k :: before) after) = none := by
  rw [lex, hText, read_append h]
  cases read m rest with
  | none => rfl
  | some ts => simp [named, skip, hOther]

theorem selectedPath_other {sql : String} {w : Text} (hText : sql.toList = cs ++ rest)
    (h : run .gap cs = some (.word w :: ts, m)) (hOther : w ≠ "set".toList) :
    selectedPath sql = none := by
  rw [selectedPath, lex, hText, read_append h]
  cases read m rest with
  | none => rfl
  | some ts => exact congrArg (Option.bind · (path true)) (if_neg hOther)

theorem ended_iff : ended ts = true ↔ ts = [] ∨ ts = [.symbol ';'] := by
  unfold ended
  split <;> simp_all

/-- A reader of tokens for which a quoted identifier, where nothing but an end comes after it, is
what it is about. -/
def TakesIdentifier (f : List Token → Option Text) (isEnd : List Token → Bool) : Prop :=
  ∀ x ts, f (.identifier x :: ts) = if isEnd ts then some x else none

theorem takes_named (after : List String) :
    TakesIdentifier (named [] after) fun ts => (skip after ts).any ended := fun _ _ => rfl

theorem firstValue_cons {t : Token} {v : Text} (hValue : t.value? = some v) (ts : List Token) :
    firstValue (t :: ts) = if (path false ts).isSome then some v else none := by
  have hPath : path true (t :: ts) = (path false ts).map (v :: ·) := by
    cases t with
    | symbol c => cases hValue
    | word s => simp only [path, hValue, Option.bind_some]
    | integer | number | identifier | literal | body => cases hValue; rfl
  rw [firstValue, hPath]
  cases path false ts <;> rfl

theorem takes_firstValue : TakesIdentifier firstValue fun ts => (path false ts).isSome :=
  fun _ ts => firstValue_cons rfl ts

/-- A quotation that a statement is about, as a token. -/
theorem takes_token (hf : TakesIdentifier f isEnd) {s x : Text}
    (h : (read (.quoted .identifier s) cs).bind f = some x) :
    ∃ ts, read (.quoted .identifier s) cs = some (.identifier x :: ts) ∧ isEnd ts = true := by
  obtain ⟨ts, hRead, hTaken⟩ := Option.bind_eq_some_iff.mp h
  obtain ⟨v, rest, t, ts, rfl, _, hToken, _, rfl⟩ := read_quoted hRead
  obtain ⟨_, rfl⟩ := token_identifier.mp hToken
  rw [hf] at hTaken
  split at hTaken
  · rename_i hEnd
    cases hTaken
    exact ⟨ts, hRead, hEnd⟩
  · cases hTaken

/-- What a quotation that opens a statement's one name is read as. -/
theorem takes_quoted (hf : TakesIdentifier f isEnd) {s x : Text}
    (h : (read (.quoted .identifier s) cs).bind f = some x) :
    ∃ v rest ts, cs = double '"' v ++ '"' :: rest ∧ rest.head? ≠ some '"' ∧ s ++ v ≠ [] ∧
      x = clip nameLimit (s ++ v) ∧ read .gap rest = some ts ∧ isEnd ts = true := by
  obtain ⟨ts, hRead, hTaken⟩ := Option.bind_eq_some_iff.mp h
  obtain ⟨v, rest, t, ts, rfl, hRest, hToken, hReadRest, rfl⟩ := read_quoted hRead
  obtain ⟨hNe, rfl⟩ := token_identifier.mp hToken
  rw [hf] at hTaken
  split at hTaken
  · rename_i hEnd
    exact ⟨v, rest, ts, rfl, hRest, hNe, (Option.some.inj hTaken).symm, hReadRest, hEnd⟩
  · cases hTaken

theorem takes_encloses (hf : TakesIdentifier f isEnd) {v x : Text} (hText : Encloses .identifier cs v rest)
    (h : (read (.quoted .identifier []) cs).bind f = some x) : x = clip nameLimit v := by
  obtain ⟨_, hRead, _⟩ := takes_token hf h
  rw [read_encloses hText, List.nil_append] at hRead
  obtain ⟨t, hToken, hRead⟩ := Option.bind_eq_some_iff.mp hRead
  obtain ⟨_, _, hTokens⟩ := Option.map_eq_some_iff.mp hRead
  obtain ⟨_, rfl⟩ := token_identifier.mp hToken
  cases hTokens
  rfl

/-- A name that double quotes make one identifier of, which may be cut off. -/
structure Enclosable (n : Text) : Prop where
  nonempty : n ≠ []
  plain : '"' ∉ n

instance (n : Text) : Decidable (Enclosable n) :=
  decidable_of_iff (n ≠ [] ∧ '"' ∉ n) ⟨fun h => ⟨h.1, h.2⟩, fun h => ⟨h.nonempty, h.plain⟩⟩

/-- A name that stands for itself between double quotes. -/
structure Quotable (n : Text) : Prop where
  nonempty : n ≠ []
  plain : '"' ∉ n
  short : bytes n ≤ nameLimit

instance (n : Text) : Decidable (Quotable n) :=
  decidable_of_iff (n ≠ [] ∧ '"' ∉ n ∧ bytes n ≤ nameLimit)
    ⟨fun h => ⟨h.1, h.2.1, h.2.2⟩, fun h => ⟨h.nonempty, h.plain, h.short⟩⟩

theorem Quotable.enclosable {n : Text} (h : Quotable n) : Enclosable n := ⟨h.nonempty, h.plain⟩

theorem Quotable.token {n : Text} (h : Quotable n) :
    Quote.identifier.token n = some (.identifier n) :=
  token_identifier.mpr ⟨h.nonempty, by rw [clip_eq_self.mpr h.short]⟩

/-- A quoted name, the dot behind it, and the quote that opens the next one. -/
theorem run_qualifier {n : Text} (h : Quotable n)
    (hBefore : run .gap cs = some (ts, .quoted .identifier [])) :
    run .gap (cs ++ (n ++ ['"', '.', '"'])) =
      some (ts ++ [.identifier n, .symbol '.'], .quoted .identifier []) := by
  have hClosing : step (.closing .identifier n) '.' = some (emit (.identifier n) '.') := by
    simp [step, Quote.char, h.token]
  have hQuotes : run (.quoted .identifier n) ['"', '.', '"'] =
      some ([.identifier n, .symbol '.'], .quoted .identifier []) := by
    refine run_cons.mpr ⟨[], .closing .identifier n, _, rfl, ?_, rfl⟩
    exact run_cons.mpr ⟨_, .dot, [.symbol '.'], hClosing, rfl, rfl⟩
  exact run_append hBefore (run_append (@run_quoted .identifier n [] h.plain) hQuotes)

theorem clip_nameLimit_ne_nil {n : Text} (h : n ≠ []) : clip nameLimit n ≠ [] := by
  cases n with
  | nil => exact absurd rfl h
  | cons c n =>
    have := c.utf8Size_le_four
    rw [clip, if_pos (by rw [nameLimit]; omega)]
    exact List.cons_ne_nil _ _

/-- A name without double quotes, put between them, is one token. -/
theorem read_enclosed {n tail : Text} (h : Enclosable n) (hTail : '"' ∉ tail)
    (hRead : read .gap tail = some ts) : read (.quoted .identifier []) (n ++ '"' :: tail) =
      some (.identifier (clip nameLimit n) :: ts) := by
  have hHead : tail.head? ≠ some '"' := fun hHead => hTail (List.mem_of_head? hHead)
  have hBetween := @read_between .identifier n tail [] h.plain hHead
  rw [List.nil_append, token_identifier.mpr ⟨h.nonempty, rfl⟩, hRead] at hBetween
  exact hBetween

/-- It is read as far as the limit goes. -/
theorem takes_enclosed (hf : TakesIdentifier f isEnd) {n tail : Text} (h : Enclosable n)
    (hTail : '"' ∉ tail) (hRead : read .gap tail = some ts) (hEnd : isEnd ts = true) :
    (read (.quoted .identifier []) (n ++ '"' :: tail)).bind f = some (clip nameLimit n) := by
  rw [read_enclosed h hTail hRead]
  exact (hf _ ts).trans (if_pos hEnd)

/-- The one name of a statement, if it is quoted, is the text between the quotes exactly if this
stands for itself. -/
theorem takes_quotable (hf : TakesIdentifier f isEnd) {n tail : Text} (hTail : '"' ∉ tail)
    (hRead : read .gap tail = some ts) (hEnd : isEnd ts = true) :
    (read (.quoted .identifier []) (n ++ '"' :: tail)).bind f = some n ↔ Quotable n := by
  constructor
  · intro hTaken
    obtain ⟨v, rest, _, hText, _, hNe, hClip, _, _⟩ := takes_quoted hf hTaken
    rw [List.nil_append] at hNe hClip
    obtain ⟨e, rfl⟩ : n <+: v := by
      rw [hClip]
      exact clip_isPrefix nameLimit v
    refine ⟨?_, not_mem_of_double hText (.inl hTail), ?_⟩
    · rw [hClip]
      exact clip_nameLimit_ne_nil hNe
    · rw [hClip]
      exact bytes_clip_le nameLimit _
  · intro h
    rw [takes_enclosed hf h.enclosable hTail hRead hEnd, clip_eq_self.mpr h.short]

end

end Sql
