import Manejaplus.Products.ProductService
import Manejaplus.Sql.Quotations
import Manejaplus.Tenancy.SqlTexts
import Manejaplus.Tenancy.TenantInterceptor

/-! # The schema that is created, and the one that is selected

The name of a tenant is quoted in `CREATE SCHEMA`, and stands bare in the
`SET search_path` of the products and of the interceptor.
-/
namespace Manejaplus
open Sql
set_option autoImplicit false

/-- The canonical text of a UUID. -/
def isUuid (UUID : String) : Bool :=
  UUID.toList.length == 36 && UUID.toList.zipIdx.all fun (c, i) =>
    if i ∈ [8, 13, 18, 23] then c == '-' else c.isDigit || ('a' ≤ c && c ≤ 'f')

namespace SchemaNames

def created (tenant : String) : Option Text := createdSchema (TenantService.createSchema tenant)

/-- Both the products and the interceptor lead to the schema. -/
def Selects (tenant : String) (schema : Text) : Prop :=
  selectedSchema (ProductService.setSearchPath tenant) = some schema ∧
    selectedSchema (TenantInterceptor.setSearchPath tenant) = some schema

/-- So long an unquoted name, or number, that the UUID is cut off, with no capital in what is left,
and nothing behind it but blanks, comments and further elements of the list. -/
structure PlainName (tenant : Text) : Prop where
  long : nameLimit ≤ bytes (leadingName tenant)
  lower : fold (clip nameLimit (leadingName tenant)) = clip nameLimit (leadingName tenant)
  ends : Continues (afterName tenant)

/-- Behind blanks and comments stands a quotation, and as far as the limit goes the text in it is
the one that the name makes between double quotes. -/
def HiddenName (tenant : Text) : Prop :=
  ∃ gap quotation v rest w behind, tenant = gap ++ quotation ∧ IsGap gap ∧
    Quotation quotation v rest ∧ Continues rest ∧
      Encloses .identifier (tenant ++ ['"']) w behind ∧ clip nameLimit v = clip nameLimit w

variable {tenant : String} {name UUID : String} {x v w lead rest behind : Text} {c : Char}
  {cs : Text}

theorem run_setSearchPath : run .gap "SET search_path TO ".toList =
    some (keywords ["set", "search_path", "to"], .gap) := by
  decide

theorem created_eq (tenant : String) : created tenant =
    (read (.quoted .identifier []) (tenant.toList ++ ['"'])).bind (named [] []) :=
  SqlTexts.createdSchema_eq tenant

theorem selects_iff : Selects tenant x ↔ (read .gap tenant.toList).bind firstValue = some x := by
  have hText : ("SET search_path TO " ++ tenant).toList =
      "SET search_path TO ".toList ++ tenant.toList := String.toList_append
  have hSelected : selectedSchema ("SET search_path TO " ++ tenant) =
      (read .gap tenant.toList).bind firstValue := selectedSchema_lex hText run_setSearchPath
  exact ⟨fun h => hSelected.symm.trans h.1, fun h => ⟨hSelected.trans h, hSelected.trans h⟩⟩

theorem count_drop {i : Nat} (h : cs[i]? = some c) :
    (cs.drop (i + 1)).count c < (cs.drop i).count c := by
  obtain ⟨hLt, rfl⟩ := List.getElem?_eq_some_iff.mp h
  rw [List.drop_eq_getElem_cons hLt, List.count_cons_self]
  exact Nat.lt_succ_self _

theorem hyphens (h : isUuid UUID = true) : 3 ≤ UUID.toList.count '-' := by
  rw [isUuid, Bool.and_eq_true, beq_iff_eq, List.all_eq_true] at h
  have hAt : ∀ i ∈ [8, 13, 18], UUID.toList[i]? = some '-' := by
    intro i hi
    have hi' : i = 8 ∨ i = 13 ∨ i = 18 := by simpa using hi
    have hLt : i < UUID.toList.length := by omega
    have hChar := h.2 (UUID.toList[i], i) (by
      rw [List.mem_zipIdx_iff_getElem?]
      exact List.getElem?_eq_getElem hLt)
    rw [List.getElem?_eq_getElem hLt]
    obtain rfl | rfl | rfl := hi' <;> simpa using hChar
  have hLess : ∀ i j, i ≤ j → (UUID.toList.drop j).count '-' ≤ (UUID.toList.drop i).count '-' :=
    fun i j hij => (List.drop_sublist_drop_left _ hij).count_le _
  have h8 := count_drop (hAt 8 (by simp))
  have h13 := count_drop (hAt 13 (by simp))
  have h18 := count_drop (hAt 18 (by simp))
  have hAll : (UUID.toList.drop 8).count '-' ≤ UUID.toList.count '-' := hLess 0 8 (by decide)
  have hFirst := hLess (8 + 1) 13 (by decide)
  have hSecond := hLess (13 + 1) 18 (by decide)
  omega

theorem created_quoted
    (hCreated : (read (.quoted .identifier []) (cs ++ ['"'])).bind (named [] []) = some x) :
    ∃ v rest, Encloses .identifier (cs ++ ['"']) v rest ∧ v ≠ [] ∧ x = clip nameLimit v := by
  obtain ⟨v, rest, _, hText, hHead, hNe, rfl, _⟩ := takes_quoted (takes_named []) hCreated
  exact ⟨v, rest, ⟨hText, hHead⟩, hNe, rfl⟩

/-- The identifier that is created is cut off before the unquoted part ends, or goes on with what
ends that part. -/
theorem created_leading (hLead : '"' ∉ lead) (hRest : rest ≠ []) (hContinues : Continues rest)
    (hCreated : (read (.quoted .identifier []) (lead ++ rest ++ ['"'])).bind (named [] []) = some x) :
    (nameLimit ≤ bytes lead ∧ x = clip nameLimit lead) ∨
      (bytes lead < nameLimit ∧ ∃ d e, x = lead ++ d :: e ∧ d.isDigit = false) := by
  obtain ⟨v, _, _, hText, _, _, rfl, _⟩ := takes_quoted (takes_named []) hCreated
  rw [List.append_assoc] at hText
  obtain ⟨e, rfl, hMore⟩ := double_split hLead hText
  rw [List.nil_append]
  obtain hShort | hLong := Nat.lt_or_ge (bytes lead) nameLimit
  case inr => exact .inl ⟨hLong, clip_full hLong⟩
  refine .inr ⟨hShort, ?_⟩
  obtain ⟨d, more, rfl⟩ := List.exists_cons_of_ne_nil hRest
  have hJunk : isJunk d = false := by
    rw [← Bool.not_eq_true]
    exact fun hJunk => not_continues_junk hJunk hContinues
  have hSize : d.utf8Size = 1 := by
    by_cases hDollar : d = '$'
    · rw [hDollar]
      decide
    · exact utf8Size_of_not_word (by simpa [isJunk, hDollar] using hJunk)
  have hDigit : d.isDigit = false := by
    rw [← Bool.not_eq_true]
    intro hDigit
    obtain ⟨_, _, hDollar, _⟩ := digit_ne hDigit
    simp [isJunk, isWord_of_isDigit hDigit, hDollar] at hJunk
  cases e with
  | nil =>
    cases hMore
    exact absurd hContinues (not_continues_quote .identifier)
  | cons d' e =>
    have hHead := congrArg List.head? hMore
    rw [List.cons_append, double_head] at hHead
    cases hHead
    rw [clip_append (by omega), clip, if_pos (by omega)]
    exact ⟨d, _, rfl, hDigit⟩

/-- What the quotation goes on with is no letter that would be folded, so the two agree only if both
are cut off before they differ. -/
theorem agrees_leading (hLead : '"' ∉ lead) (hRest : rest ≠ [])
    (hCreated : (read (.quoted .identifier []) (lead ++ rest ++ ['"'])).bind (named [] []) = some x) :
    x = clip nameLimit (fold lead) ∧ Continues rest ↔
      nameLimit ≤ bytes lead ∧ fold (clip nameLimit lead) = clip nameLimit lead ∧ Continues rest := by
  rw [clip_fold]
  constructor
  · rintro ⟨hEq, hContinues⟩
    obtain ⟨hLong, hCut⟩ | ⟨_, d, e, hOn, _⟩ := created_leading hLead hRest hContinues hCreated
    · exact ⟨hLong, hEq.symm.trans hCut, hContinues⟩
    · have hLength := congrArg List.length (hEq.symm.trans hOn)
      rw [fold, List.length_map, List.length_append, List.length_cons] at hLength
      have := (clip_isPrefix nameLimit lead).length_le
      omega
  · rintro ⟨hLong, hLower, hContinues⟩
    obtain ⟨_, hCut⟩ | ⟨hShort, _⟩ := created_leading hLead hRest hContinues hCreated
    · exact ⟨hCut.trans hLower.symm, hContinues⟩
    · omega

/-- The value of a number is too short for what is created. -/
theorem disagrees_integer {n : Nat} {before : Text} (hn : n < integerLimit)
    (hBefore : before <+: lead) (hShort : before.length ≤ 1) (hLead : '"' ∉ lead) (hRest : rest ≠ [])
    (hContinues : Continues rest)
    (hCreated : (read (.quoted .identifier []) (lead ++ rest ++ ['"'])).bind (named [] []) = some x) :
    before ++ Nat.toDigits 10 n ≠ x := by
  intro hEq
  have hDigits : ∀ d ∈ Nat.toDigits 10 n, d.isDigit = true := fun d hd =>
    Nat.isDigit_of_mem_toDigits (by decide) (by decide) hd
  obtain ⟨lead, rfl⟩ := hBefore
  obtain ⟨hLong, hCut⟩ | ⟨_, d, e, hOn, hDigit⟩ := created_leading hLead hRest hContinues hCreated
  · have hBytes := bytes_clip_full hLong
    have hLength : (Nat.toDigits 10 n).length ≤ 10 :=
      (Nat.length_toDigits_le_iff (by decide) (by decide)).mpr (Nat.lt_trans hn (by decide))
    have hFew : bytes (before ++ Nat.toDigits 10 n) ≤ 14 := by
      cases before with
      | nil =>
        rw [List.nil_append, bytes_digits hDigits]
        omega
      | cons c more =>
        rw [List.length_cons, Nat.succ_le_succ_iff, Nat.le_zero, List.length_eq_zero_iff] at hShort
        have hSize := c.utf8Size_le_four
        rw [hShort, List.cons_append, List.nil_append, bytes_cons, bytes_digits hDigits]
        omega
    rw [← hCut, ← hEq, nameLimit] at hBytes
    omega
  · have hTail := List.append_cancel_left ((hEq.trans hOn).trans (List.append_assoc _ _ _))
    have hMem : d ∈ Nat.toDigits 10 n := by
      rw [hTail]
      simp
    rw [hDigits d hMem] at hDigit
    cases hDigit

theorem not_plainName (h : leadingName cs = []) : ¬ PlainName cs := by
  intro hPlain
  have hLong := hPlain.long
  rw [h] at hLong
  exact absurd hLong (by decide)

theorem plainName_iff (hName : leadingName cs = lead) (hText : cs = lead ++ rest) :
    PlainName cs ↔ nameLimit ≤ bytes lead ∧ fold (clip nameLimit lead) = clip nameLimit lead ∧
      Continues rest := by
  subst hName
  have hAfter := afterName_eq hText
  exact ⟨fun h => ⟨h.long, h.lower, hAfter ▸ h.ends⟩, fun h => ⟨h.1, h.2.1, hAfter.symm ▸ h.2.2⟩⟩

theorem rest_ne_nil (hLead : lead.count '-' ≤ 2) (hHyphens : 3 ≤ (lead ++ rest).count '-') :
    rest ≠ [] := by
  rintro rfl
  rw [List.append_nil] at hHyphens
  omega

theorem agrees_word (hc : isJunk c = true) (hDigit : c.isDigit = false)
    (hHyphens : 3 ≤ (c :: cs).count '-')
    (hCreated : (read (.quoted .identifier []) (c :: cs ++ ['"'])).bind (named [] []) = some x) :
    (read .gap (c :: cs)).bind firstValue = some x ↔ PlainName (c :: cs) := by
  have hSplit := (List.takeWhile_append_dropWhile (p := isWord) (l := c :: cs)).symm
  have hWord : ∀ d, isWord d = false → d ∉ (c :: cs).takeWhile isWord := by
    intro d hd hMem
    rw [List.all_eq_true.mp (List.all_takeWhile (p := isWord) (l := c :: cs)) d hMem] at hd
    cases hd
  have hNone : ((c :: cs).takeWhile isWord).count '-' = 0 :=
    List.count_eq_zero_of_not_mem (hWord '-' (by decide))
  rw [plainName_iff (leadingName_word hc hDigit) hSplit, firstValue_word (read_leading hc hDigit)]
  rw [hSplit] at hHyphens hCreated
  have hAgrees := agrees_leading (hWord '"' (by decide)) (rest_ne_nil (by omega) hHyphens) hCreated
  rw [← hAgrees]
  -- what is long enough to be cut off is no key word
  refine and_iff_right_of_imp fun hEqual hReserved => ?_
  obtain ⟨hLong, hLower, _⟩ := hAgrees.mp hEqual
  have hBytes := bytes_clip_full hLong
  have hShort := bytes_reserved _ hReserved
  rw [clip_fold, hLower, nameLimit] at hShort
  rw [nameLimit] at hBytes
  omega

theorem agrees_number {sign : Text} {value : Token → Option Text} (hSign : Sign sign value)
    (hNumber : (numberAt cs).isSome = true) (hHyphens : 3 ≤ (sign ++ cs).count '-')
    (hCreated : (read (.quoted .identifier []) (sign ++ cs ++ ['"'])).bind (named [] []) = some x) :
    (read .gap (sign ++ cs)).bind firstValue = some x ↔ PlainName (sign ++ cs) := by
  obtain ⟨⟨k, s, rest⟩, h⟩ := Option.isSome_iff_exists.mp hNumber
  obtain ⟨hText, _, hQuote, hMinus⟩ := numberAt_spec h
  have hSignText : '"' ∉ sign ∧ sign.count '-' ≤ 1 ∧ sign.length ≤ 1 := by
    obtain rfl | rfl := hSign.text <;> decide
  have hSplit : sign ++ cs = (sign ++ (s ++ (k.munch rest).2.1)) ++ (k.munch rest).2.2 := by
    rw [List.append_assoc, List.append_assoc, k.munch_append, hText]
  have hLead : '"' ∉ sign ++ (s ++ (k.munch rest).2.1) := by
    simp only [List.mem_append, not_or]
    exact ⟨hSignText.1, hQuote, k.munch_quote rest⟩
  have hCount : (sign ++ (s ++ (k.munch rest).2.1)).count '-' ≤ 2 := by
    have hExponent := k.count_munch rest
    rw [List.count_append, List.count_append, List.count_eq_zero_of_not_mem hMinus, Nat.zero_add]
    split at hExponent <;> omega
  have hRest : (k.munch rest).2.2 ≠ [] := rest_ne_nil hCount (hSplit ▸ hHyphens)
  have hCreated' := hSplit ▸ hCreated
  have hName := hSign.name hNumber
  have hLeading : leadingNumber cs = numberText k s rest := by
    rw [leadingNumber, h]
    rfl
  rw [firstValue_number hSign h]
  by_cases hWritten : (k.munch rest).1.complete = true ∧
      (k.munch rest).1.token (s ++ (k.munch rest).2.1) = .number (s ++ (k.munch rest).2.1)
  · have hSome : s ++ (k.munch rest).2.1 ≠ [] := by
      intro hNil
      have hNumeric : isNumeric (s ++ (k.munch rest).2.1) = true :=
        isNumeric_append (numberAt_numeric h)
      rw [hNil] at hNumeric
      cases hNumeric
    rw [hLeading, numberText, if_pos hWritten, if_neg hSome] at hName
    rw [plainName_iff hName hSplit, ← agrees_leading hLead hRest hCreated', hWritten.2,
      and_iff_right hWritten.1, hSign.number, Option.some.injEq, eq_comm]
  · rw [hLeading, numberText, if_neg hWritten, if_pos rfl] at hName
    refine iff_of_false ?_ (not_plainName hName)
    rintro ⟨⟨hComplete, hValue⟩, hContinues⟩
    obtain hToken | ⟨n, hn, hToken⟩ := Numeral.token_eq (k.munch rest).1 (s ++ (k.munch rest).2.1)
    · exact hWritten ⟨hComplete, hToken⟩
    · obtain ⟨before, hBefore, hInteger⟩ := hSign.integer n
      rw [hToken, hInteger] at hValue
      exact disagrees_integer hn (hBefore.trans (List.prefix_append _ _))
        (Nat.le_trans hBefore.length_le hSignText.2.2) hLead hRest hContinues hCreated'
        (Option.some.inj hValue)

/-- Bare, the first quote of a name opens a quotation; quoted, it is half of a pair. So the two
readings never have the same number of quotes at their beginning. -/
theorem quotes_apart {k : Nat} (hk : k < 100) (hc : c ≠ '"')
    (hBare : Encloses .identifier (List.replicate k '"' ++ c :: cs) v rest)
    (hWhole : Encloses .identifier (List.replicate (k + 1) '"' ++ (c :: cs ++ ['"'])) w behind) :
    clip nameLimit v ≠ clip nameLimit w := by
  have hShorter : ∀ j : Nat, (clip nameLimit (List.replicate j '"')).length ≤ j := fun j => by
    simpa using (clip_isPrefix nameLimit (List.replicate j '"')).length_le
  -- the identifier that runs on has the character after the quotes in it
  have hLonger : ∀ (j : Nat) (more : Text), j ≤ 50 →
      j < (clip nameLimit (List.replicate j '"' ++ c :: more)).length := by
    intro j more hj
    have hBytes : bytes (List.replicate j '"') = j := bytes_replicate (by decide) j
    have hSize := c.utf8Size_le_four
    rw [clip_append (by rw [hBytes, nameLimit]; omega), hBytes, clip,
      if_pos (by rw [nameLimit]; omega)]
    simp
  intro hEq
  obtain ⟨j, u, hj, rfl⟩ | ⟨j, hj, rfl⟩ := double_leading hc hBare <;>
    obtain ⟨i, u', hi, rfl⟩ | ⟨i, hi, rfl⟩ := double_leading hc hWhole
  · omega
  · have hLength : (clip nameLimit (List.replicate j '"' ++ c :: u)).length =
        (clip nameLimit (List.replicate i '"')).length := congrArg List.length hEq
    have := hLonger j u (by omega)
    have := hShorter i
    omega
  · have hLength : (clip nameLimit (List.replicate j '"')).length =
        (clip nameLimit (List.replicate i '"' ++ c :: u')).length := congrArg List.length hEq
    have := hLonger i u' (by omega)
    have := hShorter j
    omega
  · omega

/-- A string has half as many quotes at its beginning as are written there. -/
theorem literal_apart {k : Nat} (hk : k < 100) (hc : c ≠ '\'')
    (hBare : Encloses .literal (List.replicate k '\'' ++ c :: cs) v rest)
    (hWhole : Encloses .identifier (List.replicate (k + 1) '\'' ++ (c :: cs ++ ['"'])) w behind) :
    clip nameLimit v ≠ clip nameLimit w := by
  have hNone : '"' ∉ List.replicate (k + 1) '\'' := fun hMem =>
    absurd (List.eq_of_mem_replicate hMem) (by decide)
  obtain ⟨e, rfl, _⟩ := double_split hNone hWhole.1
  obtain ⟨j, u, hj, rfl, hHead⟩ : ∃ j u, 2 * j ≤ k ∧ v = List.replicate j '\'' ++ u ∧
      u.head? ≠ some '\'' := by
    obtain ⟨j, u, hj, rfl⟩ | ⟨j, hj, rfl⟩ := double_leading hc hBare
    · exact ⟨j, c :: u, by omega, rfl, fun h => hc (Option.some.inj h)⟩
    · exact ⟨j, [], by omega, (List.append_nil _).symm, nofun⟩
  have hBytes : bytes (List.replicate j '\'') = j := bytes_replicate (by decide) j
  rw [show k + 1 = j + (k - j + 1) by omega, List.replicate_add, List.append_assoc,
    clip_append (by rw [hBytes, nameLimit]; omega), clip_append (by rw [hBytes, nameLimit]; omega),
    ne_eq, List.append_cancel_left_eq, hBytes, List.replicate_succ, List.cons_append, clip, if_pos]
  · intro hEq
    obtain ⟨more, hFirst⟩ := clip_isPrefix (nameLimit - j) u
    rw [hEq] at hFirst
    exact hHead (by rw [← hFirst]; rfl)
  · rw [nameLimit]
    have : ('\'' : Char).utf8Size = 1 := by decide
    omega

/-- A text between dollars has no two of them in it. -/
theorem dollars_apart (hv : ¬ dollars <:+: v ++ ['$'])
    (hWhole : Encloses .identifier ('$' :: '$' :: cs) w behind) :
    clip nameLimit v ≠ clip nameLimit w := by
  obtain ⟨e, rfl, _⟩ := double_split (show '"' ∉ dollars by decide) hWhole.1
  rw [clip_append (by decide)]
  intro hEq
  have hIn : dollars <:+: clip nameLimit v := hEq ▸ (List.prefix_append _ _).isInfix
  exact hv ((hIn.trans (clip_isPrefix nameLimit v).isInfix).trans (List.prefix_append _ _).isInfix)

/-- The quotes that a tenant's name begins with are all of the organization's name. -/
theorem leading_quotes {q : Char} (hq : q ≠ '_' ∧ q ≠ '\uFE0E' ∧ q ≠ '\uFE0F')
    (hName : CreateOrganizationDto.admitsName name = true) (UUID : String) :
    ∃ k c cs, k ≤ 100 ∧ c ≠ q ∧
      name.toList ++ '_' :: UUID.toList = List.replicate k q ++ c :: cs := by
  simp only [CreateOrganizationDto.admitsName, Bool.and_eq_true, decide_eq_true_eq] at hName
  have hLength := hName.2
  generalize name.toList = cs at hLength
  have hSplit : ∀ cs : Text, ∃ k c more, k ≤ (cs.filter fun c => c != '\uFE0E' && c != '\uFE0F').length ∧
      c ≠ q ∧ cs ++ '_' :: UUID.toList = List.replicate k q ++ c :: more := by
    intro cs
    induction cs with
    | nil => exact ⟨0, '_', UUID.toList, Nat.le_refl _, hq.1.symm, rfl⟩
    | cons c cs ih =>
      by_cases hc : c = q
      · obtain ⟨k, d, more, hk, hd, hText⟩ := ih
        refine ⟨k + 1, d, more, ?_, hd, ?_⟩
        · rw [hc, List.filter_cons_of_pos (by simp [hq.2])]
          exact Nat.succ_le_succ hk
        · rw [hc, List.cons_append, hText]
          rfl
      · exact ⟨0, c, cs ++ '_' :: UUID.toList, Nat.zero_le _, hc, rfl⟩
  obtain ⟨k, c, more, hk, hc, hText⟩ := hSplit cs
  exact ⟨k, c, more, Nat.le_trans hk hLength, hc, hText⟩

/-- A name that begins with a quotation of its own. -/
theorem quotation_apart (hName : CreateOrganizationDto.admitsName name = true)
    (hQuotation : Quotation (name.toList ++ '_' :: UUID.toList) v rest)
    (hWhole : Encloses .identifier (name.toList ++ '_' :: UUID.toList ++ ['"']) w behind) :
    clip nameLimit v ≠ clip nameLimit w := by
  obtain ⟨q, more, hText, hBare, _⟩ | ⟨hText, hBody⟩ := hQuotation
  · obtain ⟨k, d, cs, hk, hd, hQuotes⟩ :=
      leading_quotes (by cases q <;> decide : q.char ≠ '_' ∧ _) hName UUID
    cases k with
    | zero => exact absurd (List.cons.inj (hQuotes.symm.trans hText)).1 hd
    | succ k =>
      obtain ⟨_, rfl⟩ := List.cons.inj (hText.symm.trans hQuotes)
      rw [hQuotes, List.append_assoc] at hWhole
      cases q with
      | identifier => exact quotes_apart hk hd hBare hWhole
      | literal => exact literal_apart hk hd hBare hWhole
  · rw [hText] at hWhole
    exact dollars_apart hBody hWhole

/-- A name that is plain begins with a word, or with a number behind its sign. -/
theorem agrees_plain (hPlain : PlainName cs) (hHyphens : 3 ≤ cs.count '-')
    (hCreated : (read (.quoted .identifier []) (cs ++ ['"'])).bind (named [] []) = some x) :
    (read .gap cs).bind firstValue = some x := by
  cases cs with
  | nil => exact absurd hHyphens (by decide)
  | cons c cs =>
    by_cases hMinus : c = '-'
    · subst hMinus
      have hNumber : (numberAt cs).isSome = true := by
        by_contra hNone
        refine not_plainName ?_ hPlain
        simp [leadingName, leadingNumber, Option.not_isSome_iff_eq_none.mp hNone]
      exact (agrees_number minus hNumber hHyphens hCreated).mpr hPlain
    by_cases hNumber : (numberAt (c :: cs)).isSome = true
    · exact (agrees_number unsigned hNumber hHyphens hCreated).mpr hPlain
    by_cases hJunk : isJunk c = true
    · have hDigit := not_digit_of_numberAt (Option.not_isSome_iff_eq_none.mp hNumber)
      exact (agrees_word hJunk hDigit hHyphens hCreated).mpr hPlain
    · exact absurd hPlain (not_plainName (by simp [leadingName, hMinus, hNumber, hJunk]))

theorem agrees_hidden (hHidden : HiddenName cs)
    (hCreated : (read (.quoted .identifier []) (cs ++ ['"'])).bind (named [] []) = some x) :
    (read .gap cs).bind firstValue = some x := by
  obtain ⟨gap, quotation, v, rest, w, _, rfl, hGap, hQuotation, hContinues, hWhole, hEq⟩ := hHidden
  have hx : x = clip nameLimit v :=
    (takes_encloses (takes_named []) hWhole hCreated).trans hEq.symm
  have hBehind := (firstValue_quotation hQuotation).mpr ⟨hx, hContinues⟩
  rw [read_append hGap]
  simpa using hBehind

/-- What is created begins with the sign that the text begins with, and goes on as the text does. -/
theorem created_sign (hc : c ≠ '"')
    (hWhole : Encloses .identifier (c :: cs ++ ['"']) w behind)
    (hx : isNumeric (clip nameLimit w) = true ∨
      c = '-' ∧ ∃ n, clip nameLimit w = '-' :: n ∧ isNumeric n = true)
    (hSign : c = '-' ∨ c = '+') : c = '-' ∧ (cs = [] ∨ opens cs = true) := by
  obtain ⟨e, rfl, hMore⟩ := double_split
    (show '"' ∉ [c] from fun hMem => hc (List.mem_singleton.mp hMem).symm) hWhole.1
  have hSize : c.utf8Size = 1 := by obtain rfl | rfl := hSign <;> decide
  have hFigure : (c.isDigit || c == '.') = false := by obtain rfl | rfl := hSign <;> decide
  have hClip : clip nameLimit ([c] ++ e) = c :: clip (nameLimit - 1) e := by
    rw [List.cons_append, List.nil_append, clip, hSize]
    rfl
  rw [hClip] at hx
  obtain hNumeric | ⟨rfl, n, hn, hNumeric⟩ := hx
  · have hHead : (c.isDigit || c == '.') = true := hNumeric
    rw [hFigure] at hHead
    cases hHead
  · refine ⟨rfl, ?_⟩
    by_cases hNil : cs = []
    · exact .inl hNil
    · refine .inr ?_
      by_contra hOpens
      have hNot := opens_quoted (n := nameLimit - 1) (by decide) hNil (by simpa using hOpens) hMore
      rw [(List.cons.inj hn).2, (opens_of_numeric hNumeric).1] at hNot
      cases hNot

/-- Nothing else leads to the schema that is created. -/
theorem agrees_only (hName : CreateOrganizationDto.admitsName name = true)
    (hHyphens : 3 ≤ (name.toList ++ '_' :: UUID.toList).count '-')
    (hCreated : (read (.quoted .identifier [])
      (name.toList ++ '_' :: UUID.toList ++ ['"'])).bind (named [] []) = some x)
    (hSelected : (read .gap (name.toList ++ '_' :: UUID.toList)).bind firstValue = some x) :
    PlainName (name.toList ++ '_' :: UUID.toList) ∨
      HiddenName (name.toList ++ '_' :: UUID.toList) := by
  obtain ⟨w, behind, hWhole, hNe, hx⟩ := created_quoted hCreated
  have hApart : ∀ {v rest}, Quotation (name.toList ++ '_' :: UUID.toList) v rest →
      clip nameLimit v ≠ clip nameLimit w := fun h => quotation_apart hName h hWhole
  generalize name.toList ++ '_' :: UUID.toList = tenant at *
  obtain ⟨ts, hRead, hValue⟩ := Option.bind_eq_some_iff.mp hSelected
  cases tenant with
  | nil => cases hHyphens
  | cons c cs =>
    by_cases hOpens : opens (c :: cs) = true
    · refine .inl ?_
      obtain hNumber | ⟨hJunk, hDigit⟩ | ⟨v, rest, hQuotation⟩ | hSymbol := opening hOpens hRead
      · exact (agrees_number unsigned hNumber hHyphens hCreated).mp hSelected
      · exact (agrees_word hJunk hDigit hHyphens hCreated).mp hSelected
      · obtain ⟨hv, _⟩ := (firstValue_quotation hQuotation).mp hSelected
        exact absurd (hv.symm.trans hx) (hApart hQuotation)
      · obtain ⟨ts', hRest, rfl⟩ := Option.map_eq_some_iff.mp (hSymbol.symm.trans hRead)
        obtain ⟨hSign, hFirst, hNumber⟩ := signed_first hRest hValue
        have hc : c ≠ '"' := by obtain rfl | rfl := hSign <;> decide
        obtain ⟨rfl, hBehind⟩ := created_sign hc hWhole (hx ▸ hFirst) hSign
        obtain hNumber | ⟨hSome, hNot⟩ := hNumber
        · exact (agrees_number minus hNumber hHyphens hCreated).mp hSelected
        · obtain hNil | hOpen := hBehind
          · exact absurd hNil hSome
          · rw [hOpen] at hNot
            cases hNot
    · refine .inr ?_
      have hNot : opens (c :: cs) = false := by simpa using hOpens
      have hSome : ts ≠ [] := by rintro rfl; cases hValue
      obtain ⟨gap, quotation, hText, hGap, hOpen, _⟩ := gap_split hRead hSome
      have hSelected' : (read .gap quotation).bind firstValue = some x := by
        rw [hText, read_append hGap] at hSelected
        simpa using hSelected
      obtain ⟨v, rest, hQuotation⟩ | hOpenValue := opens_value hOpen hSelected'
      · obtain ⟨hv, hContinues⟩ := (firstValue_quotation hQuotation).mp hSelected'
        exact ⟨gap, quotation, v, rest, w, behind, hText, hGap, hQuotation, hContinues, hWhole,
          hv.symm.trans hx⟩
      · have hQuoted := opens_quoted (n := nameLimit) (by decide) (List.cons_ne_nil _ _) hNot hWhole.1
        rw [← hx, hOpenValue] at hQuoted
        cases hQuoted

end SchemaNames

open SchemaNames in
/-- The schema that is created for a tenant is the one its name selects only if the UUID is cut off
and commented out, or if the name hides a quotation of itself behind a comment. -/
theorem tenant_schema_selected {name UUID : String} {schema : Text}
    (hName : CreateOrganizationDto.admitsName name = true) (hUuid : isUuid UUID = true)
    (hCreated : created (TenantService.tenantName name UUID) = some schema) :
    Selects (TenantService.tenantName name UUID) schema ↔
      PlainName (TenantService.tenantName name UUID).toList ∨
        HiddenName (TenantService.tenantName name UUID).toList := by
  have hHyphens : 3 ≤ (name.toList ++ '_' :: UUID.toList).count '-' := by
    have := hyphens hUuid
    rw [List.count_append, List.count_cons_of_ne (by decide)]
    omega
  rw [created_eq] at hCreated
  rw [selects_iff]
  rw [SqlTexts.toList_tenantName] at hCreated ⊢
  constructor
  · exact agrees_only hName hHyphens hCreated
  · rintro (hPlain | hHidden)
    · exact agrees_plain hPlain hHyphens hCreated
    · exact agrees_hidden hHidden hCreated

namespace Sample

def uuid : String := "123e4567-e89b-42d3-a456-426614174000"

/-- A name as long as an identifier may be, and a comment. -/
def longName : String := String.ofList (List.replicate nameLimit 'a' ++ ['-', '-'])

/-- The first two characters, in quotes behind a comment that they begin. -/
def hiddenName : String := "--\"/*\n\"--\"--*/--"

end Sample

theorem tenant_schema_selected_sample :
    SchemaNames.Selects (TenantService.tenantName Sample.longName Sample.uuid)
      (List.replicate nameLimit 'a') :=
  (tenant_schema_selected (by decide) (by decide) (by decide +kernel)).mpr
    (.inl ⟨by decide, by decide, by decide⟩)

example : CreateOrganizationDto.admitsName Sample.hiddenName = true ∧
    SchemaNames.created (TenantService.tenantName Sample.hiddenName Sample.uuid) = some ['-', '-'] ∧
    SchemaNames.Selects (TenantService.tenantName Sample.hiddenName Sample.uuid) ['-', '-'] :=
  ⟨by decide, by decide +kernel, by decide +kernel, by decide +kernel⟩

/-- The hyphens of the UUID end the bare name. -/
theorem tenant_schema_not_selected :
    CreateOrganizationDto.admitsName "acme" = true ∧ isUuid Sample.uuid = true ∧
      SchemaNames.created (TenantService.tenantName "acme" Sample.uuid) =
        some (TenantService.tenantName "acme" Sample.uuid).toList ∧
      selectedSchema (ProductService.setSearchPath (TenantService.tenantName "acme" Sample.uuid)) =
        none := by
  refine ⟨by decide, by decide, ?_, ?_⟩ <;> decide +kernel

end Manejaplus
