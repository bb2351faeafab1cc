import Mathlib.Data.List.DropRight
import Manejaplus.Regex.Assertions
import Manejaplus.Users.CreateUserBody

/-! # The two patterns of a registration

The expressions as `@Matches` has them, what they come to, and the functions
that stand for them in the validation. A character that is two code units for
the engine is one here: each of the two is of no word.
-/
namespace Manejaplus
open Regex
set_option autoImplicit false

namespace RegExp
open Expr

/-- `.` -/
def anyChar (c : Char) : Bool := !isLineTerminator c

def nonWord (c : Char) : Bool := !isWord c

/-- `[.\n]` -/
def dotOrLineFeed (c : Char) : Bool := c == '.' || c == '\n'

def passwordPattern : Expr :=
  .seq (.alt (.ahead (.seq (.star (.one anyChar)) (.one Char.isDigit)))
      (.ahead (.seq (.star (.one anyChar)) (.plus (.one nonWord)))))
    (.seq (.notAhead (.one dotOrLineFeed))
      (.seq (.ahead (.seq (.star (.one anyChar)) (.one Char.isUpper)))
        (.seq (.ahead (.seq (.star (.one anyChar)) (.one Char.isLower)))
          (.seq (.star (.one anyChar)) .last))))

/-- `[-\s\./0-9]` -/
def phoneTail (c : Char) : Bool := c.isDigit || isSpace c || c == '-' || c == '.' || c == '/'

def phonePattern : Expr :=
  .seq .first (.seq (.star (.one (· == '+'))) (.seq (.opt (.one (· == '(')))
    (.seq (.seq (.one Char.isDigit) (.upTo 3 (.one Char.isDigit)))
      (.seq (.opt (.one (· == ')'))) (.seq (.star (.one phoneTail)) .last)))))

section Password
variable {text cs rest : List Char}

theorem reads_notAhead {p : Char → Bool} :
    (notAhead (.one p)).Reads text cs rest ↔ (∀ c, cs.head? = some c → p c = false) ∧ rest = cs := by
  refine and_congr_left fun _ => ⟨?_, ?_⟩
  · intro h c hc
    obtain ⟨cs', rfl⟩ := List.head?_eq_some_iff.mp hc
    exact Bool.eq_false_iff.mpr fun hp => h ⟨cs', c, hp, rfl⟩
  · rintro h ⟨cs', c, hp, rfl⟩
    cases hp.symm.trans (h c rfl)

/-- `.*$` -/
theorem reads_toEnd : (seq (star (.one anyChar)) last).Reads text cs rest ↔
    (∀ c ∈ cs, anyChar c = true) ∧ rest = [] := by
  constructor
  · rintro ⟨mid, hStar, rfl, rfl⟩
    obtain ⟨xs, hxs, rfl⟩ := reads_star.mp hStar
    rw [List.append_nil]
    exact ⟨hxs, rfl⟩
  · rintro ⟨hAny, rfl⟩
    exact ⟨[], reads_star.mpr ⟨cs, hAny, (List.append_nil cs).symm⟩, rfl, rfl⟩

theorem reads_class (hAny : ∀ c ∈ cs, anyChar c = true) :
    (alt (.ahead (.seq (.star (.one anyChar)) (.one Char.isDigit)))
      (.ahead (.seq (.star (.one anyChar)) (.plus (.one nonWord))))).Reads text cs rest ↔
      cs.any (fun c => c.isDigit || !isWord c) = true ∧ rest = cs := by
  change _ ∨ _ ↔ _
  rw [ahead_plus, ahead_star_iff hAny, ahead_star_iff hAny, ← or_and_right]
  simp [List.any_eq_true, nonWord, and_or_left, exists_or]

theorem password_iff : password cs = true ↔ (∀ c ∈ cs, anyChar c = true) ∧
    cs.any (fun c => c.isDigit || !isWord c) = true ∧ cs.head? ≠ some '.' ∧
      cs.any Char.isUpper = true ∧ cs.any Char.isLower = true := by
  simp only [password, Bool.and_eq_true, bne_iff_ne, List.all_eq_true]
  constructor
  · rintro ⟨⟨⟨⟨hClass, hDot⟩, hUpper⟩, hLower⟩, hAny⟩
    exact ⟨hAny, hClass, hDot, hUpper, hLower⟩
  · rintro ⟨hAny, hClass, hDot, hUpper, hLower⟩
    exact ⟨⟨⟨⟨hClass, hDot⟩, hUpper⟩, hLower⟩, hAny⟩

/-- At one position the pattern reads to the end of the text, or nothing. -/
theorem reads_password :
    passwordPattern.Reads text cs rest ↔ password cs = true ∧ rest = [] := by
  rw [password_iff]
  constructor
  · rintro ⟨m₁, hClass, m₂, hNot, m₃, hUpper, m₄, hLower, hEnd⟩
    obtain rfl : m₁ = cs := hClass.elim And.right And.right
    obtain rfl : m₂ = m₁ := hNot.2
    obtain rfl : m₃ = m₂ := hUpper.2
    obtain rfl : m₄ = m₃ := hLower.2
    obtain ⟨hAny, rfl⟩ := reads_toEnd.mp hEnd
    refine ⟨⟨hAny, ((reads_class hAny).mp hClass).1, fun hDot => ?_,
      ((ahead_star_iff hAny).mp hUpper).1, ((ahead_star_iff hAny).mp hLower).1⟩, rfl⟩
    cases (reads_notAhead.mp hNot).1 _ hDot
  · rintro ⟨⟨hAny, hClass, hDot, hUpper, hLower⟩, rfl⟩
    refine ⟨cs, (reads_class hAny).mpr ⟨hClass, rfl⟩, cs, reads_notAhead.mpr ⟨fun c hc => ?_, rfl⟩,
      cs, (ahead_star_iff hAny).mpr ⟨hUpper, rfl⟩, cs, (ahead_star_iff hAny).mpr ⟨hLower, rfl⟩,
      reads_toEnd.mpr ⟨hAny, rfl⟩⟩
    have hTerminator := hAny c (List.mem_of_head? hc)
    simp only [dotOrLineFeed, Bool.or_eq_false_iff, beq_eq_false_iff_ne]
    constructor
    · rintro rfl
      exact hDot hc
    · rintro rfl
      cases hTerminator

theorem test_iff {matchesAt : List Char → Bool} :
    test matchesAt text = true ↔ ∃ cs, cs <:+ text ∧ matchesAt cs = true := by
  induction text with
  | nil =>
    constructor
    · exact fun h => ⟨[], List.suffix_rfl, h⟩
    · rintro ⟨cs, hSuffix, h⟩
      rwa [List.suffix_nil.mp hSuffix] at h
  | cons c text ih =>
    rw [test, Bool.or_eq_true, ih]
    constructor
    · rintro (h | ⟨cs, hSuffix, h⟩)
      · exact ⟨_, List.suffix_rfl, h⟩
      · exact ⟨cs, hSuffix.trans (List.suffix_cons c text), h⟩
    · rintro ⟨cs, hSuffix, h⟩
      obtain rfl | hSuffix := List.suffix_cons_iff.mp hSuffix
      · exact .inl h
      · exact .inr ⟨cs, hSuffix, h⟩

theorem any_of_suffix {p : Char → Bool} (hSuffix : cs <:+ text) (h : cs.any p = true) :
    text.any p = true := by
  obtain ⟨c, hMem, hc⟩ := List.any_eq_true.mp h
  exact List.any_eq_true.mpr ⟨c, hSuffix.subset hMem, hc⟩

/-- What follows the last line terminator. -/
def lastLine (text : List Char) : List Char := text.rtakeWhile anyChar

theorem suffix_rtakeWhile {p : Char → Bool} (hSuffix : cs <:+ text)
    (hRun : ∀ c ∈ cs, p c = true) : cs <:+ text.rtakeWhile p := by
  rw [← List.reverse_prefix, List.rtakeWhile, List.reverse_reverse]
  obtain ⟨before, rfl⟩ := hSuffix
  rw [List.reverse_append,
    List.takeWhile_append_of_pos fun c hc => hRun c (List.mem_reverse.mp hc)]
  exact List.prefix_append _ _

theorem suffix_dropWhile {p : Char → Bool} (hSuffix : cs <:+ text)
    (hHead : ∀ c, cs.head? = some c → p c = false) : cs <:+ text.dropWhile p := by
  induction text with
  | nil => exact hSuffix
  | cons c text ih =>
    obtain rfl | hSuffix := List.suffix_cons_iff.mp hSuffix
    · rw [List.dropWhile_cons_of_neg (by simp [hHead c rfl])]
    · cases hc : p c with
      | true => rw [List.dropWhile_cons_of_pos hc]; exact ih hSuffix
      | false =>
        rw [List.dropWhile_cons_of_neg (by simp [hc])]
        exact hSuffix.trans (List.suffix_cons c text)

theorem head_dropWhile {p : Char → Bool} {c : Char} (h : (text.dropWhile p).head? = some c) :
    p c = false := by
  have hNot := List.head?_dropWhile_not p text
  rw [h] at hNot
  exact hNot

end Password

section Phone
variable {text cs rest : List Char}

/-- How a number may be written: plus signs, an opening bracket, one to four digits, a closing
bracket, and whatever the tail allows. -/
structure Written (text : List Char) where
  plusses : List Char
  opened : Bool
  digits : List Char
  closed : Bool
  tail : List Char
  split : text = plusses ++ ((if opened then ['('] else []) ++ (digits ++
    ((if closed then [')'] else []) ++ tail)))
  plus : ∀ c ∈ plusses, c = '+'
  digit : ∀ c ∈ digits, c.isDigit = true
  present : digits ≠ []
  few : digits.length ≤ 4
  allowed : ∀ c ∈ tail, phoneTail c = true

theorem reads_optional {d : Char} : (opt (one (· == d))).Reads text cs rest ↔
    ∃ there : Bool, cs = (if there then [d] else []) ++ rest := by
  constructor
  · rintro (⟨c, hc, rfl⟩ | rfl)
    · exact ⟨true, by rw [beq_iff_eq.mp hc]; rfl⟩
    · exact ⟨false, rfl⟩
  · rintro ⟨_ | _, rfl⟩
    · exact .inr rfl
    · exact .inl ⟨d, beq_self_eq_true d, rfl⟩

theorem reads_phone :
    phonePattern.Reads text cs rest ↔ cs = text ∧ rest = [] ∧ Nonempty (Written text) := by
  constructor
  · rintro ⟨_, ⟨rfl, rfl⟩, m₁, hPlus, m₂, hOpen, m₃, ⟨_, ⟨c, hc, rfl⟩, hMore⟩, m₄, hClose, m₅, hTail,
      rfl, rfl⟩
    obtain ⟨plusses, hPlusses, hSplit⟩ := reads_star.mp hPlus
    obtain ⟨opened, rfl⟩ := reads_optional.mp hOpen
    obtain ⟨more, hFew, hDigits, rfl⟩ := reads_upTo.mp hMore
    obtain ⟨closed, rfl⟩ := reads_optional.mp hClose
    obtain ⟨tail, hAllowed, rfl⟩ := reads_star.mp hTail
    exact ⟨rfl, rfl, ⟨{
      plusses, opened, closed, tail
      digits := c :: more
      split := by rw [hSplit, List.append_nil]; rfl
      plus := fun c hc => beq_iff_eq.mp (hPlusses c hc)
      digit := List.forall_mem_cons.mpr ⟨hc, hDigits⟩
      present := List.cons_ne_nil _ _
      few := Nat.succ_le_succ hFew
      allowed := hAllowed }⟩⟩
  · rintro ⟨rfl, rfl, ⟨written⟩⟩
    obtain ⟨plusses, opened, digits, closed, tail, hSplit, hPlus, hDigit, hPresent, hFew, hAllowed⟩ :=
      written
    obtain ⟨c, more, rfl⟩ := List.exists_cons_of_ne_nil hPresent
    obtain ⟨hc, hMore⟩ := List.forall_mem_cons.mp hDigit
    refine ⟨_, ⟨rfl, rfl⟩, _, reads_star.mpr ⟨plusses, fun c hc => beq_iff_eq.mpr (hPlus c hc), hSplit⟩,
      _, reads_optional.mpr ⟨opened, rfl⟩, _, ⟨_, ⟨c, hc, rfl⟩,
        reads_upTo.mpr ⟨more, Nat.le_of_succ_le_succ hFew, hMore, rfl⟩⟩,
      _, reads_optional.mpr ⟨closed, rfl⟩, [], reads_star.mpr ⟨tail, hAllowed, ?_⟩, rfl, rfl⟩
    exact (List.append_nil tail).symm

theorem dropWhile_run {p : Char → Bool} {xs ys : List Char} (hxs : ∀ c ∈ xs, p c = true)
    (hys : ∀ c, ys.head? = some c → p c = false) : (xs ++ ys).dropWhile p = ys := by
  rw [List.dropWhile_append_of_pos hxs]
  cases ys with
  | nil => rfl
  | cons c ys => exact List.dropWhile_cons_of_neg (by simp [hys c rfl])

theorem takeWhile_run {p : Char → Bool} {xs ys : List Char} (hxs : ∀ c ∈ xs, p c = true)
    (hys : ∀ c, ys.head? = some c → p c = false) : (xs ++ ys).takeWhile p = xs := by
  rw [List.takeWhile_append_of_pos hxs]
  cases ys with
  | nil => simp
  | cons c ys => simp [hys c rfl]

/-- What comes after the plus signs and the opening bracket. -/
def afterOpening (cs : List Char) : List Char :=
  if cs.head? = some '(' then cs.tail else cs

/-- The checks on the digits and on what follows them. -/
def fromDigits (cs : List Char) : Bool :=
  let digits := cs.takeWhile Char.isDigit
  let rest := cs.dropWhile Char.isDigit
  !digits.isEmpty &&
    (if digits.length ≤ 4 && rest.head? = some ')' then rest.tail else rest).all phoneTail

theorem phone_eq (text : List Char) :
    phone text = fromDigits (afterOpening (text.dropWhile (· == '+'))) := rfl

theorem opening_split (cs : List Char) :
    ∃ opened : Bool, cs = (if opened then ['('] else []) ++ afterOpening cs := by
  unfold afterOpening
  split
  · rename_i hHead
    obtain ⟨cs', rfl⟩ := List.head?_eq_some_iff.mp hHead
    exact ⟨true, rfl⟩
  · exact ⟨false, rfl⟩

theorem afterOpening_written (written : Written text) :
    afterOpening (text.dropWhile (· == '+')) = written.digits ++
      ((if written.closed then [')'] else []) ++ written.tail) := by
  obtain ⟨plusses, opened, digits, closed, tail, rfl, hPlus, hDigit, hPresent, _, _⟩ := written
  obtain ⟨c, more, rfl⟩ := List.exists_cons_of_ne_nil hPresent
  have hc := hDigit c List.mem_cons_self
  have hPlain : c ≠ '+' ∧ c ≠ '(' := by
    constructor <;> rintro rfl <;> cases hc
  rw [dropWhile_run (fun c hc => beq_iff_eq.mpr (hPlus c hc))]
  · cases opened with
    | true => rfl
    | false => exact if_neg fun h => hPlain.2 (Option.some.inj h)
  · intro d hd
    cases opened with
    | true => cases hd; rfl
    | false => cases hd; exact beq_eq_false_iff_ne.mpr hPlain.1

theorem not_phoneTail_bracket : phoneTail ')' = false := by decide

theorem fromDigits_accepts {digits tail : List Char} {closed : Bool}
    (hDigit : ∀ c ∈ digits, c.isDigit = true) (hPresent : digits ≠ []) (hFew : digits.length ≤ 4)
    (hAllowed : ∀ c ∈ tail, phoneTail c = true) :
    fromDigits (digits ++ ((if closed then [')'] else []) ++ tail)) = true := by
  unfold fromDigits
  cases closed with
  | true =>
    have hBracket : ∀ c, (')' :: tail).head? = some c → c.isDigit = false := by
      rintro c ⟨⟩
      rfl
    simp only [if_true, List.singleton_append]
    rw [takeWhile_run hDigit hBracket, dropWhile_run hDigit hBracket]
    simpa [hPresent, hFew] using hAllowed
  | false =>
    have hTail : ∀ c ∈ tail.dropWhile Char.isDigit, phoneTail c = true :=
      fun c hc => hAllowed c ((List.dropWhile_suffix _).subset hc)
    have hOpen : (tail.dropWhile Char.isDigit).head? ≠ some ')' := by
      intro hHead
      cases not_phoneTail_bracket.symm.trans (hTail _ (List.mem_of_head? hHead))
    simp only [Bool.false_eq_true, if_false, List.nil_append]
    rw [List.takeWhile_append_of_pos hDigit, List.dropWhile_append_of_pos hDigit]
    simpa [hPresent, hOpen] using hTail

theorem fromDigits_split {cs : List Char} (h : fromDigits cs = true) :
    ∃ (digits : List Char) (closed : Bool) (tail : List Char),
      cs = digits ++ ((if closed then [')'] else []) ++ tail) ∧
      (∀ c ∈ digits, c.isDigit = true) ∧ digits ≠ [] ∧ digits.length ≤ 4 ∧
        ∀ c ∈ tail, phoneTail c = true := by
  have hSplit := (List.takeWhile_append_dropWhile (p := Char.isDigit) (l := cs)).symm
  have hDigit : ∀ c ∈ cs.takeWhile Char.isDigit, c.isDigit = true :=
    fun c hc => List.mem_takeWhile_imp hc
  unfold fromDigits at h
  generalize cs.takeWhile Char.isDigit = digits at *
  generalize cs.dropWhile Char.isDigit = rest at *
  obtain ⟨hPresent, hTail⟩ := (Bool.and_eq_true _ _).mp h
  have hSome : digits ≠ [] := by simpa using hPresent
  rw [List.all_eq_true] at hTail
  by_cases hFew : digits.length ≤ 4
  · by_cases hBracket : rest.head? = some ')'
    · obtain ⟨tail, rfl⟩ := List.head?_eq_some_iff.mp hBracket
      exact ⟨digits, true, tail, hSplit, hDigit, hSome, hFew, by simpa [hFew] using hTail⟩
    · exact ⟨digits, false, rest, hSplit, hDigit, hSome, hFew, by simpa [hBracket] using hTail⟩
  · -- the fifth digit and those after it belong to the tail
    refine ⟨digits.take 4, false, digits.drop 4 ++ rest, ?_, ?_, ?_, List.length_take_le _ _, ?_⟩
    · rw [if_neg Bool.false_ne_true, List.nil_append, ← List.append_assoc, List.take_append_drop,
        hSplit]
    · exact fun c hc => hDigit c (List.mem_of_mem_take hc)
    · simpa using hSome
    · refine List.forall_mem_append.mpr ⟨fun c hc => ?_, by simpa [hFew] using hTail⟩
      simp [phoneTail, hDigit c (List.mem_of_mem_drop hc)]

theorem phone_iff : phone text = true ↔ Nonempty (Written text) := by
  constructor
  · intro h
    rw [phone_eq] at h
    obtain ⟨digits, closed, tail, hDigits, hDigit, hPresent, hFew, hAllowed⟩ := fromDigits_split h
    obtain ⟨opened, hOpened⟩ := opening_split (text.dropWhile (· == '+'))
    refine ⟨⟨text.takeWhile (· == '+'), opened, digits, closed, tail, ?_, ?_, hDigit, hPresent, hFew,
      hAllowed⟩⟩
    · rw [← hDigits, ← hOpened, List.takeWhile_append_dropWhile]
    · exact fun c hc => beq_iff_eq.mp (List.mem_takeWhile_imp (p := (· == '+')) hc)
  · rintro ⟨written⟩
    rw [phone_eq, afterOpening_written written]
    exact fromDigits_accepts written.digit written.present written.few written.allowed

end Phone

end RegExp

open RegExp in
/-- The password pattern finds a match exactly if the last line without its leading dots has a
capital, a small letter, and a digit or a character of no word. -/
theorem password_matches_iff (text : List Char) :
    (passwordPattern.Finds text ↔ test password text = true) ∧
    (passwordPattern.Finds text ↔
      let kept := (lastLine text).dropWhile (· == '.')
      kept.any (fun c => c.isDigit || !isWord c) = true ∧ kept.any Char.isUpper = true ∧
        kept.any Char.isLower = true) := by
  have hFinds : passwordPattern.Finds text ↔ test password text = true := by
    rw [test_iff]
    refine exists_congr fun cs => and_congr_right fun _ => ?_
    simp only [reads_password, exists_and_left, exists_eq, and_true]
  refine ⟨hFinds, ?_⟩
  rw [hFinds, test_iff]
  simp only [password_iff]
  constructor
  · rintro ⟨cs, hSuffix, hAny, hClass, hDot, hUpper, hLower⟩
    have hKept : cs <:+ (lastLine text).dropWhile (· == '.') := by
      refine suffix_dropWhile (suffix_rtakeWhile hSuffix hAny) fun c hc => beq_eq_false_iff_ne.mpr ?_
      rintro rfl
      exact hDot hc
    exact ⟨any_of_suffix hKept hClass, any_of_suffix hKept hUpper, any_of_suffix hKept hLower⟩
  · rintro ⟨hClass, hUpper, hLower⟩
    have hKept := List.dropWhile_suffix (· == '.') (l := lastLine text)
    refine ⟨_, hKept.trans (List.rtakeWhile_suffix _ _), fun c hc => ?_, hClass, fun hDot => ?_,
      hUpper, hLower⟩
    · exact List.mem_rtakeWhile_imp (hKept.subset hc)
    · cases head_dropWhile hDot

open RegExp in
/-- The phone pattern finds a match exactly in a text that is written as a number, and so do the
checks that stand for it. -/
theorem phone_matches_iff (text : List Char) :
    (phonePattern.Finds text ↔ phone text = true) ∧
      (phonePattern.Finds text ↔ Nonempty (Written text)) := by
  have hFinds : phonePattern.Finds text ↔ Nonempty (Written text) := by
    constructor
    · rintro ⟨cs, _, rest, h⟩
      exact (reads_phone.mp h).2.2
    · exact fun h => ⟨text, List.suffix_rfl, [], reads_phone.mpr ⟨rfl, rfl, h⟩⟩
  exact ⟨hFinds.trans phone_iff.symm, hFinds⟩

end Manejaplus
