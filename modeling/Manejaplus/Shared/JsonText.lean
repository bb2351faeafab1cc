import Mathlib.Data.List.Basic
import Manejaplus.Shared.Json

/-! # The text of a JSON value

No value's text is the beginning of another's, numbers apart; these end at a
comma or at a closing bracket.
-/
namespace Manejaplus
set_option autoImplicit false

/-- `JSON.stringify` and `JSON.parse`; a text that is not JSON is a `SyntaxError`. -/
structure JsonCodec (ν : Type) where
  stringify : Json ν → String
  parse : String → Option (Json ν)

def JsonCodec.Undoes {ν : Type} (codec : JsonCodec ν) : Prop :=
  ∀ v : Json ν, v.WellFormed → codec.parse (codec.stringify v) = some v

namespace JsonText

def shortEscapes : List (Char × Char) :=
  [('"', '"'), ('\\', '\\'), ('\x08', 'b'), ('\x0c', 'f'), ('\n', 'n'), ('\r', 'r'), ('\t', 't')]

def shortEscape (c : Char) : Option Char := (shortEscapes.find? (·.1 = c)).map (·.2)

def escape (c : Char) : List Char :=
  match shortEscape c with
  | some d => ['\\', d]
  | none =>
    if c.toNat < 32 then
      ['\\', 'u', '0', '0', Nat.digitChar (c.toNat / 16), Nat.digitChar (c.toNat % 16)]
    else [c]

theorem mem_of_shortEscape {c d : Char} (h : shortEscape c = some d) : (c, d) ∈ shortEscapes := by
  obtain ⟨⟨c', d'⟩, hFind, rfl⟩ := Option.map_eq_some_iff.mp h
  have hc : c' = c := by simpa using List.find?_some hFind
  exact hc ▸ List.mem_of_find?_eq_some hFind

theorem shortEscape_inj {c d e : Char} (hc : shortEscape c = some e) (hd : shortEscape d = some e) :
    c = d := by
  have hAll : ∀ p ∈ shortEscapes, ∀ q ∈ shortEscapes, p.2 = q.2 → p.1 = q.1 := by decide
  exact hAll _ (mem_of_shortEscape hc) _ (mem_of_shortEscape hd) rfl

theorem shortEscape_ne_u {c : Char} : shortEscape c ≠ some 'u' := by
  intro h
  have hAll : ∀ p ∈ shortEscapes, p.2 ≠ 'u' := by decide
  exact hAll _ (mem_of_shortEscape h) rfl

theorem digitChar_inj {m n : Nat} (hm : m < 16) (hn : n < 16) (h : m.digitChar = n.digitChar) :
    m = n := by
  have hAll : ∀ i < 16, ∀ j < 16, Nat.digitChar i = Nat.digitChar j → i = j := by decide
  exact hAll m hm n hn h

theorem escape_append {c d : Char} {r r' : List Char} (h : escape c ++ r = escape d ++ r') :
    c = d ∧ r = r' := by
  unfold escape at h
  have hBackslash : ∀ {x : Char}, shortEscape x = none → x ≠ '\\' := by
    rintro _ hNone rfl
    cases hNone
  cases hc : shortEscape c with
  | some e =>
    cases hd : shortEscape d with
    | some e' =>
      simp only [hc, hd, List.cons_append, List.nil_append, List.cons.injEq, true_and] at h
      obtain ⟨rfl, rfl⟩ := h
      exact ⟨shortEscape_inj hc hd, rfl⟩
    | none =>
      simp only [hc, hd] at h
      split at h
      · simp only [List.cons_append, List.cons.injEq, true_and] at h
        exact absurd (h.1 ▸ hc) shortEscape_ne_u
      · simp only [List.cons_append, List.cons.injEq] at h
        exact absurd h.1.symm (hBackslash hd)
  | none =>
    cases hd : shortEscape d with
    | some e' =>
      simp only [hc, hd] at h
      split at h
      · simp only [List.cons_append, List.cons.injEq, true_and] at h
        exact absurd (h.1 ▸ hd) shortEscape_ne_u
      · simp only [List.cons_append, List.cons.injEq] at h
        exact absurd h.1 (hBackslash hc)
    | none =>
      simp only [hc, hd] at h
      split at h <;> split at h
      · simp only [List.cons_append, List.nil_append, List.cons.injEq, true_and] at h
        obtain ⟨hHigh, hLow, rfl⟩ := h
        have h₁ := digitChar_inj (by omega) (by omega) hHigh
        have h₂ := digitChar_inj (by omega) (by omega) hLow
        exact ⟨Char.toNat_inj.mp (by omega), rfl⟩
      · simp only [List.cons_append, List.cons.injEq] at h
        exact absurd h.1.symm (hBackslash hd)
      · simp only [List.cons_append, List.cons.injEq] at h
        exact absurd h.1 (hBackslash hc)
      · simpa using h

/-- A string's text after its opening quote. -/
def quoted : List Char → List Char
  | [] => ['"']
  | c :: cs => escape c ++ quoted cs

theorem escape_ne_quote (c : Char) (r r' : List Char) : escape c ++ r ≠ '"' :: r' := by
  intro h
  unfold escape at h
  split at h
  · simp at h
  · rename_i hNone
    split at h
    · simp at h
    · simp only [List.cons_append, List.cons.injEq] at h
      rw [h.1] at hNone
      cases hNone

theorem quoted_append {s t r r' : List Char} (h : quoted s ++ r = quoted t ++ r') :
    s = t ∧ r = r' := by
  induction s generalizing t with
  | nil =>
    cases t with
    | nil => exact ⟨rfl, List.tail_eq_of_cons_eq h⟩
    | cons d ds =>
      rw [quoted, quoted, List.append_assoc] at h
      exact absurd h.symm (escape_ne_quote _ _ _)
  | cons c cs ih =>
    cases t with
    | nil =>
      rw [quoted, quoted, List.append_assoc] at h
      exact absurd h (escape_ne_quote _ _ _)
    | cons d ds =>
      rw [quoted, quoted, List.append_assoc, List.append_assoc] at h
      obtain ⟨rfl, hTail⟩ := escape_append h
      obtain ⟨rfl, rfl⟩ := ih hTail
      exact ⟨rfl, rfl⟩

/-- Where a number's text ends. -/
def Ends (r : List Char) : Prop := ∀ c ∈ r.head?, c ∈ [',', ']', '\x7d']

/-- How the texts begin that are no numbers. -/
def openers : List Char := ['n', 't', 'f', '"', '[', '\x7b']

/-- How numbers are written. -/
structure NumberText (ν : Type) where
  text : ν → List Char
  head : ∀ n, ∃ c ∈ (text n).head?, c ∉ openers ∧ c ≠ ']'
  inj : ∀ {n m r r'}, Ends r → Ends r' → text n ++ r = text m ++ r' → n = m ∧ r = r'

section Values
variable {ν : Type} (number : NumberText ν)

mutual
def text : Json ν → List Char
  | .null => "null".toList
  | .bool true => "true".toList
  | .bool false => "false".toList
  | .num n => number.text n
  | .str s => '"' :: quoted s.toList
  | .arr [] => "[]".toList
  | .arr (v :: items) => '[' :: (text v ++ textItems items)
  | .obj [] => "\x7b\x7d".toList
  | .obj ((key, v) :: fields) =>
    '\x7b' :: '"' :: (quoted key.toList ++ ':' :: (text v ++ textFields fields))

/-- The items after the first. -/
def textItems : List (Json ν) → List Char
  | [] => [']']
  | v :: items => ',' :: (text v ++ textItems items)

def textFields : List (String × Json ν) → List Char
  | [] => ['\x7d']
  | (key, v) :: fields =>
    ',' :: '"' :: (quoted key.toList ++ ':' :: (text v ++ textFields fields))
end

theorem ends_textItems (items : List (Json ν)) (r : List Char) :
    Ends (textItems number items ++ r) := by
  cases items <;> simp [textItems, Ends]

theorem ends_textFields (fields : List (String × Json ν)) (r : List Char) :
    Ends (textFields number fields ++ r) := by
  cases fields <;> simp [textFields, Ends]

variable {number}

/-- The text of this value is no beginning of another's. -/
def Determined (number : NumberText ν) (v : Json ν) : Prop :=
  ∀ w r r', Ends r → Ends r' → text number v ++ r = text number w ++ r' → v = w ∧ r = r'

theorem textItems_append {items items' : List (Json ν)} {r r' : List Char}
    (hItems : ∀ v ∈ items, Determined number v)
    (h : textItems number items ++ r = textItems number items' ++ r') : items = items' ∧ r = r' := by
  induction items generalizing items' with
  | nil => cases items' <;> simp_all [textItems]
  | cons v items ih =>
    cases items' with
    | nil => simp [textItems] at h
    | cons w items' =>
      simp only [textItems, List.cons_append, List.append_assoc, List.cons.injEq, true_and] at h
      obtain ⟨rfl, hTail⟩ := hItems v List.mem_cons_self w _ _ (ends_textItems number _ _)
        (ends_textItems number _ _) h
      obtain ⟨rfl, rfl⟩ := ih (fun w hw => hItems w (List.mem_cons_of_mem _ hw)) hTail
      exact ⟨rfl, rfl⟩

theorem quoted_field {key key' : String} {s s' : List Char}
    (h : quoted key.toList ++ ':' :: s = quoted key'.toList ++ ':' :: s') : key = key' ∧ s = s' := by
  obtain ⟨hKey, hRest⟩ := quoted_append h
  exact ⟨String.toList_inj.mp hKey, List.tail_eq_of_cons_eq hRest⟩

theorem textFields_append {fields fields' : List (String × Json ν)} {r r' : List Char}
    (hFields : ∀ f ∈ fields, Determined number f.2)
    (h : textFields number fields ++ r = textFields number fields' ++ r') :
    fields = fields' ∧ r = r' := by
  induction fields generalizing fields' with
  | nil => cases fields' <;> simp_all [textFields]
  | cons f fields ih =>
    obtain ⟨key, v⟩ := f
    cases fields' with
    | nil => simp [textFields] at h
    | cons g fields' =>
      obtain ⟨key', w⟩ := g
      simp only [textFields, List.cons_append, List.append_assoc, List.cons.injEq, true_and] at h
      obtain ⟨rfl, hValue⟩ := quoted_field h
      obtain ⟨rfl, hTail⟩ := hFields (key, v) List.mem_cons_self w _ _ (ends_textFields number _ _)
        (ends_textFields number _ _) hValue
      obtain ⟨rfl, rfl⟩ := ih (fun g hg => hFields g (List.mem_cons_of_mem _ hg)) hTail
      exact ⟨rfl, rfl⟩

/-- How the text of a value begins that is not a number. -/
def opener : Json ν → Option Char
  | .null => some 'n'
  | .bool true => some 't'
  | .bool false => some 'f'
  | .num _ => none
  | .str _ => some '"'
  | .arr _ => some '['
  | .obj _ => some '\x7b'

theorem mem_openers {v : Json ν} {c : Char} (h : opener v = some c) : c ∈ openers := by
  have hAll : ∀ c, opener v = some c → c ∈ openers := by
    cases v with
    | bool b => cases b <;> simp [opener, openers]
    | _ => simp [opener, openers]
  exact hAll c h

variable (number) in
theorem text_of_opener {v : Json ν} {c : Char} (h : opener v = some c) :
    ∃ cs, text number v = c :: cs := by
  cases v with
  | num n => cases h
  | bool b => cases b <;> cases h <;> exact ⟨_, rfl⟩
  | arr items =>
    cases h
    cases items <;> exact ⟨_, rfl⟩
  | obj fields =>
    cases h
    cases fields <;> exact ⟨_, rfl⟩
  | _ =>
    cases h
    exact ⟨_, rfl⟩

variable (number) in
theorem text_of_no_opener {v : Json ν} (h : opener v = none) :
    ∃ c cs, text number v = c :: cs ∧ c ∉ openers ∧ c ≠ ']' := by
  cases v with
  | num n =>
    obtain ⟨c, hc, hOther⟩ := number.head n
    cases hn : number.text n with
    | nil => simp [hn] at hc
    | cons d cs =>
      have hd : d = c := by simpa [hn] using hc
      exact ⟨d, cs, hn, hd ▸ hOther⟩
  | bool b => cases b <;> cases h
  | _ => cases h

variable (number) in
/-- No text begins like the end of an array. -/
theorem text_head (v : Json ν) : ∃ c cs, text number v = c :: cs ∧ c ≠ ']' ∧
    (∀ d, opener v = some d → d = c) ∧ (opener v = none → c ∉ openers) := by
  cases h : opener v with
  | none =>
    obtain ⟨c, cs, hText, hOther, hc⟩ := text_of_no_opener number h
    exact ⟨c, cs, hText, hc, nofun, fun _ => hOther⟩
  | some c =>
    obtain ⟨cs, hText⟩ := text_of_opener number h
    refine ⟨c, cs, hText, ?_, fun _ hd => (Option.some.inj hd).symm, nofun⟩
    rintro rfl
    exact absurd (mem_openers h) (by decide)

theorem text_ne_bracket (v : Json ν) (r r' : List Char) : text number v ++ r ≠ ']' :: r' := by
  intro h
  obtain ⟨c, cs, hText, hc, _⟩ := text_head number v
  rw [hText, List.cons_append, List.cons.injEq] at h
  exact hc h.1

/-- Values whose texts begin alike are of one kind. -/
theorem same_opener {v w : Json ν} {r r' : List Char}
    (h : text number v ++ r = text number w ++ r') : opener v = opener w := by
  obtain ⟨c, cs, hText, _, hSome, hNone⟩ := text_head number v
  obtain ⟨d, ds, hText', _, hSome', hNone'⟩ := text_head number w
  rw [hText, hText', List.cons_append, List.cons_append, List.cons.injEq] at h
  obtain ⟨rfl, _⟩ := h
  cases hv : opener v with
  | none =>
    cases hw : opener w with
    | none => rfl
    | some e => exact absurd (hSome' e hw ▸ mem_openers hw) (hNone hv)
  | some e =>
    cases hw : opener w with
    | none => exact absurd (hSome e hv ▸ mem_openers hv) (hNone' hw)
    | some e' => rw [hSome e hv, hSome' e' hw]

theorem arr_append {items items' : List (Json ν)} {r r' : List Char}
    (ih : ∀ v ∈ items, Determined number v)
    (h : text number (.arr items) ++ r = text number (.arr items') ++ r') :
    items = items' ∧ r = r' := by
  cases items with
  | nil =>
    cases items' with
    | nil => exact ⟨rfl, List.append_cancel_left h⟩
    | cons w items' =>
      rw [text, text, List.cons_append, List.append_assoc] at h
      exact absurd (List.tail_eq_of_cons_eq h).symm (text_ne_bracket _ _ _)
  | cons v items =>
    cases items' with
    | nil =>
      rw [text, text, List.cons_append, List.append_assoc] at h
      exact absurd (List.tail_eq_of_cons_eq h) (text_ne_bracket _ _ _)
    | cons w items' =>
      rw [text, text, List.cons_append, List.cons_append, List.append_assoc, List.append_assoc] at h
      obtain ⟨rfl, hTail⟩ := ih v List.mem_cons_self w _ _ (ends_textItems number _ _)
        (ends_textItems number _ _) (List.tail_eq_of_cons_eq h)
      obtain ⟨rfl, rfl⟩ := textItems_append (fun w hw => ih w (List.mem_cons_of_mem _ hw)) hTail
      exact ⟨rfl, rfl⟩

theorem obj_append {fields fields' : List (String × Json ν)} {r r' : List Char}
    (ih : ∀ f ∈ fields, Determined number f.2)
    (h : text number (.obj fields) ++ r = text number (.obj fields') ++ r') :
    fields = fields' ∧ r = r' := by
  rcases fields with _ | ⟨⟨key, v⟩, fields⟩ <;> rcases fields' with _ | ⟨⟨key', w⟩, fields'⟩
  · exact ⟨rfl, List.append_cancel_left h⟩
  · simp [text] at h
  · simp [text] at h
  · simp only [text, List.cons_append, List.append_assoc, List.cons.injEq, true_and] at h
    obtain ⟨rfl, hValue⟩ := quoted_field h
    obtain ⟨rfl, hTail⟩ := ih (key, v) List.mem_cons_self w _ _ (ends_textFields number _ _)
      (ends_textFields number _ _) hValue
    obtain ⟨rfl, rfl⟩ := textFields_append (fun g hg => ih g (List.mem_cons_of_mem _ hg)) hTail
    exact ⟨rfl, rfl⟩

theorem determined (v : Json ν) : Determined number v := by
  induction v using Json.induct with
  | null =>
    intro w r r' _ _ h
    cases w with
    | null => exact ⟨rfl, List.append_cancel_left h⟩
    | bool b => cases b <;> exact absurd (same_opener h) (by simp [opener])
    | _ => exact absurd (same_opener h) (by simp [opener])
  | bool b =>
    intro w r r' _ _ h
    have hOpener := same_opener h
    cases w with
    | bool b' =>
      obtain rfl : b = b' := by cases b <;> cases b' <;> first | rfl | simp [opener] at hOpener
      exact ⟨rfl, List.append_cancel_left h⟩
    | _ => cases b <;> simp [opener] at hOpener
  | num n =>
    intro w r r' hr hr' h
    cases w with
    | num m =>
      obtain ⟨rfl, rfl⟩ := number.inj hr hr' h
      exact ⟨rfl, rfl⟩
    | bool b => cases b <;> exact absurd (same_opener h) (by simp [opener])
    | _ => exact absurd (same_opener h) (by simp [opener])
  | str s =>
    intro w r r' _ _ h
    cases w with
    | str t =>
      obtain ⟨hText, rfl⟩ := quoted_append (List.tail_eq_of_cons_eq h)
      exact ⟨congrArg Json.str (String.toList_inj.mp hText), rfl⟩
    | bool b => cases b <;> exact absurd (same_opener h) (by simp [opener])
    | _ => exact absurd (same_opener h) (by simp [opener])
  | arr items ih =>
    intro w r r' _ _ h
    cases w with
    | arr items' =>
      obtain ⟨rfl, rfl⟩ := arr_append ih h
      exact ⟨rfl, rfl⟩
    | bool b => cases b <;> exact absurd (same_opener h) (by simp [opener])
    | _ => exact absurd (same_opener h) (by simp [opener])
  | obj fields ih =>
    intro w r r' _ _ h
    cases w with
    | obj fields' =>
      obtain ⟨rfl, rfl⟩ := obj_append ih h
      exact ⟨rfl, rfl⟩
    | bool b => cases b <;> exact absurd (same_opener h) (by simp [opener])
    | _ => exact absurd (same_opener h) (by simp [opener])

theorem text_inj {v w : Json ν} (h : text number v = text number w) : v = w :=
  (determined v w [] [] (fun _ hc => absurd hc (Option.not_mem_none _))
    (fun _ hc => absurd hc (Option.not_mem_none _)) (congrArg (· ++ []) h)).1

variable (number) in
open Classical in
/-- What reads back exactly the texts that are written. -/
noncomputable def codec : JsonCodec ν where
  stringify v := String.ofList (text number v)
  parse s := if h : ∃ v, String.ofList (text number v) = s then some h.choose else none

variable (number) in
theorem codec_undoes : (codec number).Undoes := by
  intro v _
  have hText : ∃ w, String.ofList (text number w) = String.ofList (text number v) := ⟨v, rfl⟩
  exact (dif_pos hText).trans (congrArg some (text_inj (String.ofList_injective hText.choose_spec)))

end Values

theorem digits_append {ds es r r' : List Char} (hds : ∀ c ∈ ds, c.isDigit) (hes : ∀ c ∈ es, c.isDigit)
    (hr : Ends r) (hr' : Ends r') (h : ds ++ r = es ++ r') : ds = es ∧ r = r' := by
  have hEnd : ∀ {c : Char}, c.isDigit → c ∉ [',', ']', '\x7d'] := by
    intro c hDigit hc
    have hAll : ∀ c ∈ [',', ']', '\x7d'], ¬ c.isDigit := by simp
    exact hAll c hc hDigit
  induction ds generalizing es with
  | nil =>
    cases es with
    | nil => exact ⟨rfl, h⟩
    | cons e es =>
      rw [List.nil_append] at h
      exact absurd (hr e (by rw [h]; rfl)) (hEnd (hes e List.mem_cons_self))
  | cons d ds ih =>
    cases es with
    | nil =>
      rw [List.nil_append] at h
      exact absurd (hr' d (by rw [← h]; rfl)) (hEnd (hds d List.mem_cons_self))
    | cons e es =>
      rw [List.cons_append, List.cons_append, List.cons.injEq] at h
      obtain ⟨rfl, hTail⟩ := h
      obtain ⟨rfl, rfl⟩ := ih (fun c hc => hds c (List.mem_cons_of_mem _ hc))
        (fun c hc => hes c (List.mem_cons_of_mem _ hc)) hTail
      exact ⟨rfl, rfl⟩

/-- Natural numbers in decimal notation. -/
def naturals : NumberText Nat where
  text n := Nat.toDigits 10 n
  head n := by
    have hAll : ∀ c ∈ openers ++ [']'], ¬ c.isDigit := by simp [openers]
    cases hText : Nat.toDigits 10 n with
    | nil => exact absurd hText Nat.toDigits_ne_nil
    | cons c cs =>
      have hDigit : c.isDigit :=
        Nat.isDigit_of_mem_toDigits (by decide) (by decide) (hText ▸ List.mem_cons_self)
      refine ⟨c, rfl, fun hc => hAll c (List.mem_append_left _ hc) hDigit, fun hc => ?_⟩
      exact hAll c (List.mem_append_right _ (hc ▸ List.mem_singleton_self _)) hDigit
  inj {n m _ _} hr hr' h := by
    have hDigits : ∀ k, ∀ c ∈ Nat.toDigits 10 k, c.isDigit := fun _ _ hc =>
      Nat.isDigit_of_mem_toDigits (by decide) (by decide) hc
    obtain ⟨hText, hRest⟩ := digits_append (hDigits _) (hDigits _) hr hr' h
    refine ⟨?_, hRest⟩
    calc n = Nat.ofDigitChars 10 (Nat.toDigits 10 n) 0 := Nat.ofDigitChars_ten_toDigits.symm
      _ = m := by rw [hText, Nat.ofDigitChars_ten_toDigits]

end JsonText

end Manejaplus
