import Mathlib.Data.List.Basic
import Manejaplus.Shared.Js

/-! # JavaScript strings -/
namespace Manejaplus
set_option autoImplicit false

/-- The text of a value in a template literal. -/
def Js.template : Js String → String
  | .undefined => "undefined"
  | .null => "null"
  | .val s => s

theorem toList_append₃ (a b c : String) :
    (a ++ b ++ c).toList = a.toList ++ (b.toList ++ c.toList) := by
  rw [String.toList_append, String.toList_append, List.append_assoc]

theorem toList_append_eq {a b : String} {as bs : List Char} (ha : a.toList = as)
    (hb : b.toList = bs) : (a ++ b).toList = as ++ bs := by
  rw [String.toList_append, ha, hb]

/-- `str.split(sep)`, for a separator of one character. -/
def split (sep : Char) : List Char → List (List Char)
  | [] => [[]]
  | c :: cs =>
    if c = sep then [] :: split sep cs
    else match split sep cs with
      | [] => [[c]]
      | part :: parts => (c :: part) :: parts

theorem split_of_not_mem {sep : Char} {cs : List Char} (h : sep ∉ cs) : split sep cs = [cs] := by
  induction cs with
  | nil => rfl
  | cons c cs ih =>
    rw [List.mem_cons, not_or] at h
    rw [split, if_neg (Ne.symm h.1), ih h.2]

theorem split_append {sep : Char} {part : List Char} (h : sep ∉ part) (cs : List Char) :
    split sep (part ++ sep :: cs) = part :: split sep cs := by
  induction part with
  | nil => exact if_pos rfl
  | cons c part ih =>
    rw [List.mem_cons, not_or] at h
    rw [List.cons_append, split, if_neg (Ne.symm h.1), ih h.2]

end Manejaplus
