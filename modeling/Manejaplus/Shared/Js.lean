import Mathlib.Logic.Basic

/-! # JavaScript values as the services see them -/
namespace Manejaplus
set_option autoImplicit false

/-- A property of an object: absent (or `undefined`), `null`, or a value. -/
inductive Js (α : Type) where
  | undefined
  | null
  | val (a : α)
  deriving DecidableEq, Repr

/-- Milliseconds since the epoch, as `Date.getTime` gives them. -/
abbrev Time := Nat

namespace Js
variable {α : Type}

/-- A nullable column as the entity manager hydrates it. -/
def ofOption : Option α → Js α
  | none => .null
  | some a => .val a

/-- `target[key] = source[key]` of a `for … in` loop, where the key may be missing in the source. -/
def assignTo (source target : Js α) : Js α :=
  match source with
  | .undefined => target
  | .null => .null
  | .val a => .val a

/-- What a nullable column holds after a save of this property over it. -/
def write (property : Js α) (column : Option α) : Option α :=
  match property with
  | .undefined => column
  | .null => none
  | .val a => some a

/-- The same for a column declared `NOT NULL`: a `null` is refused. -/
def writeNotNull (property : Js α) (column : α) : Option α :=
  match property with
  | .undefined => some column
  | .null => none
  | .val a => some a

/-- A property that an insert cannot do without: `NOT NULL` and no default. -/
def required : Js α → Option α
  | .val a => some a
  | _ => none

/-- A nullable column that a saved object leaves open comes back as `null`. -/
def orNull : Js α → Js α
  | .undefined => .null
  | v => v

def changeFrom [DecidableEq α] (property stored : Js α) : Js α :=
  if property = stored then .undefined else property

theorem required_iff {v : Js α} {a : α} : v.required = some a ↔ v = .val a := by
  cases v <;> simp [required]

@[simp] theorem assignTo_undefined (source : Js α) : source.assignTo .undefined = source := by
  cases source <;> rfl

@[simp] theorem undefined_assignTo (target : Js α) : (Js.undefined).assignTo target = target := rfl

@[simp] theorem assignTo_val (a : α) (target : Js α) : (Js.val a).assignTo target = .val a := rfl

/-- What comes back for a column leaves it as it is. -/
@[simp] theorem write_returned (property : Js α) (column : Option α) :
    (property.assignTo (ofOption (property.write column))).write (property.write column) =
      property.write column := by
  cases property with
  | undefined => cases column <;> rfl
  | null => rfl
  | val a => rfl

@[simp] theorem assignTo_ofOption (o : Option α) (target : Js α) :
    (ofOption o).assignTo target = ofOption o := by cases o <;> rfl

@[simp] theorem ofOption_ne_undefined (o : Option α) : ofOption o ≠ .undefined := by
  cases o <;> exact fun h => (nomatch h)

@[simp] theorem assignTo_ofOption_ne_undefined (source : Js α) (o : Option α) :
    source.assignTo (ofOption o) ≠ .undefined := by
  cases source with
  | undefined => exact ofOption_ne_undefined o
  | null => exact fun h => (nomatch h)
  | val a => exact fun h => (nomatch h)

@[simp] theorem write_undefined (column : Option α) : (Js.undefined).write column = column := rfl

@[simp] theorem write_val (a : α) (column : Option α) : (Js.val a).write column = some a := rfl

@[simp] theorem write_ofOption (o column : Option α) : (ofOption o).write column = o := by
  cases o <;> rfl

@[simp] theorem writeNotNull_val (a column : α) : (Js.val a).writeNotNull column = some a := rfl

@[simp] theorem writeNotNull_undefined (column : α) :
    (Js.undefined).writeNotNull column = some column := rfl

def truthy : Js Bool → Bool
  | .val b => b
  | _ => false

/-- JavaScript truth of a text property: the empty string is falsy. -/
def truthyText : Js String → Bool
  | .val s => s != ""
  | _ => false

@[simp] theorem truthy_ofOption (o : Option Bool) : (ofOption o).truthy = (o == some true) := by
  obtain _ | _ | _ := o <;> rfl

end Js

end Manejaplus
