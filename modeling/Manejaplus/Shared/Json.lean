import Mathlib.Data.List.Nodup

/-! # JSON values

Numbers are of any type. The fields of an object stand in the order in which
`Object.entries` lists them.
-/
namespace Manejaplus
set_option autoImplicit false

inductive Json (ν : Type) where
  | null
  | bool (b : Bool)
  | num (n : ν)
  | str (s : String)
  | arr (items : List (Json ν))
  | obj (fields : List (String × Json ν))
  deriving Repr

theorem lookup_cons_if {V : Type} (k key : String) (v : V) (fields : List (String × V)) :
    ((k, v) :: fields).lookup key = if key = k then some v else fields.lookup key := by
  by_cases hKey : key = k
  · subst hKey
    simp
  · simp [List.lookup_cons, beq_eq_false_iff_ne.mpr hKey, hKey]

theorem lookup_eq_none_of_not_mem {V : Type} {key : String} {fields : List (String × V)}
    (h : key ∉ fields.map (·.1)) : fields.lookup key = none :=
  List.lookup_eq_none_iff.mpr fun f hf => bne_iff_ne.mpr fun hKey =>
    h (List.mem_map.mpr ⟨f, hf, hKey.symm⟩)

theorem mem_of_lookup {V : Type} {key : String} {fields : List (String × V)} {value : V}
    (h : fields.lookup key = some value) : (key, value) ∈ fields := by
  obtain ⟨before, after, hFields, _⟩ := List.lookup_eq_some_iff.mp h
  rw [hFields]
  exact List.mem_append_right before List.mem_cons_self

theorem exists_lookup_of_mem {V : Type} {key : String} {fields : List (String × V)}
    (h : key ∈ fields.map (·.1)) : ∃ value, fields.lookup key = some value := by
  obtain ⟨f, hf, hKey⟩ := List.mem_map.mp h
  exact Option.isSome_iff_exists.mp (List.lookup_isSome_iff.mpr ⟨f, hf, beq_iff_eq.mpr hKey.symm⟩)

theorem lookup_filter {V : Type} (keeps : String → Bool) (fields : List (String × V)) (key : String) :
    (fields.filter fun f => keeps f.1).lookup key = if keeps key then fields.lookup key else none := by
  induction fields with
  | nil => simp
  | cons f fields ih =>
    obtain ⟨k, v⟩ := f
    rw [List.filter_cons, lookup_cons_if]
    by_cases hKey : key = k
    · subst hKey
      cases hKeeps : keeps key <;> simp [hKeeps, ih]
    · rw [if_neg hKey]
      split
      · rw [lookup_cons_if, if_neg hKey, ih]
      · exact ih

theorem lookup_map_value {U V : Type} (read : U → V) (fields : List (String × U)) (key : String) :
    (fields.map fun f => (f.1, read f.2)).lookup key = (fields.lookup key).map read := by
  induction fields with
  | nil => rfl
  | cons f fields ih =>
    obtain ⟨k, u⟩ := f
    rw [List.map_cons, lookup_cons_if, lookup_cons_if, ih]
    split <;> rfl

section Present
variable {V : Type} {fields : List (String × Option V)}

theorem keys_present (fields : List (String × Option V)) :
    ((fields.filterMap fun f => f.2.map (f.1, ·)).map (·.1)).Sublist (fields.map (·.1)) := by
  induction fields with
  | nil => exact .slnil
  | cons f fields ih =>
    obtain ⟨key, value⟩ := f
    cases value with
    | none => exact ih.cons key
    | some v => exact ih.cons_cons key

/-- Among the fields that are there, each is found under its key. -/
theorem lookup_present (hKeys : (fields.map (·.1)).Nodup) (key : String) :
    (fields.filterMap fun f => f.2.map (f.1, ·)).lookup key = (fields.lookup key).join := by
  induction fields with
  | nil => rfl
  | cons f fields ih =>
    obtain ⟨k, value⟩ := f
    rw [List.map_cons, List.nodup_cons] at hKeys
    rw [lookup_cons_if]
    cases value with
    | none =>
      apply (ih hKeys.2).trans
      split
      · rename_i hKey
        rw [lookup_eq_none_of_not_mem (hKey ▸ hKeys.1)]
        rfl
      · rfl
    | some v =>
      apply (lookup_cons_if k key v _).trans
      split
      · rfl
      · exact ih hKeys.2

end Present

namespace Json
variable {ν : Type} {motive : Json ν → Prop}

/-- Induction on a value, with the hypothesis for every item and every field. -/
@[elab_as_elim]
theorem induct (null : motive .null) (bool : ∀ b, motive (.bool b)) (num : ∀ n, motive (.num n))
    (str : ∀ s, motive (.str s)) (arr : ∀ items, (∀ v ∈ items, motive v) → motive (.arr items))
    (obj : ∀ fields : List (String × Json ν), (∀ f ∈ fields, motive f.2) → motive (.obj fields))
    (v : Json ν) : motive v := by
  refine @Json.rec ν motive (fun items => ∀ v ∈ items, motive v) (fun fields => ∀ f ∈ fields, motive f.2)
    (fun f => motive f.2) null bool num str arr obj ?_ ?_ ?_ ?_ ?_ v
  · exact fun _ hv => absurd hv List.not_mem_nil
  · intro w items hw hItems v hv
    obtain rfl | hv := List.mem_cons.mp hv
    · exact hw
    · exact hItems v hv
  · exact fun _ hf => absurd hf List.not_mem_nil
  · intro g fields hg hFields f hf
    obtain rfl | hf := List.mem_cons.mp hf
    · exact hg
    · exact hFields f hf
  · exact fun _ _ h => h

/-- `typeof value === 'object' && value !== null` -/
def isObject : Json ν → Bool
  | .arr _ => true
  | .obj _ => true
  | _ => false

/-- What a value can be in JavaScript: the keys of an object are distinct, and none is the one
that an assignment takes for the prototype. -/
inductive WellFormed : Json ν → Prop
  | leaf {v : Json ν} (h : v.isObject = false) : WellFormed v
  | arr {items : List (Json ν)} (h : ∀ v ∈ items, WellFormed v) : WellFormed (.arr items)
  | obj {fields : List (String × Json ν)} (hKeys : (fields.map (·.1)).Nodup)
      (hProto : "__proto__" ∉ fields.map (·.1)) (h : ∀ f ∈ fields, WellFormed f.2) :
      WellFormed (.obj fields)

/-- No array occurs in the value. -/
inductive Arrayless : Json ν → Prop
  | leaf {v : Json ν} (h : v.isObject = false) : Arrayless v
  | obj {fields : List (String × Json ν)} (h : ∀ f ∈ fields, Arrayless f.2) :
      Arrayless (.obj fields)

theorem arrayless_obj {fields : List (String × Json ν)} :
    Arrayless (.obj fields) ↔ ∀ f ∈ fields, Arrayless f.2 := by
  constructor
  · intro h
    cases h with
    | leaf h => cases h
    | obj h => exact h
  · exact .obj

theorem not_arrayless_arr (items : List (Json ν)) : ¬ Arrayless (.arr items) := by
  intro h
  cases h with
  | leaf h => cases h

theorem WellFormed.item {items : List (Json ν)} (h : WellFormed (.arr items)) :
    ∀ v ∈ items, WellFormed v := by
  cases h with
  | leaf h => cases h
  | arr h => exact h

end Json

end Manejaplus
