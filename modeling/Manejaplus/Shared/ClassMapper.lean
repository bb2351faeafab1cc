import Manejaplus.Shared.Mappers

/-! # `SqlGlobalMapper.mapClassMethod`, and objects that are copied key by key

The methods of a class are not enumerable: in an instance `for … in` finds its
own properties, and those of an object that was written into it as prototype.
-/
namespace Manejaplus
set_option autoImplicit false

/-- A value; `num` are the integers a column holds, `other` the remaining numbers and all objects. -/
inductive JsValue (α : Type) where
  | undefined
  | null
  | bool (b : Bool)
  | num (n : Int)
  | str (s : String)
  | other (a : α)
  deriving DecidableEq, Repr

/-- What the language makes of a value that is neither an integer nor `null`: what `value++`
leaves, and `value >= n`; and what it throws where a prototype is `null`. -/
structure JsLanguage (ε α : Type) extends JsValues ε (JsValue α) where
  successor : JsValue α → Except ε (JsValue α)
  atLeast : JsValue α → Int → Bool
  nullPrototype : ε

/-- What `for … in` finds in an object. -/
def Destination.properties {ε V : Type} (values : JsValues ε V) (d : Destination V) :
    List (String × V) :=
  d.fields ++ ((d.prototype.map values.entries).getD []).filter fun f => f.1 ∉ d.fields.map (·.1)

namespace Mappers.SqlGlobalMapper
variable {ε α : Type} (js : JsLanguage ε α)

/-- `mapClassMethod`; of a class, the properties its constructor writes. -/
def mapClassMethod (source TargetClass : Option (List (String × JsValue α))) (options : MapOptions) :
    Except ε (Destination (JsValue α)) := do
  let destination : Destination (JsValue α) := match TargetClass with
    | some fields => { fields }
    | none => {}
  let destination ← (source.getD []).foldlM (copyKey js.toJsValues options) destination
  -- The names of the methods are not used, but `Object.getOwnPropertyNames(null)` throws.
  match destination.prototype with
  | some .null => throw js.nullPrototype
  | _ => return destination

end Mappers.SqlGlobalMapper

/-- The keys are distinct, and `mapClass` copies each of them under its own name. -/
structure Copyable {V : Type} (fields : List (String × V)) : Prop where
  nodup : (fields.map (·.1)).Nodup
  id : "_id" ∉ fields.map (·.1)
  version : "__v" ∉ fields.map (·.1)
  proto : "__proto__" ∉ fields.map (·.1)

/-- A plain object with these values under its keys, all of which `mapClass` copies. -/
structure Destination.Holds {V : Type} (d : Destination V) (value : String → Option V) : Prop where
  prototype : d.prototype = none
  copyable : Copyable d.fields
  get? : ∀ key, d.get? key = value key

/-- The result is a plain object with these values under its keys, and with no others. -/
def Makes {ε V : Type} (result : Except ε (Destination V)) (value : String → Option V) : Prop :=
  ∃ d, result = .ok d ∧ d.prototype = none ∧ ∀ key, d.get? key = value key

namespace Destination
variable {ε V : Type} {values : JsValues ε V}

theorem keys_assign (key : String) (value : V) (fields : List (String × V)) :
    (assign key value fields).map (·.1) =
      if key ∈ fields.map (·.1) then fields.map (·.1) else fields.map (·.1) ++ [key] := by
  induction fields with
  | nil => rfl
  | cons f fields ih =>
    obtain ⟨k, v⟩ := f
    rw [assign]
    by_cases hKey : k = key
    · subst hKey
      simp
    · rw [if_neg hKey, List.map_cons, ih, List.map_cons]
      by_cases hIn : key ∈ fields.map (·.1)
      · rw [if_pos hIn, if_pos (List.mem_cons_of_mem _ hIn)]
      · rw [if_neg hIn, if_neg fun h => (List.mem_cons.mp h).elim (Ne.symm hKey) hIn]
        rfl

theorem mem_keys_assign {key key' : String} {value : V} {fields : List (String × V)} :
    key' ∈ (assign key value fields).map (·.1) ↔ key' = key ∨ key' ∈ fields.map (·.1) := by
  rw [keys_assign]
  split
  · rename_i hIn
    exact ⟨.inr, fun h => h.elim (fun h => h ▸ hIn) fun h => h⟩
  · rw [List.mem_append, List.mem_singleton, or_comm]

theorem nodup_assign {key : String} {value : V} {fields : List (String × V)}
    (h : (fields.map (·.1)).Nodup) : ((assign key value fields).map (·.1)).Nodup := by
  rw [keys_assign]
  split
  · exact h
  · rename_i hNew
    exact List.nodup_append.mpr ⟨h, List.nodup_singleton key, fun k hk k' hk' hEq =>
      hNew (List.mem_singleton.mp hk' ▸ hEq ▸ hk)⟩

/-- A name under which a property is written as it is. -/
def Ordinary (key : String) : Prop := key ≠ "_id" ∧ key ≠ "__v" ∧ key ≠ "__proto__"

instance (key : String) : Decidable (Ordinary key) := inferInstanceAs (Decidable (_ ∧ _ ∧ _))

theorem copyable_set {key : String} {value : V} {d : Destination V} (hKey : Ordinary key)
    (h : Copyable d.fields) : Copyable (d.set values key value).fields := by
  rw [set, if_neg hKey.2.2]
  exact {
    nodup := nodup_assign h.nodup
    id := fun hIn => (mem_keys_assign.mp hIn).elim hKey.1.symm h.id
    version := fun hIn => (mem_keys_assign.mp hIn).elim hKey.2.1.symm h.version
    proto := fun hIn => (mem_keys_assign.mp hIn).elim hKey.2.2.symm h.proto }

theorem prototype_set {key : String} {value : V} {d : Destination V} (hKey : key ≠ "__proto__") :
    (d.set values key value).prototype = d.prototype := by
  rw [set, if_neg hKey]

theorem get?_proto_set (key : String) (value : V) (d : Destination V) :
    (d.set values key value).get? "__proto__" = d.get? "__proto__" := by
  by_cases hKey : key = "__proto__"
  · rw [set, if_pos hKey]
    split <;> rfl
  · rw [get?_set hKey, if_neg (Ne.symm hKey)]

theorem properties_plain {d : Destination V} (h : d.prototype = none) :
    d.properties values = d.fields := by
  rw [properties, h]
  exact List.append_nil _

end Destination

namespace Copyable
variable {V : Type} {fields : List (String × V)}

theorem ordinary (h : Copyable fields) {f : String × V} (hf : f ∈ fields) :
    Destination.Ordinary f.1 :=
  ⟨fun hKey => h.id (hKey ▸ List.mem_map_of_mem hf), fun hKey => h.version (hKey ▸ List.mem_map_of_mem hf),
    fun hKey => h.proto (hKey ▸ List.mem_map_of_mem hf)⟩

theorem of_keys {W : Type} {fields' : List (String × W)} (h : Copyable fields)
    (hKeys : (fields'.map (·.1)).Perm (fields.map (·.1))) : Copyable fields' where
  nodup := hKeys.nodup_iff.mpr h.nodup
  id hIn := h.id (hKeys.mem_iff.mp hIn)
  version hIn := h.version (hKeys.mem_iff.mp hIn)
  proto hIn := h.proto (hKeys.mem_iff.mp hIn)

theorem filter (h : Copyable fields) (keeps : String × V → Bool) : Copyable (fields.filter keeps) :=
  have hKeys : ((fields.filter keeps).map (·.1)).Sublist (fields.map (·.1)) := List.filter_sublist.map _
  ⟨hKeys.nodup h.nodup, fun hIn => h.id (hKeys.subset hIn), fun hIn => h.version (hKeys.subset hIn),
    fun hIn => h.proto (hKeys.subset hIn)⟩

theorem written (h : Copyable fields) (key : String) : Mappers.written [] fields key = fields.lookup key := by
  unfold Mappers.written
  split
  · rename_i hKey
    obtain hKey | rfl | rfl := hKey
    · cases hKey
    · exact (lookup_eq_none_of_not_mem h.version).symm
    · exact (lookup_eq_none_of_not_mem h.proto).symm
  · rfl

end Copyable

namespace Mappers
open SqlGlobalMapper
variable {ε V : Type} {values : JsValues ε V}

theorem copyKey_kept {options : MapOptions} {d : Destination V} {p : String × V}
    (hOmitted : ¬ (options.omitted.any (p.1 ∈ ·) ∨ p.1 = "__v")) (hGet : ¬ options.get.any (p.1 ∉ ·)) :
    copyKey values options d p =
      if p.1 = "_id" then (values.string p.2).map fun text => d.set values "id" text
      else .ok (d.set values p.1 p.2) := by
  rw [copyKey, if_neg hOmitted, if_neg hGet]

theorem copyKey_default : copyKey values {} = sql values [] := by
  funext d p
  rw [sql_eq, copyKey]
  simp

section Loop
variable {fields : List (String × V)} (hFields : Copyable fields) {d d' : Destination V}
include hFields

variable (values) in
theorem loop_total (d : Destination V) : ∃ d', fields.foldlM (copyKey values {}) d = .ok d' := by
  rw [copyKey_default]
  exact sql_loop_total values [] hFields.id d

variable (hLoop : fields.foldlM (copyKey values {}) d = .ok d')
include hLoop

theorem loop_get? (key : String) : d'.get? key = (fields.lookup key).or (d.get? key) := by
  rw [copyKey_default] at hLoop
  rw [sql_loop_get? hFields.id hFields.nodup hLoop, hFields.written]

theorem loop_plain (hPlain : d.prototype = none ∧ Copyable d.fields) :
    d'.prototype = none ∧ Copyable d'.fields := by
  refine foldlM_induction (P := fun d => d.prototype = none ∧ Copyable d.fields) hPlain ?_ hLoop
  intro p hp d₁ d₂ h hTurn
  obtain ⟨hId, hVersion, hProto⟩ := hFields.ordinary hp
  rw [copyKey_kept (by simpa using hVersion) (by simp), if_neg hId] at hTurn
  cases hTurn
  exact ⟨(Destination.prototype_set hProto).trans h.1, Destination.copyable_set ⟨hId, hVersion, hProto⟩ h.2⟩

end Loop

variable (values) in
/-- `mapClass` makes a copy of such an object. -/
theorem mapClass_holds {d : Destination V} {value : String → Option V} (h : d.Holds value) :
    Makes (mapClass values (some (d.properties values)) {}) value := by
  rw [Destination.properties_plain h.prototype]
  obtain ⟨d', hLoop⟩ := loop_total values h.copyable {}
  have hEmpty : Copyable ({} : Destination V).fields := by constructor <;> simp
  refine ⟨d', hLoop, (loop_plain h.copyable hLoop ⟨rfl, hEmpty⟩).1, fun key => ?_⟩
  rw [loop_get? h.copyable hLoop, ← h.get?]
  exact Option.or_none

/-- No property of a copy is named `__proto__`. -/
theorem get?_proto_mapClass {source : Option (List (String × V))} {options : MapOptions}
    {d : Destination V} (hRun : mapClass values source options = .ok d) : d.get? "__proto__" = none := by
  refine foldlM_induction (P := fun d => d.get? "__proto__" = none) rfl ?_ hRun
  intro p _ d₁ d₂ h hTurn
  rw [copyKey] at hTurn
  split at hTurn
  · cases hTurn
    exact h
  split at hTurn
  · cases hTurn
    exact h
  split at hTurn
  · cases hText : values.string p.2 with
    | error e => simp [hText, Except.map] at hTurn
    | ok text =>
      rw [hText] at hTurn
      cases hTurn
      exact (Destination.get?_proto_set _ _ _).trans h
  · cases hTurn
    exact (Destination.get?_proto_set _ _ _).trans h

/-- A model whose prototype was not written is what the loop leaves. -/
theorem mapClassMethod_ok {α : Type} {js : JsLanguage ε α} {source initial : List (String × JsValue α)}
    {options : MapOptions} {d : Destination (JsValue α)}
    (hLoop : source.foldlM (copyKey js.toJsValues options) { fields := initial } = .ok d)
    (hPrototype : d.prototype = none) :
    mapClassMethod js (some source) (some initial) options = .ok d := by
  rw [mapClassMethod, Option.getD_some]
  simp only [hLoop, bind, Except.bind, hPrototype]
  rfl

theorem mapClassMethod_holds {α : Type} (js : JsLanguage ε α)
    {source initial : List (String × JsValue α)} (hSource : Copyable source) (hInitial : Copyable initial) :
    ∃ d, mapClassMethod js (some source) (some initial) {} = .ok d ∧
      d.Holds fun key => (source.lookup key).or (initial.lookup key) := by
  obtain ⟨d, hLoop⟩ := loop_total js.toJsValues hSource { fields := initial }
  obtain ⟨hPrototype, hFields⟩ := loop_plain hSource hLoop ⟨rfl, hInitial⟩
  exact ⟨d, mapClassMethod_ok hLoop hPrototype, hPrototype, hFields, loop_get? hSource hLoop⟩

end Mappers

end Manejaplus
