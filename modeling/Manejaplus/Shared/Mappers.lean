import Mathlib.Data.List.Nodup
import Manejaplus.Shared.Json

/-! # `NoSqlGlobalMapper` and `SqlGlobalMapper` on plain objects

A plain object is the list of its enumerable properties, in the order in which
`for … in` goes through them.
-/
namespace Manejaplus
set_option autoImplicit false

/-- What the mappers ask of a value: `String(value)`, which may throw, whether it can be a
prototype, and what `for … in` finds in it. -/
structure JsValues (ε V : Type) where
  string : V → Except ε V
  isPrototype : V → Bool
  entries : V → List (String × V)

/-- `{}` with what has been written into it; no prototype stands for `Object.prototype`. -/
structure Destination (V : Type) where
  fields : List (String × V) := []
  prototype : Option V := none
  deriving DecidableEq, Repr

namespace Destination
variable {ε V : Type}

def assign (key : String) (value : V) : List (String × V) → List (String × V)
  | [] => [(key, value)]
  | (k, v) :: fields => if k = key then (k, value) :: fields else (k, v) :: assign key value fields

/-- `destination[key] = value` -/
def set (values : JsValues ε V) (key : String) (value : V) (d : Destination V) : Destination V :=
  if key = "__proto__" then
    if values.isPrototype value then { d with prototype := some value } else d
  else { d with fields := assign key value d.fields }

def get? (d : Destination V) (key : String) : Option V := d.fields.lookup key

/-- The two are the same object, whatever the order of their keys. -/
def Same (d d' : Destination V) : Prop :=
  d.prototype = d'.prototype ∧ ∀ key, d.get? key = d'.get? key

end Destination

namespace Mappers.NoSqlGlobalMapper
variable {ε V : Type} (values : JsValues ε V)

def copyKey (omitKeys : List String) (destination : Destination V) (property : String × V) :
    Except ε (Destination V) :=
  if property.1 ∉ omitKeys ∧ property.1 ≠ "_id" then
    .ok (destination.set values property.1 property.2)
  else if property.1 = "_id" then
    (values.string property.2).map fun text => destination.set values "id" text
  else .ok destination

/-- `mapClass`; `none` is `null`. -/
def mapClass (source : Option (List (String × V))) (attributesOmit : List String) :
    Except ε (Destination V) :=
  match source with
  | none => .ok {}
  | some source =>
    let mappedSource := match source.lookup "_doc" with
      | some document => values.entries document
      | none => source
    mappedSource.foldlM (copyKey values (attributesOmit ++ ["__v"])) {}

end Mappers.NoSqlGlobalMapper

namespace Mappers.SqlGlobalMapper
variable {ε V : Type} (values : JsValues ε V)

structure MapOptions where
  omitted : Option (List String) := none
  get : Option (List String) := none

def copyKey (options : MapOptions) (destination : Destination V) (property : String × V) :
    Except ε (Destination V) :=
  if options.omitted.any (property.1 ∈ ·) ∨ property.1 = "__v" then .ok destination
  else if options.get.any (property.1 ∉ ·) then .ok destination
  else if property.1 = "_id" then
    (values.string property.2).map fun text => destination.set values "id" text
  else .ok (destination.set values property.1 property.2)

/-- `mapClass`; a loop over the keys of `null` has no turn. -/
def mapClass (source : Option (List (String × V))) (options : MapOptions) :
    Except ε (Destination V) :=
  (source.getD []).foldlM (copyKey values options) {}

end Mappers.SqlGlobalMapper

namespace Destination
variable {ε V : Type} {values : JsValues ε V}

theorem lookup_assign (key key' : String) (value : V) (fields : List (String × V)) :
    (assign key value fields).lookup key' =
      if key' = key then some value else fields.lookup key' := by
  induction fields with
  | nil => exact lookup_cons_if key key' value []
  | cons f fields ih =>
    obtain ⟨k, v⟩ := f
    rw [assign, lookup_cons_if]
    by_cases hk : k = key
    · subst hk
      rw [if_pos rfl, lookup_cons_if]
      by_cases hKey : key' = k <;> simp [hKey]
    · rw [if_neg hk, lookup_cons_if, ih]
      by_cases hKey : key' = k
      · subst hKey
        simp [hk]
      · simp [hKey]

theorem get?_set {key key' : String} {value : V} {d : Destination V} (hKey : key ≠ "__proto__") :
    (d.set values key value).get? key' = if key' = key then some value else d.get? key' := by
  rw [set, if_neg hKey]
  exact lookup_assign key key' value d.fields

theorem get?_set_cases {key k : String} {value w : V} {d : Destination V}
    (h : (d.set values key value).get? k = some w) : w = value ∨ d.get? k = some w := by
  unfold set at h
  split at h
  · split at h <;> exact .inr h
  · rw [get?, lookup_assign] at h
    split at h
    · exact .inl (Option.some.inj h).symm
    · exact .inr h

end Destination

/-- What each turn of a loop that ends well preserves, the loop preserves. -/
theorem foldlM_induction {ε σ α : Type} {P : σ → Prop} {step : σ → α → Except ε σ} {items : List α}
    {start final : σ} (hStart : P start)
    (hStep : ∀ a ∈ items, ∀ d d', P d → step d a = .ok d' → P d')
    (hRun : items.foldlM step start = .ok final) : P final := by
  induction items generalizing start with
  | nil =>
    cases hRun
    exact hStart
  | cons a items ih =>
    rw [List.foldlM_cons] at hRun
    cases hTurn : step start a with
    | error e => simp [hTurn, bind, Except.bind] at hRun
    | ok d =>
      rw [hTurn] at hRun
      exact ih (hStep a List.mem_cons_self _ _ hStart hTurn)
        (fun b hb => hStep b (List.mem_cons_of_mem _ hb)) hRun

theorem foldlM_congr {ε σ α : Type} {step step' : σ → α → Except ε σ} {items : List α}
    (hStep : ∀ a ∈ items, ∀ d, step d a = step' d a) (start : σ) :
    items.foldlM step start = items.foldlM step' start := by
  induction items generalizing start with
  | nil => rfl
  | cons a items ih =>
    rw [List.foldlM_cons, List.foldlM_cons, hStep a List.mem_cons_self]
    exact congrArg _ (funext fun d => ih (fun b hb => hStep b (List.mem_cons_of_mem _ hb)) d)

namespace Mappers
variable {ε V : Type} {values : JsValues ε V} {omitted : List String}

variable (values omitted) in
/-- A turn of the loop of `NoSqlGlobalMapper`, and one of `SqlGlobalMapper`. -/
abbrev noSql : Destination V → String × V → Except ε (Destination V) :=
  NoSqlGlobalMapper.copyKey values (omitted ++ ["__v"])

variable (values omitted) in
abbrev sql : Destination V → String × V → Except ε (Destination V) :=
  SqlGlobalMapper.copyKey values { omitted := some omitted }

theorem sql_eq (d : Destination V) (p : String × V) : sql values omitted d p =
    if p.1 ∈ omitted ∨ p.1 = "__v" then .ok d
    else if p.1 = "_id" then (values.string p.2).map fun text => d.set values "id" text
    else .ok (d.set values p.1 p.2) := by
  simp [sql, SqlGlobalMapper.copyKey]

theorem noSql_eq_sql {p : String × V} (h : p.1 = "_id" → "_id" ∉ omitted) (d : Destination V) :
    noSql values omitted d p = sql values omitted d p := by
  rw [sql_eq, noSql, NoSqlGlobalMapper.copyKey]
  by_cases hId : p.1 = "_id"
  · simp [hId, h hId]
  · by_cases hOmitted : p.1 ∈ omitted <;> by_cases hVersion : p.1 = "__v" <;>
      simp [hId, hOmitted, hVersion]

/-- What a loop over these properties, without `_id`, writes under a key. -/
def written (omitted : List String) (fields : List (String × V)) (key : String) : Option V :=
  if key ∈ omitted ∨ key = "__v" ∨ key = "__proto__" then none else fields.lookup key

theorem sql_get? {d d' : Destination V} {p : String × V} (hId : p.1 ≠ "_id")
    (hTurn : sql values omitted d p = .ok d') (key : String) :
    d'.get? key = (written omitted [p] key).or (d.get? key) := by
  rw [sql_eq, if_neg hId] at hTurn
  obtain ⟨k, v⟩ := p
  rw [written, lookup_cons_if]
  split at hTurn
  · rename_i hSkipped
    cases hTurn
    by_cases hKey : key = k
    · subst hKey
      rw [if_pos (hSkipped.imp_right Or.inl)]
      rfl
    · simp [hKey]
  · rename_i hCopied
    cases hTurn
    by_cases hProto : k = "__proto__"
    · subst hProto
      have hGet : (d.set values "__proto__" v).get? key = d.get? key := by
        rw [Destination.set, if_pos rfl]
        split <;> rfl
      rw [hGet]
      by_cases hKey : key = "__proto__" <;> simp [hKey]
    · rw [Destination.get?_set hProto]
      by_cases hKey : key = k
      · subst hKey
        rw [if_pos rfl, if_pos rfl, if_neg fun h => h.elim (fun h => hCopied (.inl h))
          fun h => h.elim (fun h => hCopied (.inr h)) hProto]
        rfl
      · simp [hKey]

theorem written_cons {p : String × V} {fields : List (String × V)} (hNew : p.1 ∉ fields.map (·.1))
    (key : String) :
    written omitted (p :: fields) key = (written omitted fields key).or (written omitted [p] key) := by
  obtain ⟨k, v⟩ := p
  unfold written
  split
  · rfl
  · rw [lookup_cons_if, lookup_cons_if]
    by_cases hKey : key = k
    · subst hKey
      simp [lookup_eq_none_of_not_mem hNew]
    · simp [hKey]

theorem mem_of_written {fields : List (String × V)} {key : String} {w : V}
    (h : written omitted fields key = some w) : key ∉ omitted ∧ (key, w) ∈ fields := by
  unfold written at h
  split at h
  · cases h
  · rename_i hCopied
    exact ⟨fun hKey => hCopied (.inl hKey), mem_of_lookup h⟩

variable (values omitted) in
/-- The properties `_id` left out, a turn of the loop never throws. -/
theorem sql_total {p : String × V} (hId : p.1 ≠ "_id") (d : Destination V) :
    ∃ d', sql values omitted d p = .ok d' := by
  rw [sql_eq, if_neg hId]
  split <;> exact ⟨_, rfl⟩

theorem sql_prototype {p : String × V} {d d' e e' : Destination V} (hId : p.1 ≠ "_id")
    (hSame : d.prototype = e.prototype) (hd : sql values omitted d p = .ok d')
    (he : sql values omitted e p = .ok e') : d'.prototype = e'.prototype := by
  rw [sql_eq, if_neg hId] at hd he
  split at hd
  · rename_i hSkipped
    rw [if_pos hSkipped] at he
    cases hd
    cases he
    exact hSame
  · rename_i hCopied
    rw [if_neg hCopied] at he
    cases hd
    cases he
    unfold Destination.set
    split
    · split
      · rfl
      · exact hSame
    · exact hSame

section Loops
variable {fields : List (String × V)} (hId : "_id" ∉ fields.map (·.1))
include hId

variable (values omitted) in
theorem sql_loop_total (d : Destination V) : ∃ d', fields.foldlM (sql values omitted) d = .ok d' := by
  induction fields generalizing d with
  | nil => exact ⟨d, rfl⟩
  | cons p fields ih =>
    rw [List.map_cons, List.mem_cons, not_or] at hId
    obtain ⟨d₁, hTurn⟩ := sql_total values omitted (Ne.symm hId.1) d
    obtain ⟨d', hLoop⟩ := ih hId.2 d₁
    refine ⟨d', ?_⟩
    rw [List.foldlM_cons, hTurn]
    exact hLoop

theorem sql_loop_get? (hKeys : (fields.map (·.1)).Nodup) {d d' : Destination V}
    (hLoop : fields.foldlM (sql values omitted) d = .ok d') (key : String) :
    d'.get? key = (written omitted fields key).or (d.get? key) := by
  induction fields generalizing d with
  | nil =>
    cases hLoop
    simp [written]
  | cons p fields ih =>
    rw [List.map_cons, List.mem_cons, not_or] at hId
    rw [List.map_cons, List.nodup_cons] at hKeys
    obtain ⟨d₁, hTurn⟩ := sql_total values omitted (Ne.symm hId.1) d
    rw [List.foldlM_cons, hTurn] at hLoop
    rw [ih hId.2 hKeys.2 hLoop, sql_get? (Ne.symm hId.1) hTurn, written_cons hKeys.1, Option.or_assoc]

theorem sql_loop_prototype {d d' e e' : Destination V} (hSame : d.prototype = e.prototype)
    (hd : fields.foldlM (sql values omitted) d = .ok d')
    (he : fields.foldlM (sql values omitted) e = .ok e') : d'.prototype = e'.prototype := by
  induction fields generalizing d e with
  | nil =>
    cases hd
    cases he
    exact hSame
  | cons p fields ih =>
    rw [List.map_cons, List.mem_cons, not_or] at hId
    obtain ⟨d₁, hTurn⟩ := sql_total values omitted (Ne.symm hId.1) d
    obtain ⟨e₁, hTurn'⟩ := sql_total values omitted (Ne.symm hId.1) e
    rw [List.foldlM_cons, hTurn] at hd
    rw [List.foldlM_cons, hTurn'] at he
    exact ih hId.2 (sql_prototype (Ne.symm hId.1) hSame hTurn hTurn') hd he

end Loops

end Mappers

/-- Every value with the key it was read under. -/
def JsValues.tagged {ε V : Type} (values : JsValues ε V) : JsValues ε (V × String) where
  string w := (values.string w.1).map fun text => (text, w.2)
  isPrototype w := values.isPrototype w.1
  entries w := (values.entries w.1).map fun f => (f.1, (f.2, f.1))

def tag {V : Type} (source : List (String × V)) : List (String × (V × String)) :=
  source.map fun f => (f.1, (f.2, f.1))

namespace Mappers
variable {ε V : Type} {values : JsValues ε V} {omitted : List String}

/-- No property has a value that was read under an omitted key. -/
def Hidden (omitted : List String) (d : Destination (V × String)) : Prop :=
  ∀ key w, d.get? key = some w → w.2 ∉ omitted

def Hides (omitted : List String) (result : Except ε (Destination (V × String))) : Prop :=
  ∀ d, result = .ok d → Hidden omitted d

/-- The results are the same object, or the same exception. -/
def SameResult : Except ε (Destination V) → Except ε (Destination V) → Prop
  | .ok d, .ok d' => d.Same d'
  | .error e, .error e' => e = e'
  | _, _ => False

variable (values) in
/-- Both mappers make the same of an object, and hide what they are asked to. -/
structure Agrees (source : Option (List (String × V))) (omitted : List String) : Prop where
  same : SameResult (NoSqlGlobalMapper.mapClass values source omitted)
    (SqlGlobalMapper.mapClass values source { omitted := some omitted })
  noSql : Hides omitted (NoSqlGlobalMapper.mapClass values.tagged (source.map tag) omitted)
  sql : Hides omitted
    (SqlGlobalMapper.mapClass values.tagged (source.map tag) { omitted := some omitted })

variable (values) in
/-- An omitted `_id` can be written as a text, and is overwritten by a later `id`. -/
def Overwritten (source : Option (List (String × V))) (omitted : List String) : Prop :=
  ∀ s ∈ source, ∀ before value after, s = before ++ ("_id", value) :: after → "_id" ∈ omitted →
    (∃ text, values.string value = .ok text) ∧ "id" ∈ after.map (·.1) ∧ "id" ∉ omitted

theorem keys_tag (source : List (String × V)) : (tag source).map (·.1) = source.map (·.1) := by
  rw [tag, List.map_map]
  rfl

theorem noSql_mapClass {source : List (String × V)} (hDoc : "_doc" ∉ source.map (·.1)) :
    NoSqlGlobalMapper.mapClass values (some source) omitted =
      source.foldlM (noSql values omitted) {} := by
  rw [NoSqlGlobalMapper.mapClass, lookup_eq_none_of_not_mem hDoc]

theorem hides_sql (source : List (String × V)) :
    Hides omitted ((tag source).foldlM (sql values.tagged omitted) {}) := by
  intro d hRun
  have hEmpty : Hidden omitted ({} : Destination (V × String)) := fun _ _ h => by cases h
  refine foldlM_induction hEmpty ?_ hRun
  intro p hp d d' hHides hTurn key w hw
  obtain ⟨f, hf, rfl⟩ := List.mem_map.mp hp
  rw [sql_eq] at hTurn
  split at hTurn
  · cases hTurn
    exact hHides key w hw
  rename_i hCopied
  have hTag : f.1 ∉ omitted := fun h => hCopied (.inl h)
  split at hTurn
  · cases hText : values.string f.2 with
    | error e => simp [JsValues.tagged, hText, Except.map] at hTurn
    | ok text =>
      simp only [JsValues.tagged, hText, Except.map, Except.ok.injEq] at hTurn
      subst hTurn
      obtain rfl | hOld := Destination.get?_set_cases hw
      · exact hTag
      · exact hHides key w hOld
  · cases hTurn
    obtain rfl | hOld := Destination.get?_set_cases hw
    · exact hTag
    · exact hHides key w hOld

theorem same_refl (r : Except ε (Destination V)) : SameResult r r := by
  cases r with
  | error e => rfl
  | ok d => exact ⟨rfl, fun _ => rfl⟩

/-- The two loops differ at an omitted `_id` only. -/
theorem agrees_of_eq {source : List (String × V)} (hDoc : "_doc" ∉ source.map (·.1))
    (hId : "_id" ∈ omitted → "_id" ∉ source.map (·.1)) : Agrees values (some source) omitted := by
  have hEq : ∀ p ∈ source, p.1 = "_id" → "_id" ∉ omitted := fun p hp hKey hOmitted =>
    hId hOmitted (List.mem_map.mpr ⟨p, hp, hKey⟩)
  have hTagged : ∀ p ∈ tag source, p.1 = "_id" → "_id" ∉ omitted := by
    intro p hp
    obtain ⟨f, hf, rfl⟩ := List.mem_map.mp hp
    exact hEq f hf
  refine ⟨?_, ?_, hides_sql source⟩
  · rw [noSql_mapClass hDoc, foldlM_congr fun p hp d => noSql_eq_sql (hEq p hp) d]
    exact same_refl _
  · rw [Option.map_some, noSql_mapClass ((keys_tag source).symm ▸ hDoc),
      foldlM_congr fun p hp d => noSql_eq_sql (hTagged p hp) d]
    exact hides_sql source

section Omitted
variable {before after : List (String × V)} {value : V} (hBefore : "_id" ∉ before.map (·.1))
  (hAfter : "_id" ∉ after.map (·.1))
include hBefore hAfter

theorem sql_past (hOmitted : "_id" ∈ omitted) : ∃ d d', before.foldlM (sql values omitted) {} = .ok d ∧
    after.foldlM (sql values omitted) d = .ok d' ∧
    (before ++ ("_id", value) :: after).foldlM (sql values omitted) {} = .ok d' := by
  obtain ⟨d, hd⟩ := sql_loop_total values omitted hBefore {}
  obtain ⟨d', hd'⟩ := sql_loop_total values omitted hAfter d
  refine ⟨d, d', hd, hd', ?_⟩
  have hTurn : sql values omitted d ("_id", value) = .ok d := by
    rw [sql_eq, if_pos (.inl hOmitted)]
  rw [List.foldlM_append, hd]
  exact (congrArg (· >>= fun d => after.foldlM (sql values omitted) d) hTurn).trans hd'

theorem noSql_past {d : Destination V} (hd : before.foldlM (sql values omitted) {} = .ok d) :
    (before ++ ("_id", value) :: after).foldlM (noSql values omitted) {} =
      (values.string value).bind fun text =>
        after.foldlM (sql values omitted) (d.set values "id" text) := by
  have hEq : ∀ fields : List (String × V), "_id" ∉ fields.map (·.1) → ∀ p ∈ fields,
      ∀ d, noSql values omitted d p = sql values omitted d p := fun fields hId p hp d =>
    noSql_eq_sql (fun hKey => absurd (List.mem_map.mpr ⟨p, hp, hKey⟩) hId) d
  have hTurn : noSql values omitted d ("_id", value) =
      (values.string value).map fun text => d.set values "id" text := by
    rw [noSql, NoSqlGlobalMapper.copyKey, if_neg fun h => h.2 rfl, if_pos rfl]
  rw [List.foldlM_append, foldlM_congr (hEq before hBefore), hd]
  apply (congrArg (· >>= fun d => after.foldlM (noSql values omitted) d) hTurn).trans
  cases values.string value with
  | error e => rfl
  | ok text => exact foldlM_congr (hEq after hAfter) _

end Omitted

theorem written_id {after : List (String × V)} (h : "id" ∈ after.map (·.1)) (hOmitted : "id" ∉ omitted) :
    ∃ w, written omitted after "id" = some w := by
  have hCopied : ¬ ("id" ∈ omitted ∨ "id" = "__v" ∨ "id" = "__proto__") := by simp [hOmitted]
  rw [written, if_neg hCopied]
  exact exists_lookup_of_mem h

theorem written_id_none {after : List (String × V)} (h : ¬ ("id" ∈ after.map (·.1) ∧ "id" ∉ omitted)) :
    written omitted after "id" = none := by
  cases hWritten : written omitted after "id" with
  | none => rfl
  | some w =>
    obtain ⟨hOmitted, hIn⟩ := mem_of_written hWritten
    exact absurd ⟨List.mem_map_of_mem hIn, hOmitted⟩ h

theorem get?_setId (d : Destination V) (text : V) (key : String) :
    (d.set values "id" text).get? key = if key = "id" then some text else d.get? key :=
  Destination.get?_set (by decide)

section Split
variable {before after : List (String × V)} {value : V}
  (hKeys : ((before ++ ("_id", value) :: after).map (·.1)).Nodup)
include hKeys

theorem parts_nodup : "_id" ∉ before.map (·.1) ∧ "_id" ∉ after.map (·.1) ∧
    (before.map (·.1)).Nodup ∧ (after.map (·.1)).Nodup := by
  rw [List.map_append, List.map_cons, List.nodup_append] at hKeys
  obtain ⟨hBefore, hAfter, hApart⟩ := hKeys
  rw [List.nodup_cons] at hAfter
  exact ⟨fun h => hApart _ h _ List.mem_cons_self rfl, hAfter.1, hBefore, hAfter.2⟩

variable (values) in
/-- The loop of `NoSqlGlobalMapper`, where the text of the `_id` is `text`. -/
theorem noSql_run (hOmitted : "_id" ∈ omitted) {text : V} (hText : values.string value = .ok text) :
    ∃ d final, before.foldlM (sql values omitted) {} = .ok d ∧
      (before ++ ("_id", value) :: after).foldlM (noSql values omitted) {} = .ok final ∧
      (∀ d', after.foldlM (sql values omitted) d = .ok d' → final.prototype = d'.prototype) ∧
      ∀ key, final.get? key =
        (written omitted after key).or (if key = "id" then some text else d.get? key) := by
  obtain ⟨hBefore, hAfter, _, hNodup⟩ := parts_nodup hKeys
  obtain ⟨d, _, hd, _, _⟩ := @sql_past ε V values omitted before after value hBefore hAfter hOmitted
  obtain ⟨final, hFinal⟩ := sql_loop_total values omitted hAfter
    (d.set values "id" text)
  refine ⟨d, final, hd, ?_, fun d' hd' => ?_, fun key => ?_⟩
  · rw [noSql_past hBefore hAfter hd, hText]
    exact hFinal
  · have hSame : (d.set values "id" text).prototype = d.prototype := by
      rw [Destination.set, if_neg (by decide)]
    exact sql_loop_prototype hAfter hSame hFinal hd'
  · rw [sql_loop_get? hAfter hNodup hFinal, get?_setId]

theorem same_of_overwritten (hDoc : "_doc" ∉ (before ++ ("_id", value) :: after).map (·.1))
    (hOmitted : "_id" ∈ omitted) {text : V} (hText : values.string value = .ok text)
    (hLater : "id" ∈ after.map (·.1)) (hId : "id" ∉ omitted) :
    SameResult (NoSqlGlobalMapper.mapClass values (some (before ++ ("_id", value) :: after)) omitted)
      (SqlGlobalMapper.mapClass values (some (before ++ ("_id", value) :: after))
        { omitted := some omitted }) := by
  obtain ⟨hBefore, hAfter, _, hNodup⟩ := parts_nodup hKeys
  obtain ⟨d, final, hd, hFinal, hPrototype, hGet⟩ := noSql_run values hKeys hOmitted hText
  obtain ⟨d₁, d', hd₁, hd', hSql⟩ := @sql_past ε V values omitted before after value hBefore hAfter hOmitted
  cases hd.symm.trans hd₁
  rw [noSql_mapClass hDoc, hFinal, SqlGlobalMapper.mapClass, Option.getD_some]
  rw [show (before ++ ("_id", value) :: after).foldlM
    (SqlGlobalMapper.copyKey values { omitted := some omitted }) {} = .ok d' from hSql]
  refine ⟨hPrototype d' hd', fun key => ?_⟩
  rw [hGet, sql_loop_get? hAfter hNodup hd']
  by_cases hKey : key = "id"
  · subst hKey
    obtain ⟨w, hw⟩ := written_id hLater hId
    rw [hw]
    rfl
  · rw [if_neg hKey]

end Split

section TaggedSplit
variable {before after : List (String × V)} {value : V}
  (hKeys : ((before ++ ("_id", value) :: after).map (·.1)).Nodup)
include hKeys

theorem hides_iff (hDoc : "_doc" ∉ (before ++ ("_id", value) :: after).map (·.1))
    (hOmitted : "_id" ∈ omitted) {text : V} (hText : values.string value = .ok text) :
    Hides omitted (NoSqlGlobalMapper.mapClass values.tagged
        ((some (before ++ ("_id", value) :: after)).map tag) omitted) ↔
      "id" ∈ after.map (·.1) ∧ "id" ∉ omitted := by
  have hSplit : tag (before ++ ("_id", value) :: after) =
      tag before ++ ("_id", (value, "_id")) :: tag after := by simp [tag]
  have hText' : values.tagged.string (value, "_id") = .ok (text, "_id") := by
    simp [JsValues.tagged, hText, Except.map]
  rw [← keys_tag, hSplit] at hKeys hDoc
  obtain ⟨d, final, hd, hFinal, _, hGet⟩ := noSql_run values.tagged hKeys hOmitted hText'
  rw [Option.map_some, hSplit, noSql_mapClass hDoc, hFinal, ← keys_tag after]
  constructor
  · intro hHides
    by_contra hLater
    have hId := hGet "id"
    rw [written_id_none hLater, if_pos rfl] at hId
    exact hHides final rfl "id" _ hId hOmitted
  · rintro ⟨hLater, hId⟩ _ hOk key w hw
    cases hOk
    rw [hGet] at hw
    obtain hWritten | ⟨hNone, hOld⟩ := Option.or_eq_some_iff.mp hw
    · obtain ⟨hKey, hIn⟩ := mem_of_written hWritten
      obtain ⟨f, _, hf⟩ := List.mem_map.mp hIn
      cases hf
      exact hKey
    · split at hOld
      · rename_i hKey
        subst hKey
        obtain ⟨_, hSome⟩ := written_id hLater hId
        cases hNone.symm.trans hSome
      · exact hides_sql before d hd key w hOld

end TaggedSplit

theorem agrees_split {before after : List (String × V)} {value : V}
    (hKeys : ((before ++ ("_id", value) :: after).map (·.1)).Nodup)
    (hDoc : "_doc" ∉ (before ++ ("_id", value) :: after).map (·.1)) (hOmitted : "_id" ∈ omitted) :
    Agrees values (some (before ++ ("_id", value) :: after)) omitted ↔
      (∃ text, values.string value = .ok text) ∧ "id" ∈ after.map (·.1) ∧ "id" ∉ omitted := by
  constructor
  · intro h
    cases hText : values.string value with
    | ok text => exact ⟨⟨text, rfl⟩, (hides_iff hKeys hDoc hOmitted hText).mp h.noSql⟩
    | error e =>
      obtain ⟨hBefore, hAfter, _⟩ := parts_nodup hKeys
      obtain ⟨d, d', hd, _, hSql⟩ :=
        @sql_past ε V values omitted before after value hBefore hAfter hOmitted
      have hSame := h.same
      rw [noSql_mapClass hDoc, noSql_past hBefore hAfter hd, hText, SqlGlobalMapper.mapClass,
        Option.getD_some, hSql] at hSame
      exact hSame.elim
  · rintro ⟨⟨text, hText⟩, hLater, hId⟩
    exact ⟨same_of_overwritten hKeys hDoc hOmitted hText hLater hId,
      (hides_iff hKeys hDoc hOmitted hText).mpr ⟨hLater, hId⟩, hides_sql _⟩

theorem agrees_null : Agrees values none omitted where
  same := same_refl _
  noSql d hRun key w hw := by
    cases hRun
    cases hw
  sql d hRun key w hw := by
    cases hRun
    cases hw

end Mappers

open Mappers in
/-- Where an omitted `_id` is not overwritten, the one mapper shows what the other hides. -/
theorem mapClass_agrees_iff {ε V : Type} {values : JsValues ε V}
    {source : Option (List (String × V))} {omitted : List String}
    (hKeys : ∀ s ∈ source, (s.map (·.1)).Nodup) (hDoc : ∀ s ∈ source, "_doc" ∉ s.map (·.1)) :
    Agrees values source omitted ↔ Overwritten values source omitted := by
  constructor
  · rintro h s hs before value after rfl hOmitted
    cases hs
    exact (agrees_split (hKeys _ rfl) (hDoc _ rfl) hOmitted).mp h
  · intro h
    cases source with
    | none => exact agrees_null
    | some s =>
      by_cases hId : "_id" ∈ omitted ∧ "_id" ∈ s.map (·.1)
      · obtain ⟨hOmitted, hIn⟩ := hId
        obtain ⟨⟨_, value⟩, hProperty, rfl⟩ := List.mem_map.mp hIn
        obtain ⟨before, after, rfl⟩ := List.append_of_mem hProperty
        exact (agrees_split (hKeys _ rfl) (hDoc _ rfl) hOmitted).mpr
          (h _ rfl before value after rfl hOmitted)
      · exact agrees_of_eq (hDoc s rfl) fun hOmitted hIn => hId ⟨hOmitted, hIn⟩

namespace Sample

def texts : JsValues String String where
  string := .ok
  isPrototype _ := false
  entries _ := []

/-- `{ _id: '64f0c2', name: 'acme' }` -/
def document : List (String × String) := [("_id", "64f0c2"), ("name", "acme")]

end Sample

open Mappers in
theorem mapClass_agrees_iff_sample : Agrees Sample.texts (some Sample.document) ["name"] ↔
    Overwritten Sample.texts (some Sample.document) ["name"] :=
  mapClass_agrees_iff (by decide) (by decide)

open Mappers in
/-- Asked to leave out `_id`, the one mapper gives an `id` all the same. -/
theorem not_mapClass_agrees : (Sample.document.map (·.1)).Nodup ∧
    "_doc" ∉ Sample.document.map (·.1) ∧ ¬ Agrees Sample.texts (some Sample.document) ["_id"] :=
  ⟨by decide, by decide, fun hAgrees => absurd (hAgrees.same.2 "id") (by decide)⟩

end Manejaplus
