import Manejaplus.Shared.Json
import Manejaplus.Shared.Strings
import Manejaplus.Tools.ConfigGetCalls

/-! # The check of the configuration, and the library that reads it

Both follow a dotted key through the configuration. What the values of JSON
inherit is left to the runtime.
-/
namespace Manejaplus
set_option autoImplicit false

/-- A value of the configuration, or something that is built in. -/
inductive ConfigValue (ν β : Type) where
  | json (v : Json ν)
  | builtin (b : β)

/-- What a JSON value has besides its fields and items, and what a built-in value has. -/
structure Builtins (ν β : Type) where
  inherited : Json ν → String → Option (ConfigValue ν β)
  member : β → String → Option (ConfigValue ν β)
  isObject : β → Bool

/-- `Cannot read properties of null` -/
structure TypeError where
  reading : String
  deriving DecidableEq, Repr

namespace ConfigValue
variable {ν β : Type} (builtins : Builtins ν β)

/-- The item of an array under a key; `i` is the index of the first. -/
def item (part : String) : Nat → List (Json ν) → Option (Json ν)
  | _, [] => none
  | i, v :: items => if i.repr = part then some v else item part (i + 1) items

def member : ConfigValue ν β → String → Option (ConfigValue ν β)
  | .json (.obj fields), part => ((fields.lookup part).map .json).or (builtins.inherited (.obj fields) part)
  | .json (.arr items), part => ((item part 0 items).map .json).or (builtins.inherited (.arr items) part)
  | .json v, part => builtins.inherited v part
  | .builtin b, part => builtins.member b part

def isNull : ConfigValue ν β → Bool
  | .json .null => true
  | _ => false

/-- `value !== null && typeof value === 'object'` -/
def isObject : ConfigValue ν β → Bool
  | .json v => v.isObject
  | .builtin b => builtins.isObject b

/-- `obj[part]`; `none` is `undefined`. -/
def access (obj : ConfigValue ν β) (part : String) : Except TypeError (Option (ConfigValue ν β)) :=
  if obj.isNull then .error ⟨part⟩ else .ok (obj.member builtins part)

end ConfigValue

/-- `key.split('.')` -/
def keyParts (key : String) : List String := (split '.' key.toList).map String.ofList

namespace SetupEnviroments
variable {ν β : Type} (builtins : Builtins ν β)

/-- `[...new Set(keys)]` -/
def uniqueKeys : List String → List String
  | [] => []
  | key :: keys => key :: (uniqueKeys keys).filter (· ≠ key)

/-- The loop over the parts of a key. -/
def isMissing : ConfigValue ν β → List String → Except TypeError Bool
  | _, [] => .ok false
  | obj, part :: parts => do
    match ← obj.access builtins part with
    | none => return true
    | some value => isMissing value parts

def missingKeys (configFile : ConfigValue ν β) : List String → Except TypeError (List String)
  | [] => .ok []
  | key :: keys => do
    let missing ← isMissing builtins configFile (keyParts key)
    let rest ← missingKeys configFile keys
    return if missing then key :: rest else rest

structure Validation where
  exitCode : Option Nat
  reported : List String
  deriving DecidableEq, Repr

/-- `validate` once the keys have been found. -/
def validateKeys (configFile : ConfigValue ν β) (configKeys : List String) :
    Except TypeError Validation := do
  let missing ← missingKeys builtins configFile (uniqueKeys configKeys)
  return if missing.length > 0 then ⟨some 1, missing⟩ else ⟨none, []⟩

/-- `validate`; `none` if the search for the keys does not end. -/
def validate (configFile : ConfigValue ν β) (projectRoots : List (List DirectoryEntry)) :
    Option (Except TypeError Validation) :=
  (projectRoots.mapM findConfigGetCalls).map fun configKeys =>
    validateKeys builtins configFile configKeys.flatten

end SetupEnviroments

namespace NodeConfig
variable {ν β : Type} (builtins : Builtins ν β)

/-- `getImpl`; a key has at least one part. -/
def getImpl : ConfigValue ν β → List String → Except TypeError (Option (ConfigValue ν β))
  | _, [] => .ok none
  | object, [name] => object.access builtins name
  | object, name :: name' :: elems => do
    match ← object.access builtins name with
    | none => return none
    | some value =>
      if value.isObject builtins then getImpl value (name' :: elems) else return none

/-- `get` throws: the value is undefined. -/
def throws (object : ConfigValue ν β) (parts : List String) : Bool :=
  match getImpl builtins object parts with
  | .ok (some _) => false
  | _ => true

end NodeConfig

namespace CheckEnviroments
open SetupEnviroments NodeConfig
variable {ν β : Type} {builtins : Builtins ν β}

def keysOf (list : List DirectoryEntry) : List String :=
  (sources list).flatMap fun content => (occurrences content).map fun o => key o.2

variable (builtins) in
/-- The value lacks a part of the path, and no `null` stands before it. -/
def Lacks : ConfigValue ν β → List String → Prop
  | _, [] => False
  | obj, part :: parts => obj.isNull = false ∧
      ∀ value, obj.member builtins part = some value → Lacks value parts

variable (builtins) in
/-- No value that the path leads through is `null`, and one that is no object lacks what is left of
the path. -/
def Clear : ConfigValue ν β → List String → Prop
  | _, [] => True
  | obj, part :: parts => obj.isNull = false ∧
      ∀ value, obj.member builtins part = some value → parts ≠ [] →
        if value.isObject builtins then Clear value parts else Lacks builtins value parts

section Steps
variable {obj value : ConfigValue ν β} {part : String} {parts : List String}

theorem isMissing_null (h : obj.isNull = true) :
    isMissing builtins obj (part :: parts) = .error ⟨part⟩ := by
  rw [isMissing, ConfigValue.access, h]
  rfl

theorem isMissing_none (h : obj.isNull = false) (hMember : obj.member builtins part = none) :
    isMissing builtins obj (part :: parts) = .ok true := by
  rw [isMissing, ConfigValue.access, h, hMember]
  rfl

theorem isMissing_some (h : obj.isNull = false) (hMember : obj.member builtins part = some value) :
    isMissing builtins obj (part :: parts) = isMissing builtins value parts := by
  rw [isMissing, ConfigValue.access, h, hMember]
  rfl

theorem throws_none (h : obj.isNull = false) (hMember : obj.member builtins part = none) :
    throws builtins obj (part :: parts) = true := by
  cases parts <;> rw [throws, getImpl, ConfigValue.access, h, hMember] <;> rfl

theorem throws_last (h : obj.isNull = false) (hMember : obj.member builtins part = some value) :
    throws builtins obj [part] = false := by
  rw [throws, getImpl, ConfigValue.access, h, hMember]
  rfl

theorem throws_some {part' : String} (h : obj.isNull = false)
    (hMember : obj.member builtins part = some value) :
    throws builtins obj (part :: part' :: parts) =
      if value.isObject builtins then throws builtins value (part' :: parts) else true := by
  have hGet : getImpl builtins obj (part :: part' :: parts) =
      if value.isObject builtins then getImpl builtins value (part' :: parts) else .ok none := by
    rw [getImpl, ConfigValue.access, h, hMember]
    rfl
  rw [throws, hGet]
  cases hObject : value.isObject builtins <;> rfl

end Steps

theorem lacks_iff {obj : ConfigValue ν β} {parts : List String} :
    Lacks builtins obj parts ↔ isMissing builtins obj parts = .ok true := by
  induction parts generalizing obj with
  | nil => exact iff_of_false id (by intro h; cases h)
  | cons part parts ih =>
    rw [Lacks]
    cases hNull : obj.isNull with
    | true =>
      rw [isMissing_null hNull]
      exact iff_of_false (fun h => nomatch h.1) (fun h => nomatch h)
    | false =>
      rw [and_iff_right rfl]
      cases hMember : obj.member builtins part with
      | none => exact iff_of_true nofun (isMissing_none hNull hMember)
      | some value =>
        rw [isMissing_some hNull hMember, ← ih]
        exact ⟨fun h => h value rfl, fun h _ hv => Option.some.inj hv ▸ h⟩

/-- Where the path is clear, the loop tells whether the library throws. -/
theorem clear_iff {obj : ConfigValue ν β} {parts : List String} (hParts : parts ≠ []) :
    Clear builtins obj parts ↔
      isMissing builtins obj parts = .ok (throws builtins obj parts) := by
  induction parts generalizing obj with
  | nil => exact absurd rfl hParts
  | cons part parts ih =>
    rw [Clear]
    cases hNull : obj.isNull with
    | true =>
      rw [isMissing_null hNull]
      exact iff_of_false (fun h => nomatch h.1) (fun h => nomatch h)
    | false =>
      rw [and_iff_right rfl]
      cases hMember : obj.member builtins part with
      | none =>
        rw [isMissing_none hNull hMember, throws_none hNull hMember]
        exact iff_of_true nofun rfl
      | some value =>
        rw [isMissing_some hNull hMember]
        cases parts with
        | nil =>
          rw [throws_last hNull hMember]
          exact iff_of_true (fun _ _ h => absurd rfl h) rfl
        | cons part' parts =>
          rw [throws_some hNull hMember]
          have hOnly : (∀ v, some value = some v → part' :: parts ≠ [] →
              if v.isObject builtins then Clear builtins v (part' :: parts)
              else Lacks builtins v (part' :: parts)) ↔
              if value.isObject builtins then Clear builtins value (part' :: parts)
              else Lacks builtins value (part' :: parts) :=
            ⟨fun h => h value rfl (List.cons_ne_nil _ _), fun h _ hv _ => Option.some.inj hv ▸ h⟩
          rw [hOnly]
          split
          · exact ih (List.cons_ne_nil _ _)
          · exact lacks_iff

theorem validate_eq (builtins : Builtins ν β) (configFile : ConfigValue ν β)
    (projectRoots : List (List DirectoryEntry)) : validate builtins configFile projectRoots =
      some (validateKeys builtins configFile (projectRoots.flatMap keysOf)) := by
  have hKeys : projectRoots.mapM findConfigGetCalls = some (projectRoots.map keysOf) := by
    induction projectRoots with
    | nil => rfl
    | cons root projectRoots ih => rw [List.mapM_cons, findConfigGetCalls_eq, ih]; rfl
  rw [validate, hKeys]
  rfl

theorem keyParts_ne_nil (key : String) : keyParts key ≠ [] := by
  have hSplit : ∀ cs, split '.' cs ≠ [] := by
    intro cs
    cases cs with
    | nil => exact List.cons_ne_nil _ _
    | cons c cs =>
      rw [split]
      split
      · exact List.cons_ne_nil _ _
      · split <;> exact List.cons_ne_nil _ _
  exact fun h => hSplit _ (List.map_eq_nil_iff.mp h)

theorem mem_uniqueKeys {key : String} {keys : List String} : key ∈ uniqueKeys keys ↔ key ∈ keys := by
  induction keys with
  | nil => exact Iff.rfl
  | cons k keys ih =>
    rw [uniqueKeys, List.mem_cons, List.mem_filter, ih, List.mem_cons, decide_eq_true_eq]
    by_cases hKey : key = k <;> simp [hKey]

theorem nodup_uniqueKeys (keys : List String) : (uniqueKeys keys).Nodup := by
  induction keys with
  | nil => exact List.nodup_nil
  | cons k keys ih =>
    rw [uniqueKeys, List.nodup_cons]
    exact ⟨fun h => by simpa using (List.mem_filter.mp h).2, ih.filter _⟩

theorem missingKeys_ok {configFile : ConfigValue ν β} {keys missing : List String} :
    missingKeys builtins configFile keys = .ok missing ↔
      (∀ key ∈ keys, ∃ b, isMissing builtins configFile (keyParts key) = .ok b) ∧
        missing = keys.filter fun key =>
          match isMissing builtins configFile (keyParts key) with
          | .ok b => b
          | .error _ => false := by
  induction keys generalizing missing with
  | nil =>
    rw [missingKeys, Except.ok.injEq]
    exact ⟨fun h => ⟨nofun, h.symm⟩, fun h => h.2.symm⟩
  | cons key keys ih =>
    rw [missingKeys, List.forall_mem_cons, List.filter_cons]
    cases hKey : isMissing builtins configFile (keyParts key) with
    | error e => exact iff_of_false (fun h => nomatch h) fun ⟨⟨⟨_, h⟩, _⟩, _⟩ => nomatch h
    | ok b =>
      cases hRest : missingKeys builtins configFile keys with
      | error e =>
        refine iff_of_false (fun h => nomatch h) fun ⟨⟨_, hAll⟩, _⟩ => ?_
        cases hRest.symm.trans (ih.mpr ⟨hAll, rfl⟩)
      | ok rest =>
        obtain ⟨hAll, rfl⟩ := ih.mp hRest
        exact ⟨fun h => ⟨⟨⟨b, rfl⟩, hAll⟩, (Except.ok.inj h).symm⟩, fun h => congrArg Except.ok h.2.symm⟩

variable (builtins) in
/-- The check ends without an exception, and reports exactly the keys that the library throws at. -/
def Validates (configFile : ConfigValue ν β) (configKeys : List String) : Prop :=
  ∃ validation, validateKeys builtins configFile configKeys = .ok validation ∧
    (validation.exitCode = some 1 ↔
      ∃ key ∈ configKeys, throws builtins configFile (keyParts key) = true) ∧
    validation.reported.Nodup ∧
    ∀ key, key ∈ validation.reported ↔
      key ∈ configKeys ∧ throws builtins configFile (keyParts key) = true

theorem validateKeys_ok {configFile : ConfigValue ν β} {configKeys : List String}
    {validation : Validation} (h : validateKeys builtins configFile configKeys = .ok validation) :
    missingKeys builtins configFile (uniqueKeys configKeys) = .ok validation.reported ∧
      (validation.exitCode = some 1 ↔ validation.reported ≠ []) := by
  rw [validateKeys] at h
  cases hMissing : missingKeys builtins configFile (uniqueKeys configKeys) with
  | error e =>
    rw [hMissing] at h
    cases h
  | ok missing =>
    rw [hMissing] at h
    have hValidation : (if missing.length > 0 then (⟨some 1, missing⟩ : Validation) else ⟨none, []⟩) =
        validation := Except.ok.inj h
    cases missing with
    | nil =>
      rw [← hValidation]
      exact ⟨rfl, by simp⟩
    | cons key missing =>
      rw [← hValidation]
      exact ⟨rfl, iff_of_true rfl (List.cons_ne_nil _ _)⟩

theorem mem_missing {configFile : ConfigValue ν β} {keys missing : List String}
    (h : missingKeys builtins configFile keys = .ok missing) (key : String) :
    key ∈ missing ↔ key ∈ keys ∧ isMissing builtins configFile (keyParts key) = .ok true := by
  obtain ⟨_, rfl⟩ := missingKeys_ok.mp h
  rw [List.mem_filter]
  apply and_congr_right
  intro _
  cases isMissing builtins configFile (keyParts key) with
  | error e => exact iff_of_false Bool.false_ne_true (fun h => nomatch h)
  | ok b => rw [Except.ok.injEq]

end CheckEnviroments

open CheckEnviroments SetupEnviroments NodeConfig in
/-- The check agrees with the library exactly on clear paths. -/
theorem validates_iff {ν β : Type} (builtins : Builtins ν β) (configFile : ConfigValue ν β)
    (configKeys : List String) :
    Validates builtins configFile configKeys ↔
      ∀ key ∈ configKeys, Clear builtins configFile (keyParts key) := by
  constructor
  · rintro ⟨validation, hOk, _, _, hReported⟩ key hKey
    obtain ⟨hMissing, _⟩ := validateKeys_ok hOk
    have hUnique := mem_uniqueKeys.mpr hKey
    obtain ⟨b, hb⟩ := (missingKeys_ok.mp hMissing).1 key hUnique
    have hIn := mem_missing hMissing key
    rw [hReported, and_iff_right hKey, and_iff_right hUnique, hb, Except.ok.injEq] at hIn
    rw [clear_iff (keyParts_ne_nil key), hb, Except.ok.injEq, Bool.eq_iff_iff, hIn]
  · intro hClear
    have hKeys : ∀ key ∈ uniqueKeys configKeys, isMissing builtins configFile (keyParts key) =
        .ok (throws builtins configFile (keyParts key)) := fun key hKey =>
      (clear_iff (keyParts_ne_nil key)).mp (hClear key (mem_uniqueKeys.mp hKey))
    have hEnds : ∃ validation, validateKeys builtins configFile configKeys = .ok validation := by
      rw [validateKeys, missingKeys_ok.mpr ⟨fun key hKey => ⟨_, hKeys key hKey⟩, rfl⟩]
      exact ⟨_, rfl⟩
    obtain ⟨validation, hOk⟩ := hEnds
    obtain ⟨hMissing, hExit⟩ := validateKeys_ok hOk
    have hReported : ∀ key, key ∈ validation.reported ↔
        key ∈ configKeys ∧ throws builtins configFile (keyParts key) = true := by
      intro key
      rw [mem_missing hMissing, mem_uniqueKeys]
      apply and_congr_right
      intro hKey
      rw [hKeys key (mem_uniqueKeys.mpr hKey), Except.ok.injEq]
    refine ⟨validation, hOk, ?_, ?_, hReported⟩
    · rw [hExit]
      constructor
      · intro hSome
        obtain ⟨key, hIn⟩ := List.exists_mem_of_ne_nil _ hSome
        exact ⟨key, (hReported key).mp hIn⟩
      · rintro ⟨key, hThrows⟩
        exact List.ne_nil_of_mem ((hReported key).mpr hThrows)
    · rw [(missingKeys_ok.mp hMissing).2]
      exact (nodup_uniqueKeys configKeys).filter _

namespace Sample

/-- The prototypes are left out. -/
def builtins : Builtins Nat Empty where
  inherited _ _ := none
  member b := nomatch b
  isObject b := nomatch b

/-- `{ DB: null }` -/
def configFile : ConfigValue Nat Empty := .json (.obj [("DB", .null)])

end Sample

open CheckEnviroments in
/-- Half-way down the path stands a `null`, and the check itself throws. -/
theorem not_validates : ¬ Validates Sample.builtins Sample.configFile ["DB.HOST"] := by
  rintro ⟨_, hOk, _⟩
  cases hOk

end Manejaplus
