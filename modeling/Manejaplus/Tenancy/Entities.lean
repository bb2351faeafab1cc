import Mathlib.Data.List.TakeWhile
import Manejaplus.Regex.Scan

/-! # The entities of a tenant's schema and of the public one

A class is told by the name that a regular expression finds in its source text.
-/
namespace Manejaplus
open Regex
set_option autoImplicit false

/-- `target` of a table's metadata. -/
inductive EntityTarget (κ : Type) where
  | function (entity : κ)
  | schema (name : String)

/-- `entity.name` and `entity.toString()` -/
structure EntityClasses (κ : Type) where
  name : κ → String
  text : κ → String

namespace TenantService
variable {κ : Type} (classes : EntityClasses κ)

/-- `/class\s+(\w+)/` -/
def classPattern : Pattern := .seq (.text "class".toList) (.seq (.plus space) (.group (.plus word)))

/-- `match ? match[1] : ''` -/
def matchedName (classString : String) : String :=
  match classPattern.search 0 classString.toList with
  | some (_, m) => String.ofList (m.group.getD [])
  | none => ""

/-- The targets of the tables that are classes. -/
def entities (tables : List (EntityTarget κ)) : List κ :=
  tables.filterMap fun
    | .function entity => some entity
    | .schema _ => none

def entitiesToExcludeInClientSchema (ENTITIES_SCHEMA_PUBLIC : List κ) : List String :=
  ENTITIES_SCHEMA_PUBLIC.map fun entity => matchedName (classes.text entity)

def loadEntitiesInSchemaClient (ENTITIES_SCHEMA_PUBLIC : List κ) (tables : List (EntityTarget κ)) :
    List κ :=
  (entities tables).filter fun entity =>
    !(entitiesToExcludeInClientSchema classes ENTITIES_SCHEMA_PUBLIC).contains (classes.name entity)

def loadEntitiesInSchemaPublic (ENTITIES_SCHEMA_PUBLIC : List κ) (tables : List (EntityTarget κ)) :
    List κ :=
  (entities tables).filter fun entity =>
    (entitiesToExcludeInClientSchema classes ENTITIES_SCHEMA_PUBLIC).contains (classes.name entity)

end TenantService

namespace Entities
open TenantService

/-- The text goes on with `class`, white space and this name. -/
def ClassWord (cs name : List Char) : Prop :=
  ∃ blank rest, cs = "class".toList ++ (blank ++ (name ++ rest)) ∧ blank ≠ [] ∧
    (∀ c ∈ blank, space c) ∧ name ≠ [] ∧ (∀ c ∈ name, word c) ∧ ∀ c ∈ rest.head?, ¬ word c

/-- The first name after `class` in a text. -/
def NamesFirst (cs name : List Char) : Prop :=
  ∃ k ≤ cs.length, ClassWord (cs.drop k) name ∧ ∀ j < k, ∀ name', ¬ ClassWord (cs.drop j) name'

theorem takeWhile_word {name rest : List Char} (hName : ∀ c ∈ name, word c)
    (hRest : ∀ c ∈ rest.head?, ¬ word c) :
    (name ++ rest).takeWhile word = name ∧ (name ++ rest).dropWhile word = rest := by
  rw [List.takeWhile_append_of_pos hName, List.dropWhile_append_of_pos hName]
  cases rest with
  | nil => exact ⟨List.append_nil name, rfl⟩
  | cons c rest =>
    have hc : ¬ word c := hRest c rfl
    rw [List.takeWhile_cons_of_neg hc, List.dropWhile_cons_of_neg hc, List.append_nil]
    exact ⟨rfl, rfl⟩

/-- Where the text goes on like that, the name is the group of the match. -/
theorem first_of_classWord {cs name : List Char} (h : ClassWord cs name) :
    ∃ m, classPattern.first cs = some m ∧ m.group = some name := by
  obtain ⟨blank, rest, rfl, hBlank, hSpaces, hName, hWord, hRest⟩ := h
  obtain ⟨hTake, hDrop⟩ := takeWhile_word hWord hRest
  have hGroup : (Pattern.group (.plus word)).first (name ++ rest) = some ⟨name, some name, rest⟩ := by
    have hSome : (name ++ rest).takeWhile word ≠ [] := by rwa [hTake]
    have hPlus := Pattern.first_plus hSome
    rw [hTake, hDrop] at hPlus
    exact Pattern.first_group hPlus
  have hBlankIn : (⟨blank, none, name ++ rest⟩ : Match) ∈
      (Pattern.plus space).readings (blank ++ (name ++ rest)) :=
    Pattern.mem_plus.mpr ⟨blank, _, rfl, hBlank, hSpaces, rfl⟩
  have hInner := Pattern.first_seq hBlankIn hGroup fun m hm m' hm' => by
    obtain ⟨read, left, hEq, _, hRead, rfl⟩ := Pattern.mem_plus.mp hm
    obtain ⟨_, hPlus, _⟩ := Pattern.mem_group.mp hm'
    obtain ⟨w, tail, hLeft, hNil, hw, _⟩ := Pattern.mem_plus.mp hPlus
    obtain ⟨c, cs, rfl⟩ := List.exists_cons_of_ne_nil hName
    obtain ⟨d, ds, rfl⟩ := List.exists_cons_of_ne_nil hNil
    cases hLeft
    obtain ⟨rfl, rfl, hTail⟩ := split_unique hSpaces (not_space_of_word (hWord c List.mem_cons_self))
      hRead (not_space_of_word (hw d List.mem_cons_self)) hEq
    exact congrArg (fun rest => (⟨blank, none, c :: rest⟩ : Match)) hTail.symm
  have hText : (⟨"class".toList, none, blank ++ (name ++ rest)⟩ : Match) ∈
      (Pattern.text "class".toList).readings ("class".toList ++ (blank ++ (name ++ rest))) :=
    Pattern.text_reads _ _
  refine ⟨_, Pattern.first_seq hText hInner fun m hm _ _ => ?_, rfl⟩
  obtain ⟨_, hEq, rfl⟩ := Pattern.mem_text.mp hm
  rw [List.append_cancel_left hEq]

theorem classWord_of_first {cs : List Char} {m : Match} (h : classPattern.first cs = some m) :
    ∃ name, m.group = some name ∧ ClassWord cs name := by
  obtain ⟨_, h₁, _, h₂, _⟩ := Pattern.mem_seq.mp (Pattern.mem_of_first h)
  obtain ⟨_, rfl, rfl⟩ := Pattern.mem_text.mp h₁
  obtain ⟨_, h₃, _, h₄, _⟩ := Pattern.mem_seq.mp h₂
  obtain ⟨blank, left, rfl, hNil, hSpaces, rfl⟩ := Pattern.mem_plus.mp h₃
  obtain ⟨_, h₅, _⟩ := Pattern.mem_group.mp h₄
  obtain ⟨w, tail, hLeft, hw, hWord, _⟩ := Pattern.mem_plus.mp h₅
  have hClass : ClassWord ("class".toList ++ (blank ++ left)) (left.takeWhile word) := by
    refine ⟨blank, left.dropWhile word, by rw [List.takeWhile_append_dropWhile], hNil, hSpaces, ?_,
      fun c hc => List.mem_takeWhile_imp hc, fun c hc hWord => ?_⟩
    · obtain ⟨c, cs, rfl⟩ := List.exists_cons_of_ne_nil hw
      rw [show left = c :: (cs ++ tail) from hLeft,
        List.takeWhile_cons_of_pos (hWord c List.mem_cons_self)]
      exact List.cons_ne_nil _ _
    · have hAll := List.head?_dropWhile_not word left
      rw [hc] at hAll
      simp [hWord] at hAll
  obtain ⟨m', hFirst, hGroup⟩ := first_of_classWord hClass
  cases h.symm.trans hFirst
  exact ⟨_, hGroup, hClass⟩

theorem first_eq_none_iff {cs : List Char} :
    classPattern.first cs = none ↔ ∀ name, ¬ ClassWord cs name := by
  constructor
  · intro h name hClass
    obtain ⟨m, hFirst, _⟩ := first_of_classWord hClass
    cases h.symm.trans hFirst
  · intro h
    cases hFirst : classPattern.first cs with
    | none => rfl
    | some m =>
      obtain ⟨name, _, hClass⟩ := classWord_of_first hFirst
      exact absurd hClass (h name)

theorem classWord_unique {cs name name' : List Char} (h : ClassWord cs name)
    (h' : ClassWord cs name') : name = name' := by
  obtain ⟨m, hFirst, hGroup⟩ := first_of_classWord h
  obtain ⟨m', hFirst', hGroup'⟩ := first_of_classWord h'
  cases hFirst.symm.trans hFirst'
  exact Option.some.inj (hGroup.symm.trans hGroup')

theorem classWord_name {cs name : List Char} (h : ClassWord cs name) :
    name ≠ [] ∧ ∀ c ∈ name, word c := by
  obtain ⟨_, _, _, _, _, hName, hWord, _⟩ := h
  exact ⟨hName, hWord⟩

theorem matchedName_cases (text : String) :
    (∃ name, NamesFirst text.toList name ∧ matchedName text = String.ofList name) ∨
      ((∀ name, ¬ NamesFirst text.toList name) ∧ matchedName text = "") := by
  rw [matchedName]
  cases hSearch : classPattern.search 0 text.toList with
  | some p =>
    obtain ⟨j, m⟩ := p
    obtain ⟨k, hk, _, hFirst, hBefore⟩ := Pattern.search_some hSearch
    obtain ⟨name, hGroup, hClass⟩ := classWord_of_first hFirst
    refine .inl ⟨name, ⟨k, hk, hClass, fun i hi => first_eq_none_iff.mp (hBefore i hi)⟩, ?_⟩
    simp [hGroup]
  | none =>
    refine .inr ⟨fun name ⟨k, hk, hClass, _⟩ => ?_, rfl⟩
    exact first_eq_none_iff.mp (Pattern.search_none hSearch k hk) name hClass

theorem namesFirst_unique {cs name name' : List Char} (h : NamesFirst cs name)
    (h' : NamesFirst cs name') : name = name' := by
  obtain ⟨k, _, hClass, hBefore⟩ := h
  obtain ⟨k', _, hClass', hBefore'⟩ := h'
  obtain hLt | rfl | hGt := Nat.lt_trichotomy k k'
  · exact absurd hClass (hBefore' k hLt name)
  · exact classWord_unique hClass hClass'
  · exact absurd hClass' (hBefore k' hGt name')

theorem matchedName_eq {text name : String} (hName : name ≠ "") :
    matchedName text = name ↔ NamesFirst text.toList name.toList := by
  obtain ⟨found, hFound, hEq⟩ | ⟨hNone, hEq⟩ := matchedName_cases text
  · rw [hEq]
    constructor
    · rintro rfl
      rwa [String.toList_ofList]
    · intro h
      rw [namesFirst_unique hFound h, String.ofList_toList]
  · rw [hEq]
    exact iff_of_false (Ne.symm hName) (hNone _)

theorem namesFirst_of_start {text name rest : List Char} (hText : text = "class ".toList ++ (name ++ rest))
    (hRest : ∀ c ∈ rest.head?, ¬ word c) (hName : name ≠ []) (hWord : ∀ c ∈ name, word c) :
    NamesFirst text name :=
  ⟨0, Nat.zero_le _, ⟨[' '], rest, hText, List.cons_ne_nil _ _, List.all_eq_true.mp rfl, hName, hWord, hRest⟩,
    fun _ hj => absurd hj (Nat.not_lt_zero _)⟩

theorem word_of_namesFirst {cs name : List Char} (h : NamesFirst cs name) :
    name ≠ [] ∧ ∀ c ∈ name, word c := by
  obtain ⟨_, _, hClass, _⟩ := h
  exact classWord_name hClass

section Separation
variable {κ : Type} {classes : EntityClasses κ} {ENTITIES_SCHEMA_PUBLIC : List κ}
  {tables : List (EntityTarget κ)}

variable (classes) in
/-- The source text of a class starts with `class` and its name. -/
def StartsWithName (entity : κ) : Prop :=
  ∃ rest, (classes.text entity).toList = "class ".toList ++ ((classes.name entity).toList ++ rest) ∧
    ∀ c ∈ rest.head?, ¬ word c

variable (classes ENTITIES_SCHEMA_PUBLIC tables) in
/-- The public entities go into the public schema, and only the others to a tenant. -/
structure Separates [DecidableEq κ] : Prop where
  shared : loadEntitiesInSchemaPublic classes ENTITIES_SCHEMA_PUBLIC tables =
    (entities tables).filter (· ∈ ENTITIES_SCHEMA_PUBLIC)
  client : loadEntitiesInSchemaClient classes ENTITIES_SCHEMA_PUBLIC tables =
    (entities tables).filter (· ∉ ENTITIES_SCHEMA_PUBLIC)
  safe : ∀ entity ∈ loadEntitiesInSchemaClient classes ENTITIES_SCHEMA_PUBLIC tables,
    entity ∉ ENTITIES_SCHEMA_PUBLIC

variable (classes ENTITIES_SCHEMA_PUBLIC tables) in
/-- The names of the public entities are made of `\w` only, and no other entity has a name that is
found in the text of a public one. -/
structure Distinguished : Prop where
  word : ∀ entity ∈ entities tables, entity ∈ ENTITIES_SCHEMA_PUBLIC →
    ∀ c ∈ (classes.name entity).toList, word c
  apart : ∀ entity ∈ entities tables, entity ∉ ENTITIES_SCHEMA_PUBLIC →
    ∀ p ∈ ENTITIES_SCHEMA_PUBLIC,
      ¬ NamesFirst (classes.text p).toList (classes.name entity).toList

theorem excluded_iff {entity : κ} (hName : classes.name entity ≠ "") :
    (entitiesToExcludeInClientSchema classes ENTITIES_SCHEMA_PUBLIC).contains (classes.name entity) ↔
      ∃ p ∈ ENTITIES_SCHEMA_PUBLIC,
        NamesFirst (classes.text p).toList (classes.name entity).toList := by
  rw [List.contains_iff_mem, entitiesToExcludeInClientSchema, List.mem_map]
  exact exists_congr fun p => and_congr_right fun _ => matchedName_eq hName

theorem excluded_public {entity : κ} (hName : classes.name entity ≠ "")
    (hText : StartsWithName classes entity) (hIn : entity ∈ ENTITIES_SCHEMA_PUBLIC) :
    (entitiesToExcludeInClientSchema classes ENTITIES_SCHEMA_PUBLIC).contains (classes.name entity) ↔
      ∀ c ∈ (classes.name entity).toList, word c := by
  rw [excluded_iff hName]
  constructor
  · rintro ⟨_, _, hNames⟩
    exact (word_of_namesFirst hNames).2
  · intro hWord
    obtain ⟨rest, hStart, hRest⟩ := hText
    exact ⟨entity, hIn, namesFirst_of_start hStart hRest
      (fun hNil => hName (String.toList_eq_nil_iff.mp hNil)) hWord⟩

variable [DecidableEq κ]

/-- A class is told from the others if its name is excluded exactly when it is public. -/
theorem separates_iff_excluded : Separates classes ENTITIES_SCHEMA_PUBLIC tables ↔
    ∀ entity ∈ entities tables, ((entitiesToExcludeInClientSchema classes
      ENTITIES_SCHEMA_PUBLIC).contains (classes.name entity) ↔ entity ∈ ENTITIES_SCHEMA_PUBLIC) := by
  constructor
  · intro h entity hEntity
    have hShared : entity ∈ loadEntitiesInSchemaPublic classes ENTITIES_SCHEMA_PUBLIC tables ↔
        entity ∈ (entities tables).filter (· ∈ ENTITIES_SCHEMA_PUBLIC) := by rw [h.shared]
    rw [loadEntitiesInSchemaPublic, List.mem_filter, List.mem_filter, decide_eq_true_eq] at hShared
    simpa [hEntity] using hShared
  · intro h
    have hClient : loadEntitiesInSchemaClient classes ENTITIES_SCHEMA_PUBLIC tables =
        (entities tables).filter (· ∉ ENTITIES_SCHEMA_PUBLIC) := by
      apply List.filter_congr
      intro entity hEntity
      rw [Bool.eq_iff_iff, Bool.not_eq_true', decide_eq_true_eq, ← h entity hEntity,
        Bool.not_eq_true]
    refine ⟨List.filter_congr fun entity hEntity => ?_, hClient, fun entity hEntity => ?_⟩
    · rw [Bool.eq_iff_iff, decide_eq_true_eq]
      exact h entity hEntity
    · rw [hClient, List.mem_filter, decide_eq_true_eq] at hEntity
      exact hEntity.2

end Separation

end Entities

open Entities in
/-- The entities are kept apart exactly when the names tell them apart. -/
theorem separates_iff {κ : Type} [DecidableEq κ] {classes : EntityClasses κ}
    {ENTITIES_SCHEMA_PUBLIC : List κ} {tables : List (EntityTarget κ)}
    (hNames : ∀ entity ∈ TenantService.entities tables, classes.name entity ≠ "")
    (hTexts : ∀ p ∈ ENTITIES_SCHEMA_PUBLIC, StartsWithName classes p) :
    Separates classes ENTITIES_SCHEMA_PUBLIC tables ↔
      Distinguished classes ENTITIES_SCHEMA_PUBLIC tables := by
  rw [separates_iff_excluded]
  constructor
  · intro h
    refine ⟨fun entity hEntity hIn => ?_, fun entity hEntity hOther p hp hNames' => ?_⟩
    · exact (excluded_public (hNames entity hEntity) (hTexts entity hIn) hIn).mp
        ((h entity hEntity).mpr hIn)
    · exact hOther ((h entity hEntity).mp ((excluded_iff (hNames entity hEntity)).mpr ⟨p, hp, hNames'⟩))
  · intro h entity hEntity
    by_cases hIn : entity ∈ ENTITIES_SCHEMA_PUBLIC
    · exact iff_of_true ((excluded_public (hNames entity hEntity) (hTexts entity hIn) hIn).mpr
        (h.word entity hEntity hIn)) hIn
    · refine iff_of_false (fun hExcluded => ?_) hIn
      obtain ⟨p, hp, hNames'⟩ := (excluded_iff (hNames entity hEntity)).mp hExcluded
      exact h.apart entity hEntity hIn p hp hNames'

namespace Sample

/-- Classes without a body to speak of, named by themselves. -/
def entityClasses : EntityClasses String where
  name entity := entity
  text entity := "class " ++ entity ++ " extends Base"

end Sample

open Entities in
theorem separates_iff_sample :
    Separates Sample.entityClasses ["UserEntity"] [.function "UserEntity", .function "ProductEntity"] ↔
      Distinguished Sample.entityClasses ["UserEntity"]
        [.function "UserEntity", .function "ProductEntity"] :=
  separates_iff (by decide) (by
    intro p hp
    rw [List.mem_singleton.mp hp]
    exact ⟨" extends Base".toList, by decide, fun _ hc => Option.some.inj hc ▸ by decide⟩)

open Entities in
/-- A public class whose name has a letter beyond ASCII is handed to the tenants. -/
theorem not_separates : ¬ ∀ (classes : EntityClasses String) (ENTITIES_SCHEMA_PUBLIC : List String)
    (tables : List (EntityTarget String)),
    (∀ entity ∈ TenantService.entities tables, classes.name entity ≠ "") →
    (∀ p ∈ ENTITIES_SCHEMA_PUBLIC, StartsWithName classes p) →
    Separates classes ENTITIES_SCHEMA_PUBLIC tables := by
  intro h
  have hSafe := (h Sample.entityClasses ["Dueño"] [.function "Dueño"] (by decide) (by
    intro p hp
    rw [List.mem_singleton.mp hp]
    exact ⟨" extends Base".toList, by decide, fun _ hc => Option.some.inj hc ▸ by decide⟩)).safe
  exact absurd (hSafe "Dueño" (by decide +kernel)) (by decide)

end Manejaplus
