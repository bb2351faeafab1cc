import Manejaplus.Users.ModelCopies

/-! # The records of users, and the loops over their keys

The services work on records, where a copy is made of all properties at once.
Here the properties of a record are listed, and the loops of the mapper and the
method of the model are run over them.
-/
namespace Manejaplus
set_option autoImplicit false

/-- What a user has that is no primitive. -/
inductive UserContent where
  | date (time : Time)
  | roles (roles : List RoleRow)
  deriving DecidableEq, Repr

/-- The value of a property, where the object has it. -/
def Js.value {α β : Type} (write : β → JsValue α) : Js β → Option (JsValue α)
  | .undefined => none
  | .null => some .null
  | .val b => some (write b)

abbrev Js.number {α : Type} (count : Js Nat) : Option (JsValue α) := count.value fun n : Nat => .num n

namespace Js
variable {α β : Type} {write : β → JsValue α}

theorem value_copy (keeps : Bool) (source target : Js β) :
    (if keeps then source.assignTo target else target).value write =
      ((if keeps then source.value write else none).or (target.value write)) := by
  cases keeps <;> cases source <;> rfl

@[simp] theorem value_val (b : β) : (Js.val b).value write = some (write b) := rfl

@[simp] theorem value_undefined : (Js.undefined).value write = none := rfl

@[simp] theorem value_ofOption (o : Option β) :
    (ofOption o).value write = some ((o.map write).getD .null) := by
  cases o <;> rfl

end Js

namespace UserObject

/-- The properties of a user, in the order of `UserModel`, and the relation of `UserEntity`. -/
def readers : List (String × (UserObject → Option (JsValue UserContent))) :=
  [("id", fun u => u.id.value .str),
    ("name", fun u => u.name.value .str),
    ("email", fun u => u.email.value .str),
    ("password", fun u => u.password.value .str),
    ("phone", fun u => u.phone.value .str),
    ("otp", fun u => u.otp.value .str),
    ("attemptsFailed", fun u => u.attemptsFailed.number),
    ("isVerified", fun u => u.isVerified.value .bool),
    ("isBlocked", fun u => u.isBlocked.value .bool),
    ("origin", fun u => u.origin.value .str),
    ("accessToken", fun u => u.accessToken.value .str),
    ("refreshToken", fun u => u.refreshToken.value .str),
    ("status", fun u => u.status.value .bool),
    ("maintainSession", fun u => u.maintainSession.value .bool),
    ("lastConnection", fun u => u.lastConnection.value fun t => .other (.date t)),
    ("createdAt", fun u => u.createdAt.value fun t => .other (.date t)),
    ("updatedAt", fun u => u.updatedAt.value fun t => .other (.date t)),
    ("roles", fun u => u.roles.value fun roles => .other (.roles roles))]

def fields (u : UserObject) : List (String × Option (JsValue UserContent)) :=
  readers.map fun reader => (reader.1, reader.2 u)

def properties (u : UserObject) : List (String × JsValue UserContent) :=
  u.fields.filterMap fun f => f.2.map (f.1, ·)

theorem keys_fields (u : UserObject) : u.fields.map (·.1) = readers.map (·.1) := by
  rw [fields, List.map_map]
  rfl

theorem lookup_properties (u : UserObject) (key : String) :
    u.properties.lookup key = (readers.lookup key).bind fun read => read u := by
  have hKeys : (u.fields.map (·.1)).Nodup := by
    rw [keys_fields]
    decide
  have hRead : u.fields.lookup key = (readers.lookup key).map fun read => read u :=
    lookup_map_value (fun read : UserObject → Option (JsValue UserContent) => read u) readers key
  rw [properties, lookup_present hKeys, hRead]
  cases readers.lookup key <;> rfl

theorem copyable_properties (u : UserObject) : Copyable u.properties := by
  have hKeys : (u.properties.map (·.1)).Sublist (readers.map (·.1)) := keys_fields u ▸ keys_present u.fields
  exact {
    nodup := hKeys.nodup (by decide)
    id := fun hIn => absurd (hKeys.subset hIn) (by decide)
    version := fun hIn => absurd (hKeys.subset hIn) (by decide)
    proto := fun hIn => absurd (hKeys.subset hIn) (by decide) }

theorem read_copy (options : SqlGlobalMapper.MapOptions) (source destination : UserObject) :
    ∀ c ∈ readers, c.2 (SqlGlobalMapper.copy options source destination) =
      (if options.keeps c.1 then c.2 source else none).or (c.2 destination) := by
  simp only [readers, List.forall_mem_cons]
  simp only [SqlGlobalMapper.copy, Js.value_copy]
  simp

theorem lookup_copy (options : SqlGlobalMapper.MapOptions) (source destination : UserObject) (key : String) :
    (SqlGlobalMapper.copy options source destination).properties.lookup key =
      (if options.keeps key then source.properties.lookup key else none).or
        (destination.properties.lookup key) := by
  rw [lookup_properties, lookup_properties, lookup_properties]
  cases hReader : readers.lookup key with
  | none => simp
  | some read =>
    exact read_copy options source destination (key, read) (mem_of_lookup hReader)

end UserObject

/-- The row of the repository, as the object it is. -/
def UserRow.loaded (row : UserRow) : LoadedRow UserContent where
  fields := row.entity.properties
  columns := by
    simp only [UserObject.properties, UserObject.fields, UserObject.readers, UserRow.entity,
      List.map_cons, List.map_nil, Js.value_val, Js.value_ofOption, Js.value_undefined,
      List.filterMap_cons, List.filterMap_nil, Option.map_some, Option.map_none]
    decide
  attempts := row.attemptsFailed.map Int.ofNat
  attemptsFailed := by
    rw [UserObject.lookup_properties]
    apply (Js.value_ofOption row.attemptsFailed).trans
    rw [Option.map_map]
    rfl

namespace UserObject

/-- The options of the loop. -/
def loopOptions (options : SqlGlobalMapper.MapOptions) : Mappers.SqlGlobalMapper.MapOptions where
  omitted := options.«omit»
  get := options.get

theorem keeps_loopOptions {options : SqlGlobalMapper.MapOptions} {key : String} :
    options.keeps key = true ↔ ¬ ((loopOptions options).omitted.any (key ∈ ·) ∨ key = "__v") ∧
      ¬ (loopOptions options).get.any (key ∉ ·) := by
  obtain ⟨omitted, get⟩ := options
  cases omitted <;> cases get <;> simp [SqlGlobalMapper.MapOptions.keeps, loopOptions]

section Loops
variable {ε V : Type} {values : JsValues ε V} {js : JsLanguage ε UserContent}

theorem copyKey_options (options : SqlGlobalMapper.MapOptions) (d : Destination V) (p : String × V) :
    Mappers.SqlGlobalMapper.copyKey values (loopOptions options) d p =
      if options.keeps p.1 then Mappers.SqlGlobalMapper.copyKey values {} d p else .ok d := by
  by_cases hKeeps : options.keeps p.1 = true
  · obtain ⟨hOmitted, hGet⟩ := keeps_loopOptions.mp hKeeps
    have hVersion : p.1 ≠ "__v" := fun h => hOmitted (.inr h)
    rw [if_pos hKeeps, Mappers.copyKey_kept hOmitted hGet,
      Mappers.copyKey_kept (by simpa using hVersion) (by simp)]
  · rw [if_neg hKeeps, Mappers.SqlGlobalMapper.copyKey]
    split
    · rfl
    rename_i hOmitted
    split
    · rfl
    rename_i hGet
    exact absurd (keeps_loopOptions.mpr ⟨hOmitted, hGet⟩) hKeeps

theorem loop_options (options : SqlGlobalMapper.MapOptions) (fields : List (String × V)) (d : Destination V) :
    fields.foldlM (Mappers.SqlGlobalMapper.copyKey values (loopOptions options)) d =
      (fields.filter fun f => options.keeps f.1).foldlM (Mappers.SqlGlobalMapper.copyKey values {}) d := by
  rw [List.foldlM_filter]
  exact foldlM_congr (fun p _ d => copyKey_options options d p) d

/-- The loops do to the properties what the records of the services do. -/
theorem copy_holds {values : JsValues ε (JsValue UserContent)} (options : SqlGlobalMapper.MapOptions)
    (source destination : UserObject) :
    ∃ d, source.properties.foldlM (Mappers.SqlGlobalMapper.copyKey values (loopOptions options))
        { fields := destination.properties } = .ok d ∧
      d.Holds fun key => (SqlGlobalMapper.copy options source destination).properties.lookup key := by
  have hFields := source.copyable_properties.filter fun f => options.keeps f.1
  obtain ⟨d, hLoop⟩ := Mappers.loop_total values hFields { fields := destination.properties }
  obtain ⟨hPrototype, hCopyable⟩ :=
    Mappers.loop_plain hFields hLoop ⟨rfl, destination.copyable_properties⟩
  refine ⟨d, (loop_options options _ _).trans hLoop, hPrototype, hCopyable, fun key => ?_⟩
  rw [Mappers.loop_get? hFields hLoop, lookup_filter, lookup_copy]
  rfl

theorem mapClass_properties {values : JsValues ε (JsValue UserContent)}
    (options : SqlGlobalMapper.MapOptions) (source : UserObject) :
    Makes (Mappers.SqlGlobalMapper.mapClass values (some source.properties) (loopOptions options))
      fun key => (SqlGlobalMapper.mapClass source options).properties.lookup key := by
  obtain ⟨d, hLoop, hHolds⟩ := copy_holds (ε := ε) options source {}
  exact ⟨d, hLoop, hHolds.prototype, hHolds.get?⟩

variable (js) in
theorem mapClassMethod_properties (options : SqlGlobalMapper.MapOptions) (source : UserObject) :
    ∃ d, Mappers.SqlGlobalMapper.mapClassMethod js (some source.properties)
        (some Mappers.UserModel.initial) (loopOptions options) = .ok d ∧
      d.Holds fun key => (SqlGlobalMapper.mapClassMethod source options).properties.lookup key := by
  obtain ⟨d, hLoop, hHolds⟩ := copy_holds options source SqlGlobalMapper.newUserModel
  refine ⟨d, ?_, hHolds⟩
  exact Mappers.mapClassMethod_ok hLoop hHolds.prototype

theorem read_incrementFailedAttempts (u : UserObject) :
    ∀ c ∈ readers, c.2 (UserModel.incrementFailedAttempts u) =
      if c.1 = "attemptsFailed" then (UserModel.increment u.attemptsFailed).number
      else if c.1 = "isBlocked" ∧ UserModel.reachesLimit (UserModel.increment u.attemptsFailed) then
        some (.bool true)
      else c.2 u := by
  simp only [readers, List.forall_mem_cons]
  cases hLimit : UserModel.reachesLimit (UserModel.increment u.attemptsFailed) <;>
    simp [UserModel.incrementFailedAttempts, hLimit]

theorem lookup_incrementFailedAttempts {u : UserObject} {attempts' : JsValue UserContent} (key : String)
    (hCount : (UserModel.increment u.attemptsFailed).number = some attempts') :
    (UserModel.incrementFailedAttempts u).properties.lookup key =
      if key = "attemptsFailed" then some attempts'
      else if key = "isBlocked" ∧ UserModel.reachesLimit (UserModel.increment u.attemptsFailed) then
        some (.bool true)
      else u.properties.lookup key := by
  rw [lookup_properties, lookup_properties]
  cases hReader : readers.lookup key with
  | none =>
    have hOther : ∀ name ∈ readers.map (·.1), key ≠ name := by
      rintro name hIn rfl
      obtain ⟨read, hRead⟩ := exists_lookup_of_mem hIn
      cases hReader.symm.trans hRead
    rw [if_neg (hOther _ (by decide)), if_neg fun h => hOther _ (by decide) h.1]
    rfl
  | some read =>
    have hRead := read_incrementFailedAttempts u (key, read) (mem_of_lookup hReader)
    rw [hCount] at hRead
    exact hRead

variable (js) in
theorem increment_number {count : Js Nat} (hCount : count ≠ .undefined) :
    ∃ attempts attempts' : JsValue UserContent, count.number = some attempts ∧
      Mappers.UserModel.increment js attempts = .ok attempts' ∧
      (UserModel.increment count).number = some attempts' ∧
      Mappers.UserModel.reachesLimit js attempts' = UserModel.reachesLimit (UserModel.increment count) := by
  cases count with
  | undefined => exact absurd rfl hCount
  | null => exact ⟨.null, .num 1, rfl, rfl, rfl, rfl⟩
  | val n =>
    have hLimit : (USER_CONSTANTS.NUMBER_ATTEMPS_TO_BLOCk_USER : Int) ≤ n + 1 ↔
        USER_CONSTANTS.NUMBER_ATTEMPS_TO_BLOCk_USER ≤ n + 1 := by omega
    exact ⟨.num n, .num (n + 1), rfl, rfl, rfl, decide_eq_decide.mpr hLimit⟩

variable (js) in
theorem incrementFailedAttempts_properties {u : UserObject} {d : Destination (JsValue UserContent)}
    (hCount : u.attemptsFailed ≠ .undefined) (h : d.Holds fun key => u.properties.lookup key) :
    ∃ d', Mappers.UserModel.incrementFailedAttempts js d = .ok d' ∧
      d'.Holds fun key => (UserModel.incrementFailedAttempts u).properties.lookup key := by
  obtain ⟨attempts, attempts', hNumber, hIncrement, hNumber', hLimit⟩ := increment_number js hCount
  have hRead : u.properties.lookup "attemptsFailed" = some attempts :=
    (lookup_properties u "attemptsFailed").trans hNumber
  obtain ⟨d', hRun, hHolds⟩ := Mappers.incrementFailedAttempts_holds h hRead hIncrement
  refine ⟨d', hRun, hHolds.prototype, hHolds.copyable, fun key => ?_⟩
  rw [hHolds.get?, lookup_incrementFailedAttempts key hNumber', hLimit]

/-- What a failed login saves, in the records of the services and key by key. -/
theorem throughUserModel_entity (row : UserRow) :
    Makes (Mappers.throughUserModel js (Mappers.UserModel.incrementFailedAttempts js) row.loaded.fields)
      fun key => (SqlGlobalMapper.mapClass
        (UserModel.incrementFailedAttempts (SqlGlobalMapper.mapClassMethod row.entity))).properties.lookup key := by
  obtain ⟨d, hMethod, hModel⟩ := mapClassMethod_properties js {} row.entity
  have hCount : (SqlGlobalMapper.mapClassMethod row.entity).attemptsFailed ≠ .undefined := by
    rw [SqlGlobalMapper.mapClassMethod_entity]
    exact Js.ofOption_ne_undefined row.attemptsFailed
  obtain ⟨d', hRun, hHolds⟩ := incrementFailedAttempts_properties js hCount hModel
  rw [SqlGlobalMapper.mapClass_default]
  exact Mappers.throughUserModel_ok hMethod hRun hHolds

end Loops

end UserObject

end Manejaplus
