import Manejaplus.Shared.ClassMapper
import Manejaplus.Users.UserModel

/-! # A user through the model and back

What a login saves is `mapClass` of a `UserModel` that `mapClassMethod` made of a
loaded row.
-/
namespace Manejaplus
set_option autoImplicit false

namespace Mappers.UserModel
variable {ε α : Type} (js : JsLanguage ε α)

/-- `new UserModel()`: the properties with an initial value. -/
def initial : List (String × JsValue α) :=
  [("attemptsFailed", .num 0), ("isVerified", .bool false), ("isBlocked", .bool false), ("origin", .str "web")]

/-- `attemptsFailed++` -/
def increment : JsValue α → Except ε (JsValue α)
  | .num n => .ok (.num (n + 1))
  | .null => .ok (.num 1)
  | attemptsFailed => js.successor attemptsFailed

def reachesLimit : JsValue α → Bool
  | .num n => USER_CONSTANTS.NUMBER_ATTEMPS_TO_BLOCk_USER ≤ n
  | attemptsFailed => js.atLeast attemptsFailed USER_CONSTANTS.NUMBER_ATTEMPS_TO_BLOCk_USER

def incrementFailedAttempts (user : Destination (JsValue α)) : Except ε (Destination (JsValue α)) := do
  let attemptsFailed ← increment js ((user.get? "attemptsFailed").getD .undefined)
  let user := user.set js.toJsValues "attemptsFailed" attemptsFailed
  return if reachesLimit js attemptsFailed then user.set js.toJsValues "isBlocked" (.bool true) else user

end Mappers.UserModel

/-- `mapClass(mapClassMethod(e, UserModel))`, with what is done to the model in between. -/
def Mappers.throughUserModel {ε α : Type} (js : JsLanguage ε α)
    (between : Destination (JsValue α) → Except ε (Destination (JsValue α)))
    (e : List (String × JsValue α)) : Except ε (Destination (JsValue α)) := do
  let user ← SqlGlobalMapper.mapClassMethod js (some e) (some UserModel.initial) {}
  let user ← between user
  SqlGlobalMapper.mapClass js.toJsValues (some (user.properties js.toJsValues)) {}

/-- The columns of `mps_user`, in the order of the entity. -/
def UserEntity.columns : List String :=
  ["id", "name", "email", "password", "phone", "otp", "origin", "attemptsFailed", "isVerified", "isBlocked",
    "accessToken", "refreshToken", "status", "maintainSession", "lastConnection", "createdAt", "updatedAt"]

/-- A row as the repository loads it: a property for every column, of any value or `null`, and a
number of attempts or `null`. -/
structure LoadedRow (α : Type) where
  fields : List (String × JsValue α)
  columns : (fields.map (·.1)).Perm UserEntity.columns
  attempts : Option Int
  attemptsFailed : fields.lookup "attemptsFailed" = some ((attempts.map .num).getD .null)

/-- The row, with one more failed attempt counted. -/
def LoadedRow.counted {α : Type} (row : LoadedRow α) (key : String) : Option (JsValue α) :=
  let attemptsFailed := row.attempts.getD 0 + 1
  if key = "attemptsFailed" then some (.num attemptsFailed)
  else if key = "isBlocked" ∧ USER_CONSTANTS.NUMBER_ATTEMPS_TO_BLOCk_USER ≤ attemptsFailed then
    some (.bool true)
  else row.fields.lookup key

namespace Mappers
variable {ε α : Type} {js : JsLanguage ε α} {e : List (String × JsValue α)}

theorem copyable_initial : Copyable (UserModel.initial (α := α)) := by
  constructor <;> simp [UserModel.initial]

/-- Between the loops, the model is a plain object again. -/
theorem throughUserModel_ok {between : Destination (JsValue α) → Except ε (Destination (JsValue α))}
    {d d' : Destination (JsValue α)} {value : String → Option (JsValue α)}
    (hMethod : SqlGlobalMapper.mapClassMethod js (some e) (some UserModel.initial) {} = .ok d)
    (hBetween : between d = .ok d') (hHolds : d'.Holds value) :
    Makes (throughUserModel js between e) value := by
  obtain ⟨o, hCopy, hPlain, hGet⟩ := mapClass_holds js.toJsValues hHolds
  refine ⟨o, ?_, hPlain, hGet⟩
  simp only [throughUserModel, hMethod, bind, Except.bind, hBetween]
  exact hCopy

theorem throughUserModel_makes {between : Destination (JsValue α) → Except ε (Destination (JsValue α))}
    {value : String → Option (JsValue α)} (hE : Copyable e)
    (hBetween : ∀ d, d.Holds (fun key => (e.lookup key).or (UserModel.initial.lookup key)) →
      ∃ d', between d = .ok d' ∧ d'.Holds value) :
    Makes (throughUserModel js between e) value := by
  obtain ⟨d, hMethod, hModel⟩ := mapClassMethod_holds js hE copyable_initial
  obtain ⟨d', hRun, hHolds⟩ := hBetween d hModel
  exact throughUserModel_ok hMethod hRun hHolds

theorem throughUserModel_plain (hE : Copyable e) :
    Makes (throughUserModel js .ok e) fun key => (e.lookup key).or (UserModel.initial.lookup key) :=
  throughUserModel_makes hE fun d hModel => ⟨d, rfl, hModel⟩

theorem not_throughUserModel_proto (hProto : "__proto__" ∈ e.map (·.1)) :
    ¬ Makes (throughUserModel js .ok e) fun key => (e.lookup key).or (UserModel.initial.lookup key) := by
  rintro ⟨o, hRun, _, hGet⟩
  obtain ⟨w, hw⟩ := exists_lookup_of_mem hProto
  have hLost : o.get? "__proto__" = none := by
    unfold throughUserModel at hRun
    cases hMethod : SqlGlobalMapper.mapClassMethod js (some e) (some UserModel.initial) {} with
    | error err => simp [hMethod, bind, Except.bind] at hRun
    | ok d =>
      rw [hMethod] at hRun
      exact get?_proto_mapClass hRun
  have hKept : o.get? "__proto__" = some w := (hGet "__proto__").trans (congrArg (Option.or · _) hw)
  cases hLost.symm.trans hKept

theorem copyable_row (row : LoadedRow α) : Copyable row.fields := by
  have hColumns : Copyable (UserEntity.columns.map fun key => (key, ())) := by
    constructor <;> decide
  apply hColumns.of_keys
  rw [List.map_map]
  exact row.columns.trans (.of_eq (List.map_id _).symm)

theorem row_or_initial (row : LoadedRow α) (key : String) :
    (row.fields.lookup key).or (UserModel.initial.lookup key) = row.fields.lookup key := by
  cases hRow : row.fields.lookup key with
  | some w => rfl
  | none =>
    cases hInitial : (UserModel.initial (α := α)).lookup key with
    | none => rfl
    | some w =>
      have hKey : key ∈ UserEntity.columns := by
        have hSub : (UserModel.initial (α := α)).map (·.1) ⊆ UserEntity.columns := by
          simp [UserModel.initial, UserEntity.columns]
        exact hSub (List.mem_map_of_mem (mem_of_lookup hInitial))
      obtain ⟨w, hw⟩ := exists_lookup_of_mem (row.columns.mem_iff.mpr hKey)
      cases hRow.symm.trans hw

theorem increment_count (attempts : Option Int) :
    UserModel.increment js ((attempts.map .num).getD .null) = .ok (.num (attempts.getD 0 + 1)) := by
  cases attempts with
  | none => rfl
  | some n => rfl

/-- The method writes the count, and the flag at the limit. -/
theorem incrementFailedAttempts_holds {d : Destination (JsValue α)} {value : String → Option (JsValue α)}
    {attempts attempts' : JsValue α} (h : d.Holds value) (hRead : value "attemptsFailed" = some attempts)
    (hIncrement : UserModel.increment js attempts = .ok attempts') :
    ∃ d', UserModel.incrementFailedAttempts js d = .ok d' ∧ d'.Holds fun key =>
      if key = "attemptsFailed" then some attempts'
      else if key = "isBlocked" ∧ UserModel.reachesLimit js attempts' then some (.bool true) else value key := by
  have hSet : Copyable (d.set js.toJsValues "attemptsFailed" attempts').fields :=
    Destination.copyable_set (by decide) h.copyable
  have hGet : ∀ key, (d.set js.toJsValues "attemptsFailed" attempts').get? key =
      if key = "attemptsFailed" then some attempts' else value key := by
    intro key
    rw [Destination.get?_set (by decide), h.get?]
  unfold UserModel.incrementFailedAttempts
  rw [h.get?, hRead, Option.getD_some, hIncrement]
  cases hLimit : UserModel.reachesLimit js attempts' with
  | false =>
    refine ⟨_, rfl, ?_⟩
    rw [hLimit]
    exact ⟨h.prototype, hSet, fun key => (hGet key).trans (by simp)⟩
  | true =>
    refine ⟨_, rfl, ?_⟩
    rw [hLimit, if_pos rfl]
    refine ⟨h.prototype, Destination.copyable_set (by decide) hSet, fun key => ?_⟩
    rw [Destination.get?_set (by decide), hGet]
    by_cases hKey : key = "isBlocked"
    · subst hKey
      simp
    · simp [hKey]

theorem throughUserModel_row (row : LoadedRow α) :
    Makes (throughUserModel js .ok row.fields) fun key => row.fields.lookup key := by
  apply throughUserModel_makes (copyable_row row)
  intro d hModel
  exact ⟨d, rfl, hModel.prototype, hModel.copyable, fun key => (hModel.get? key).trans (row_or_initial row key)⟩

theorem throughUserModel_counted (row : LoadedRow α) :
    Makes (throughUserModel js (UserModel.incrementFailedAttempts js) row.fields) row.counted := by
  apply throughUserModel_makes (copyable_row row)
  intro d hModel
  have hRead := (row_or_initial row "attemptsFailed").trans row.attemptsFailed
  obtain ⟨d', hRun, hHolds⟩ := incrementFailedAttempts_holds hModel hRead (increment_count row.attempts)
  refine ⟨d', hRun, hHolds.prototype, hHolds.copyable, fun key => ?_⟩
  rw [hHolds.get?, row_or_initial, LoadedRow.counted]
  simp [UserModel.reachesLimit]

/-- The chain keeps what an object has, `__proto__` apart, and changes nothing of a row but what
the method counts. -/
theorem throughUserModel_keeps (js : JsLanguage ε α) {e : List (String × JsValue α)}
    (hKeys : (e.map (·.1)).Nodup) (hId : "_id" ∉ e.map (·.1)) (hVersion : "__v" ∉ e.map (·.1)) :
    (Makes (throughUserModel js .ok e) (fun key => (e.lookup key).or (UserModel.initial.lookup key)) ↔
      "__proto__" ∉ e.map (·.1)) ∧
    ∀ row : LoadedRow α,
      Makes (throughUserModel js .ok row.fields) (fun key => row.fields.lookup key) ∧
      Makes (throughUserModel js (UserModel.incrementFailedAttempts js) row.fields) row.counted := by
  refine ⟨⟨?_, ?_⟩, fun row => ⟨throughUserModel_row row, throughUserModel_counted row⟩⟩
  · intro hMakes hProto
    exact not_throughUserModel_proto hProto hMakes
  · intro hProto
    exact throughUserModel_plain ⟨hKeys, hId, hVersion, hProto⟩

end Mappers

namespace Sample

/-- The one object there is: `{ isAdmin: true }`. -/
def language : JsLanguage String Unit where
  string
    | .undefined => .ok (.str "undefined")
    | .null => .ok (.str "null")
    | .bool b => .ok (.str (toString b))
    | .num n => .ok (.str (toString n))
    | .str s => .ok (.str s)
    | .other () => .ok (.str "[object Object]")
  isPrototype
    | .null => true
    | .other () => true
    | _ => false
  entries
    | .other () => [("isAdmin", .bool true)]
    | _ => []
  successor value := .ok value
  atLeast _ _ := false
  nullPrototype := "Cannot convert undefined or null to object"

def partialUser : List (String × JsValue Unit) := [("name", .str "ada"), ("attemptsFailed", .null)]

/-- `JSON.parse('{ "name": "ada", "__proto__": { "isAdmin": true } }')` -/
def parsed : List (String × JsValue Unit) := [("name", .str "ada"), ("__proto__", .other ())]

end Sample

namespace Mappers

theorem throughUserModel_keeps_sample :
    (Makes (throughUserModel Sample.language .ok Sample.partialUser)
        (fun key => (Sample.partialUser.lookup key).or (UserModel.initial.lookup key)) ↔
      "__proto__" ∉ Sample.partialUser.map (·.1)) ∧
    ∀ row : LoadedRow Unit,
      Makes (throughUserModel Sample.language .ok row.fields) (fun key => row.fields.lookup key) ∧
      Makes (throughUserModel Sample.language (UserModel.incrementFailedAttempts Sample.language) row.fields)
        row.counted :=
  throughUserModel_keeps Sample.language (by decide) (by decide) (by decide)

/-- A parsed `__proto__` is lost. -/
theorem not_throughUserModel_keeps : ¬ ∀ e : List (String × JsValue Unit), (e.map (·.1)).Nodup →
    "_id" ∉ e.map (·.1) → "__v" ∉ e.map (·.1) →
    Makes (throughUserModel Sample.language .ok e)
      fun key => (e.lookup key).or (UserModel.initial.lookup key) := by
  intro h
  exact not_throughUserModel_proto (by decide) (h Sample.parsed (by decide) (by decide) (by decide))

end Mappers

end Manejaplus
