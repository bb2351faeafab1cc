import Manejaplus.Shared.Js

/-! # User rows, user objects and the mapper between them

`UserEntity` and `UserModel` instances are plain objects with the same
properties, so one record describes both; a property left undefined is a key
the object does not have.
-/
namespace Manejaplus
set_option autoImplicit false

structure RoleRow where
  id : String
  name : String
  description : String
  status : Bool
  deriving DecidableEq, Repr

/-- A row of `mps_user`, with its entries in `mps_user_role`. -/
structure UserRow where
  id : String
  name : String
  email : String
  password : String
  phone : Option String
  otp : Option String
  origin : Option String
  attemptsFailed : Option Nat
  isVerified : Option Bool
  isBlocked : Option Bool
  accessToken : Option String
  refreshToken : Option String
  status : Bool
  maintainSession : Bool
  organization : Option String
  lastConnection : Option Time
  roles : List String
  createdAt : Time
  updatedAt : Time
  deriving DecidableEq, Repr

structure UserObject where
  id : Js String := .undefined
  name : Js String := .undefined
  email : Js String := .undefined
  password : Js String := .undefined
  phone : Js String := .undefined
  otp : Js String := .undefined
  origin : Js String := .undefined
  attemptsFailed : Js Nat := .undefined
  isVerified : Js Bool := .undefined
  isBlocked : Js Bool := .undefined
  accessToken : Js String := .undefined
  refreshToken : Js String := .undefined
  status : Js Bool := .undefined
  maintainSession : Js Bool := .undefined
  lastConnection : Js Time := .undefined
  roles : Js (List RoleRow) := .undefined
  createdAt : Js Time := .undefined
  updatedAt : Js Time := .undefined
  deriving DecidableEq, Repr

abbrev UserEntity := UserObject

abbrev UserModel := UserObject

/-- The entity the manager builds from a row: every column, and no relation. -/
def UserRow.entity (row : UserRow) : UserEntity where
  id := .val row.id
  name := .val row.name
  email := .val row.email
  password := .val row.password
  phone := .ofOption row.phone
  otp := .ofOption row.otp
  origin := .ofOption row.origin
  attemptsFailed := .ofOption row.attemptsFailed
  isVerified := .ofOption row.isVerified
  isBlocked := .ofOption row.isBlocked
  accessToken := .ofOption row.accessToken
  refreshToken := .ofOption row.refreshToken
  status := .val row.status
  maintainSession := .val row.maintainSession
  lastConnection := .ofOption row.lastConnection
  createdAt := .val row.createdAt
  updatedAt := .val row.updatedAt

namespace UserRow

def roleIds : Js (List RoleRow) → Js (List String)
  | .undefined => .undefined
  | .null => .null
  | .val roles => .val (roles.map (·.id))

/-- The row after a save of the object over it; `none` when a `NOT NULL` column gets `null`. -/
def write (e : UserEntity) (row : UserRow) : Option UserRow := do
  let name ← e.name.writeNotNull row.name
  let email ← e.email.writeNotNull row.email
  let password ← e.password.writeNotNull row.password
  let status ← e.status.writeNotNull row.status
  let maintainSession ← e.maintainSession.writeNotNull row.maintainSession
  let createdAt ← e.createdAt.writeNotNull row.createdAt
  some { row with
    name, email, password, status, maintainSession, createdAt
    phone := e.phone.write row.phone
    otp := e.otp.write row.otp
    origin := e.origin.write row.origin
    attemptsFailed := e.attemptsFailed.write row.attemptsFailed
    isVerified := e.isVerified.write row.isVerified
    isBlocked := e.isBlocked.write row.isBlocked
    accessToken := e.accessToken.write row.accessToken
    refreshToken := e.refreshToken.write row.refreshToken
    lastConnection := e.lastConnection.write row.lastConnection
    roles := ((roleIds e.roles).write (some row.roles)).getD [] }

/-- The row of an insert: an undefined property takes the default its column declares. -/
def ofEntity (id : String) (now : Time) (e : UserEntity) : Option UserRow := do
  let name ← e.name.required
  let email ← e.email.required
  let password ← e.password.required
  let status ← e.status.writeNotNull true
  let maintainSession ← e.maintainSession.writeNotNull false
  some {
    id, name, email, password, status, maintainSession
    phone := e.phone.write none
    otp := e.otp.write none
    origin := e.origin.write (some "web")
    attemptsFailed := e.attemptsFailed.write (some 0)
    isVerified := e.isVerified.write (some false)
    isBlocked := e.isBlocked.write (some true)
    accessToken := e.accessToken.write none
    refreshToken := e.refreshToken.write none
    organization := none
    lastConnection := e.lastConnection.write none
    roles := ((roleIds e.roles).write (some [])).getD []
    createdAt := now
    updatedAt := now }

/-- After an insert the manager fills in the generated columns, the defaults it let the database
take, and `null` for what may be missing. -/
def returning (row : UserRow) (e : UserEntity) : UserEntity := { e with
  id := .val row.id
  phone := e.phone.assignTo (.ofOption row.phone)
  otp := e.otp.assignTo (.ofOption row.otp)
  origin := e.origin.assignTo (.ofOption row.origin)
  attemptsFailed := e.attemptsFailed.assignTo (.ofOption row.attemptsFailed)
  isVerified := e.isVerified.assignTo (.ofOption row.isVerified)
  isBlocked := e.isBlocked.assignTo (.ofOption row.isBlocked)
  accessToken := e.accessToken.assignTo (.ofOption row.accessToken)
  refreshToken := e.refreshToken.assignTo (.ofOption row.refreshToken)
  lastConnection := e.lastConnection.assignTo (.ofOption row.lastConnection)
  status := e.status.assignTo (.val row.status)
  maintainSession := e.maintainSession.assignTo (.val row.maintainSession)
  createdAt := .val row.createdAt
  updatedAt := .val row.updatedAt }

end UserRow

/-- With `null` for each column that may be missing and has not been set. -/
def UserObject.filled (e : UserEntity) : UserEntity := { e with
  phone := e.phone.orNull
  otp := e.otp.orNull
  origin := e.origin.orNull
  attemptsFailed := e.attemptsFailed.orNull
  isVerified := e.isVerified.orNull
  isBlocked := e.isBlocked.orNull
  accessToken := e.accessToken.orNull
  refreshToken := e.refreshToken.orNull
  lastConnection := e.lastConnection.orNull }

namespace SqlGlobalMapper

structure MapOptions where
  «omit» : Option (List String) := none
  get : Option (List String) := none

/-- The two `continue` tests of the copying loop. -/
def MapOptions.keeps (options : MapOptions) (key : String) : Bool :=
  !(options.«omit».any (·.contains key) || key == "__v") && options.get.all (·.contains key)

/-- The copying loop: `destination[key] = source[key]` for every key that is kept. -/
def copy (options : MapOptions) (source destination : UserObject) : UserObject where
  id := if options.keeps "id" then source.id.assignTo destination.id else destination.id
  name := if options.keeps "name" then source.name.assignTo destination.name else destination.name
  email := if options.keeps "email" then source.email.assignTo destination.email else destination.email
  password :=
    if options.keeps "password" then source.password.assignTo destination.password
    else destination.password
  phone := if options.keeps "phone" then source.phone.assignTo destination.phone else destination.phone
  otp := if options.keeps "otp" then source.otp.assignTo destination.otp else destination.otp
  origin :=
    if options.keeps "origin" then source.origin.assignTo destination.origin else destination.origin
  attemptsFailed :=
    if options.keeps "attemptsFailed" then source.attemptsFailed.assignTo destination.attemptsFailed
    else destination.attemptsFailed
  isVerified :=
    if options.keeps "isVerified" then source.isVerified.assignTo destination.isVerified
    else destination.isVerified
  isBlocked :=
    if options.keeps "isBlocked" then source.isBlocked.assignTo destination.isBlocked
    else destination.isBlocked
  accessToken :=
    if options.keeps "accessToken" then source.accessToken.assignTo destination.accessToken
    else destination.accessToken
  refreshToken :=
    if options.keeps "refreshToken" then source.refreshToken.assignTo destination.refreshToken
    else destination.refreshToken
  status :=
    if options.keeps "status" then source.status.assignTo destination.status else destination.status
  maintainSession :=
    if options.keeps "maintainSession" then source.maintainSession.assignTo destination.maintainSession
    else destination.maintainSession
  lastConnection :=
    if options.keeps "lastConnection" then source.lastConnection.assignTo destination.lastConnection
    else destination.lastConnection
  roles := if options.keeps "roles" then source.roles.assignTo destination.roles else destination.roles
  createdAt :=
    if options.keeps "createdAt" then source.createdAt.assignTo destination.createdAt
    else destination.createdAt
  updatedAt :=
    if options.keeps "updatedAt" then source.updatedAt.assignTo destination.updatedAt
    else destination.updatedAt

def mapClass (source : UserObject) (options : MapOptions := {}) : UserObject :=
  copy options source {}

/-- `new UserModel()`: the class fields that have an initial value. -/
def newUserModel : UserModel where
  attemptsFailed := .val 0
  isVerified := .val false
  isBlocked := .val false
  origin := .val "web"

def mapClassMethod (source : UserObject) (options : MapOptions := {}) : UserModel :=
  copy options source newUserModel

theorem keeps_default (key : String) (hKey : key ≠ "__v") :
    MapOptions.keeps {} key = true := by
  simp [MapOptions.keeps, hKey]

@[simp] theorem mapClass_default (source : UserObject) : mapClass source = source := by
  simp [mapClass, copy, keeps_default]

/-- A row as the repository loads it has every column, so the class fields never show through. -/
@[simp] theorem mapClassMethod_entity (row : UserRow) : mapClassMethod row.entity = row.entity := by
  simp [mapClassMethod, copy, keeps_default, newUserModel, UserRow.entity]

end SqlGlobalMapper

namespace UserRow

@[simp] theorem write_entity (row : UserRow) : row.write row.entity = some row := by
  simp [write, entity, roleIds]

end UserRow

end Manejaplus
