import Manejaplus.Persistence.Operations

/-! # The repositories and the `@Transactional` decorator -/
namespace Manejaplus
open Effect
set_option autoImplicit false

namespace UserRepositoryImpl

def save (userEntity : UserEntity) : Async UserEntity := Async.saveUser userEntity

def getUserById (id : String) : Async (Option UserEntity) :=
  Async.findUser { id := some (.val id) }

def updateUser (id : String) (userEntity : UserEntity) : Async UserEntity :=
  Async.saveUser { userEntity with id := .val id }

/-- The values of the where clause; every key the services pass is a column. -/
def conditions (query : UserWhere) : List (Js String) := query.email.toList ++ query.id.toList

def getUserByField (query : UserWhere) : Async (Option UserEntity) :=
  if (conditions query).length = 0 ∨ (conditions query).any (· = .undefined) then
    Async.throw (.error "No se proporcionaron campos válidos para la búsqueda.")
  else Async.findUser query

end UserRepositoryImpl

namespace OtpRepositoryImpl

def save (otpEntity : OtpObject) : Async OtpObject := Async.saveOtp otpEntity

def findByType (type : TypeOtp) (userId : Js String) : Async (Option OtpObject) :=
  Async.findOtp type userId

end OtpRepositoryImpl

/-- The callback of `dataSource.transaction`, between the opening and the end of the transaction. -/
def Transactional.callback {α : Type} (service : Service) (originalMethod : Async α) (manager : Tx) :
    Async α := do
  Async.setManager service (some manager)
  let result ← originalMethod.attempt
  -- the `finally` block; the transaction ends only after it
  Async.setManager service none
  match result with
  | .ok a => do
    Async.commit manager
    return a
  | .error e => do
    Async.rollback manager
    Async.throw e

/-- `@Transactional()`. The two `call…` steps only mark where the decorated call starts and
settles. -/
def Transactional {α : Type} (service : Service) (originalMethod : Async α) : Async α := do
  Async.callStarts
  let result ← Prog.attempt do
    match ← Async.managerOf service with
    | some _ => originalMethod
    | none => do Transactional.callback service originalMethod (← Async.begin)
  Async.callSettles result.isOk
  Prog.ofExcept result

end Manejaplus
