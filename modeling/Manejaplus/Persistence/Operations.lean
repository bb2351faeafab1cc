import Manejaplus.Effect.Program
import Manejaplus.Persistence.Database

/-! # The operations the services await

Repository statements, calls of third-party code, and the transaction steps of
the `@Transactional` decorator. What each does is left to a handler.
-/
namespace Manejaplus
open Effect
set_option autoImplicit false

inductive Exception where
  | badRequest (message : String)
  | unauthorized (message : String)
  | accountNotVerified
  | accountBlocked
  | otpRequired
  | otpWrong
  | verifingAccount
  | error (message : String)
  | typeError
  /-- A statement, signature or mail that failed outside this code. -/
  | external
  deriving DecidableEq, Repr

/-- The decoded payload of a JSON web token: `sub`, and its life in seconds. -/
structure Payload where
  sub : Js UserObject
  iat : Option Nat
  exp : Option Nat
  deriving DecidableEq, Repr

structure MailLocals where
  user : UserObject
  otpCode : Option String := none
  callbackUrl : Option String := none
  deriving DecidableEq, Repr

structure Mail where
  receiver : Js String
  template : String
  locals : MailLocals
  deriving DecidableEq, Repr

/-- The services that hold a `BaseRepository`. -/
inductive Service where
  | user
  | auth
  | otp
  deriving DecidableEq, Repr

/-- The `BaseRepository` instances. -/
inductive Repository where
  | user
  | otp
  deriving DecidableEq, Repr

/-- `Object.values(this)` filtered by `instanceof BaseRepository`. -/
def Service.repository : Service → Repository
  | .user => .user
  | .auth => .user
  | .otp => .otp

inductive StoreOp where
  | findUser (q : UserWhere)
  | saveUser (e : UserEntity)
  | findOtp (typeOtp : TypeOtp) (userId : Js String)
  | saveOtp (e : OtpObject)
  | findRoles (ids : List String)
  deriving DecidableEq

inductive OutsideOp where
  | hashPassword (password : Js String)
  | comparePasswords (passwordTry : String) (originalPassword : Js String)
  | signAsync (sub : UserObject) (expiresIn : Nat)
  | decode (token : String)
  | encryptString (str : String)
  | sendEmail (mail : Mail)
  | newDate
  | random
  deriving DecidableEq

/-- A transaction, named by the entity manager that `dataSource.transaction` hands out. -/
abbrev Tx := Nat

inductive TransactionOp where
  | callStarts
  | managerOf (service : Service)
  | begin
  | setManager (service : Service) (manager : Option Tx)
  | commit (tx : Tx)
  | rollback (tx : Tx)
  | callSettles (ok : Bool)
  deriving DecidableEq

inductive Op where
  | store (o : StoreOp)
  | outside (o : OutsideOp)
  | transaction (o : TransactionOp)
  deriving DecidableEq

abbrev StoreOp.Res : StoreOp → Type
  | .findUser _ => Option UserEntity
  | .saveUser _ => UserEntity
  | .findOtp _ _ => Option OtpObject
  | .saveOtp _ => OtpObject
  | .findRoles _ => List RoleRow

abbrev OutsideOp.Res : OutsideOp → Type
  | .hashPassword _ => String
  | .comparePasswords _ _ => Bool
  | .signAsync _ _ => String
  | .decode _ => Option Payload
  | .encryptString _ => String
  | .sendEmail _ => Unit
  | .newDate => Time
  | .random => Nat

abbrev TransactionOp.Res : TransactionOp → Type
  | .managerOf _ => Option Tx
  | .begin => Tx
  | _ => Unit

abbrev services : Signature where
  Op := Op
  Res
    | .store o => o.Res
    | .outside o => o.Res
    | .transaction o => o.Res

/-- An asynchronous function of the services. -/
abbrev Async (α : Type) := Prog services Exception α

namespace Async

def throw {α : Type} (e : Exception) : Async α := Prog.throw e

def findUser (q : UserWhere) : Async (Option UserEntity) :=
  Prog.perform (S := services) (.store (.findUser q))

def saveUser (e : UserEntity) : Async UserEntity :=
  Prog.perform (S := services) (.store (.saveUser e))

def findOtp (typeOtp : TypeOtp) (userId : Js String) : Async (Option OtpObject) :=
  Prog.perform (S := services) (.store (.findOtp typeOtp userId))

def saveOtp (e : OtpObject) : Async OtpObject :=
  Prog.perform (S := services) (.store (.saveOtp e))

def findRoles (ids : List String) : Async (List RoleRow) :=
  Prog.perform (S := services) (.store (.findRoles ids))

def hashPassword (password : Js String) : Async String :=
  Prog.perform (S := services) (.outside (.hashPassword password))

def comparePasswords (passwordTry : String) (originalPassword : Js String) : Async Bool :=
  Prog.perform (S := services) (.outside (.comparePasswords passwordTry originalPassword))

def signAsync (sub : UserObject) (expiresIn : Nat) : Async String :=
  Prog.perform (S := services) (.outside (.signAsync sub expiresIn))

def decode (token : String) : Async (Option Payload) :=
  Prog.perform (S := services) (.outside (.decode token))

def encryptString (str : String) : Async String :=
  Prog.perform (S := services) (.outside (.encryptString str))

def sendEmail (mail : Mail) : Async Unit :=
  Prog.perform (S := services) (.outside (.sendEmail mail))

def newDate : Async Time := Prog.perform (S := services) (.outside .newDate)

def random : Async Nat := Prog.perform (S := services) (.outside .random)

def callStarts : Async Unit := Prog.perform (S := services) (.transaction .callStarts)

def managerOf (service : Service) : Async (Option Tx) :=
  Prog.perform (S := services) (.transaction (.managerOf service))

def begin : Async Tx := Prog.perform (S := services) (.transaction .begin)

def setManager (service : Service) (manager : Option Tx) : Async Unit :=
  Prog.perform (S := services) (.transaction (.setManager service manager))

def commit (tx : Tx) : Async Unit := Prog.perform (S := services) (.transaction (.commit tx))

def rollback (tx : Tx) : Async Unit := Prog.perform (S := services) (.transaction (.rollback tx))

def callSettles (ok : Bool) : Async Unit :=
  Prog.perform (S := services) (.transaction (.callSettles ok))

end Async

end Manejaplus
