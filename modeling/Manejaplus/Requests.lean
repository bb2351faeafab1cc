import Manejaplus.Effect.History
import Manejaplus.Users.UserService

/-! # Requests, and what the world outside the services does

The handlers below run the services one request at a time (`alone`) or operation
by operation among others (`shared`).
-/
namespace Manejaplus
open Effect
set_option autoImplicit false

/-- Third-party functions, as pure functions of their random input. -/
structure Env where
  cases : CaseMapping
  compare : String → String → Bool
  hash : String → String → String
  sign : Payload → String
  decode : String → Option Payload
  encrypt : String → String → String
  uuid : String → Option String

/-- What one operation takes from outside: a failure, a clock reading, fresh random values. -/
structure Choice where
  fault : Bool := false
  now : Time := 0
  salt : String := ""
  uuid : String := ""
  random : Nat := 0
  deriving DecidableEq, Repr

/-- A token `signAsync` has handed out. -/
structure Issued where
  token : String
  payload : Payload
  deriving DecidableEq, Repr

structure Outside where
  tape : Nat → Choice
  mails : List Mail
  issued : List Issued

namespace Outside

def tick (out : Outside) : Outside := { out with tape := fun n => out.tape (n + 1) }

def payload (c : Choice) (sub : UserObject) (expiresIn : Nat) : Payload where
  sub := .val sub
  iat := some (c.now / 1000)
  exp := some (c.now / 1000 + expiresIn)

def exec (env : Env) (c : Choice) : (o : OutsideOp) → Outside → Except Exception o.Res × Outside
  | .hashPassword (.val password), out =>
    if c.fault then (.error .external, out) else (.ok (env.hash c.salt password), out)
  | .hashPassword _, out => (.error .external, out)
  | .comparePasswords passwordTry (.val original), out =>
    if c.fault then (.error .external, out) else (.ok (env.compare passwordTry original), out)
  | .comparePasswords _ _, out => (.error .external, out)
  | .signAsync sub expiresIn, out =>
    if c.fault then (.error .external, out)
    else
      let payload := payload c sub expiresIn
      (.ok (env.sign payload), { out with issued := out.issued ++ [⟨env.sign payload, payload⟩] })
  | .decode token, out => (.ok (env.decode token), out)
  | .encryptString str, out => (.ok (env.encrypt c.salt str), out)
  | .sendEmail mail, out =>
    if c.fault then (.error .external, out) else (.ok (), { out with mails := out.mails ++ [mail] })
  | .newDate, out => (.ok c.now, out)
  | .random, out => (.ok (c.random % 900000), out)

end Outside

/-- A statement that fails has no effect of its own. -/
def orFail {α : Type} (db : Database) : Option (α × Database) → Except Exception α × Database
  | some (a, db') => (.ok a, db')
  | none => (.error .external, db)

/-- `findBy({ id: In(ids), status: true })`; `none` when an id cannot be read as a uuid. -/
def Database.activeRoles (uuid : String → Option String) (db : Database) (ids : List String) :
    Option (List RoleRow) :=
  (ids.mapM uuid).map fun read => db.roles.filter fun role => read.contains role.id && role.status

def Database.exec (env : Env) (c : Choice) (db : Database) :
    (o : StoreOp) → Except Exception o.Res × Database
  | .findUser q =>
    if c.fault then (.error .external, db)
    else orFail db ((db.users.findOne env.uuid q).map fun row => (row.map UserRow.entity, db))
  | .saveUser e =>
    if c.fault then (.error .external, db)
    else orFail db ((db.users.save env.uuid c.uuid c.now e).map fun (e', users) =>
      (e', { db with users }))
  | .findOtp typeOtp userId =>
    if c.fault then (.error .external, db)
    else (.ok ((db.otps.findByType typeOtp userId).map OtpRow.entity), db)
  | .saveOtp e =>
    if c.fault then (.error .external, db)
    else orFail db ((db.otps.save db.users c.now e).map fun (e', otps) => (e', { db with otps }))
  | .findRoles ids =>
    if c.fault then (.error .external, db)
    else orFail db ((db.activeRoles env.uuid ids).map fun roles => (roles, db))

structure World where
  db : Database
  /-- The database as the open transaction found it. -/
  checkpoint : Database
  outside : Outside

namespace World

def choice (w : World) : Choice := w.outside.tape 0

def execStore (env : Env) (o : StoreOp) (w : World) : Except Exception o.Res × World :=
  let answer := w.db.exec env w.choice o
  (answer.1, { w with db := answer.2, outside := w.outside.tick })

def execOutside (env : Env) (o : OutsideOp) (w : World) : Except Exception o.Res × World :=
  let answer := w.outside.tick.exec env w.choice o
  (answer.1, { w with outside := answer.2 })

/-- The steps of a transaction while nobody else runs. -/
def execTransaction : (o : TransactionOp) → World → Except Exception o.Res × World
  | .callStarts, w => (.ok (), w)
  | .managerOf _, w => (.ok none, w)
  | .begin, w =>
    if w.choice.fault then (.error .external, { w with outside := w.outside.tick })
    else (.ok (0 : Nat), { w with checkpoint := w.db, outside := w.outside.tick })
  | .setManager _ _, w => (.ok (), w)
  | .commit _, w => (.ok (), w)
  | .rollback _, w => (.ok (), { w with db := w.checkpoint })
  | .callSettles _, w => (.ok (), w)

end World

def alone (env : Env) : Handler services Exception World
  | .store o, w => w.execStore env o
  | .outside o, w => w.execOutside env o
  | .transaction o, w => w.execTransaction o

/-- Transactions left aside: every save takes effect at once and stays. -/
def shared (env : Env) : Handler services Exception World
  | .store o, w => w.execStore env o
  | .outside o, w => w.execOutside env o
  | .transaction (.managerOf _), w => (.ok none, w)
  | .transaction .begin, w => (.ok (0 : Nat), w)
  | .transaction .callStarts, w => (.ok (), w)
  | .transaction (.setManager _ _), w => (.ok (), w)
  | .transaction (.commit _), w => (.ok (), w)
  | .transaction (.rollback _), w => (.ok (), w)
  | .transaction (.callSettles _), w => (.ok (), w)

/-- The four fields that the validation pipe leaves of a body. -/
structure CreateUserDto where
  name : String
  email : String
  password : String
  phone : String
  deriving DecidableEq, Repr

inductive Request where
  | createUser (dto : CreateUserDto)
  | loginUser (loginModel : LoginModel)
  | unlockAccount (loginModel : LoginModel)
  | googleLoginUser (user : Option GoogleProfile)
  | refreshToken (loginModel : LoginModel)
  | assignRole (assignRoleModel : AssignRoleModel)
  | verifyAccount (token : String)
  | unlockAccountToken (token : String)
  deriving DecidableEq, Repr

def Request.verifies : Request → Bool
  | .verifyAccount _ => true
  | _ => false

def Request.unlocks : Request → Bool
  | .unlockAccountToken _ => true
  | _ => false

inductive Response where
  | user (user : UserModel)
  | tokens (tokens : JWTTokens)
  | callbackUrl (url : String)
  | account (info : AccountInfo)
  | done
  deriving DecidableEq, Repr

namespace UserController

def createUser (dto : CreateUserDto) : Async UserModel :=
  UserService.createUser (SqlGlobalMapper.mapClassMethod {
    name := .val dto.name
    email := .val dto.email
    password := .val dto.password
    phone := .val dto.phone })

end UserController

def serve (cases : CaseMapping) : Request → Async Response
  | .createUser dto => do return .user (← UserController.createUser dto)
  | .loginUser loginModel => do return .tokens (← AuthService.loginUser loginModel)
  | .unlockAccount loginModel => do return .callbackUrl (← AuthService.unlockAccount loginModel)
  | .googleLoginUser user => do return .tokens (← AuthService.googleLoginUser cases user)
  | .refreshToken loginModel => do
    AuthService.refreshToken loginModel
    return .done
  | .assignRole assignRoleModel => do return .user (← AuthService.assignRole assignRoleModel)
  | .verifyAccount token => do return .account (← AuthService.verifyAccount token)
  | .unlockAccountToken token => do return .account (← AuthService.unlockAccountToken token)

abbrev Outcome := Except Exception Response

def serveAlone (env : Env) (r : Request) (w : World) : Outcome × World :=
  Prog.run (alone env) (serve env.cases r) w

/-! A small outside world to run requests in. -/
namespace Sample

def text : Js String → String
  | .val s => s
  | _ => ""

def sign (p : Payload) : String :=
  "jwt:" ++ (match p.sub with
    | .val sub => text sub.email ++ ":" ++ text sub.id
    | _ => "") ++ ":" ++ toString (p.exp.getD 0)

/-- `decode` reads the tokens of the payloads listed. -/
def env (known : List Payload) : Env where
  cases := ⟨id, id⟩
  compare passwordTry original := original == "hash:" ++ passwordTry
  hash _ password := "hash:" ++ password
  sign := sign
  decode token := known.find? fun p => sign p == token
  encrypt _ str := "aes:" ++ str
  uuid := some

def row : UserRow where
  id := "u"
  name := "Ana"
  email := "ana@x.io"
  password := "hash:pw"
  phone := none
  otp := none
  origin := some "web"
  attemptsFailed := some 0
  isVerified := some true
  isBlocked := some false
  accessToken := none
  refreshToken := none
  status := true
  maintainSession := false
  organization := none
  lastConnection := some 1000
  roles := []
  createdAt := 0
  updatedAt := 0

def noUsers : UserTable := ⟨[], by simp, by simp⟩

def oneUser (row : UserRow) : UserTable := ⟨[row], by simp, by simp⟩

/-- Nothing fails, and every operation takes a second. -/
def world (users : UserTable) : World where
  db := ⟨users, ⟨[], by simp⟩, []⟩
  checkpoint := ⟨users, ⟨[], by simp⟩, []⟩
  outside := ⟨fun n => { now := 1000 * n, uuid := "u" ++ toString n }, [], []⟩

def registration : CreateUserDto := ⟨"Ana", "ana@x.io", "pw", "1"⟩

def profile : GoogleProfile := ⟨"ana@x.io", "Ana", "gid", "google"⟩

def wrongLogin : LoginModel := ⟨"ana@x.io", "no", none⟩

def rightLogin : LoginModel := ⟨"ana@x.io", "pw", none⟩

def payload (email id : String) (exp : Nat) : Payload where
  sub := .val { email := .val email, id := .val id }
  iat := none
  exp := some exp

/-- The tokens of the samples: two that get issued, and one that never is. -/
def tokenEnv : Env :=
  Sample.env [payload "ana@x.io" "u3" 1804, payload "ana@x.io" "u3" 1821, payload "ana@x.io" "u3" 0]

def verifyToken : String := sign (payload "ana@x.io" "u3" 1804)

def unlockToken : String := sign (payload "ana@x.io" "u3" 1821)

def forgedToken : String := sign (payload "ana@x.io" "u3" 0)

end Sample

end Manejaplus
