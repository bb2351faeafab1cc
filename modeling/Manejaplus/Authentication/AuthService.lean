import Manejaplus.Users.OtpService

/-! # Credentials, sessions and account tokens -/
namespace Manejaplus
open Effect
set_option autoImplicit false

structure LoginModel where
  email : String
  password : String
  otpCode : Option String := none
  deriving DecidableEq, Repr

structure AssignRoleModel where
  userId : String
  rolesId : List String
  deriving DecidableEq, Repr

/-- What the Google strategy leaves in `req.user`. -/
structure GoogleProfile where
  email : String
  name : String
  id : String
  provider : String
  deriving DecidableEq, Repr

/-- `String.prototype.toUpperCase` and `toLowerCase`, over all of Unicode. -/
structure CaseMapping where
  toUpperCase : String → String
  toLowerCase : String → String

structure JWTTokens where
  accessToken : String
  refreshToken : String
  deriving DecidableEq, Repr

structure AccountInfo where
  email : Js String
  name : Js String
  deriving DecidableEq, Repr

namespace AuthService

def generateJwtToken (data : UserObject) : Async String :=
  Async.signAsync data AUTH.TIME_VERIFY_ACCOUNT

def generateJWTTokens (payload : UserObject) : Async JWTTokens := do
  let accessToken ← Async.signAsync payload AUTH.TIME_ACCESS_TOKEN
  let refreshToken ← Async.signAsync payload AUTH.TIME_REFRESH_TOKEN
  return { accessToken, refreshToken }

def handleFailedLoginAttempt : Option UserEntity → Async Unit
  | some userEntity => do
    let user := UserModel.incrementFailedAttempts (SqlGlobalMapper.mapClassMethod userEntity)
    let _ ← UserRepositoryImpl.save (SqlGlobalMapper.mapClass user)
    return ()
  | none => return ()

/-- `new UnauthorizedException()` -/
def unauthorized : Exception := .unauthorized "Unauthorized"

def invalidCredentials : Exception := .unauthorized "The credentials are not valid"

/-- `!userEntity || !(await comparePasswords(…))` -/
def credentialsFail (loginModel : LoginModel) : Option UserEntity → Async Bool
  | some userEntity => do
    return !(← EncryptionUtil.comparePasswords loginModel.password userEntity.password)
  | none => return true

def validateUserCredentials (loginModel : LoginModel) : Async UserModel := do
  let userEntity ← UserRepositoryImpl.getUserByField { email := some (.val loginModel.email) }
  if ← credentialsFail loginModel userEntity then do
    handleFailedLoginAttempt userEntity
    Async.throw invalidCredentials
  else return SqlGlobalMapper.mapClassMethod (userEntity.getD {})

def checkUserStatus (user : UserModel) : Async Unit :=
  if !user.isVerified.truthy then Async.throw .accountNotVerified
  else if user.isBlocked.truthy then Async.throw .accountBlocked
  else return ()

def hasOtpCode (loginModel : LoginModel) : Bool := loginModel.otpCode.any (· != "")

def handleOtpIfRequired (user : UserModel) (loginModel : LoginModel) : Async Unit := do
  if (← UserModel.validateNeedOtpToLogin user) && !hasOtpCode loginModel then do
    let _ ← OtpService.sendOtpCode .LOGIN_OTP user
    Async.throw .otpRequired
  else if (← UserModel.validateNeedOtpToLogin user) && hasOtpCode loginModel then do
    let isValid ← OtpService.checkOtpCodeIsValid .LOGIN_OTP (loginModel.otpCode.getD "") user.id
    if !isValid then Async.throw .otpWrong else return ()
  else return ()

def handleUserLogin (user : UserModel) : Async JWTTokens := do
  let tokens ← generateJWTTokens { email := user.email, id := user.id }
  let lastConnection ← Async.newDate
  let _ ← UserRepositoryImpl.save (SqlGlobalMapper.mapClass { user with
    accessToken := .val tokens.accessToken
    refreshToken := .val tokens.refreshToken
    lastConnection := .val lastConnection })
  let accessToken ← Async.encryptString tokens.accessToken
  let refreshToken ← Async.encryptString tokens.refreshToken
  return { accessToken, refreshToken }

def loginUser (loginModel : LoginModel) : Async JWTTokens := do
  let user ← validateUserCredentials loginModel
  checkUserStatus user
  handleOtpIfRequired user loginModel
  handleUserLogin user

def unlockAccount (loginModel : LoginModel) : Async String := do
  let user ← validateUserCredentials loginModel
  if user.isVerified.truthy && user.isBlocked.truthy then do
    let token ← generateJwtToken user
    return "https://maicoldev.tech:3001/manejaplusback/auth/unlock-account/" ++ token
  else Async.throw (.badRequest "Account not valid to unlock")

def createGoogleUser (cases : CaseMapping) (profile : GoogleProfile) : Async UserEntity := do
  let passwordEncoded ← EncryptionUtil.hashPassword (.val profile.id)
  let newUser : UserModel := {
    name := .val (cases.toUpperCase profile.name)
    email := .val (cases.toLowerCase profile.email)
    password := .val passwordEncoded
    maintainSession := .val true
    origin := .val profile.provider }
  UserRepositoryImpl.save (SqlGlobalMapper.mapClass newUser)

def findOrCreateGoogleUser (cases : CaseMapping) (profile : GoogleProfile) : Async UserEntity := do
  match ← UserRepositoryImpl.getUserByField { email := some (.val profile.email) } with
  | none => createGoogleUser cases profile
  | some user => return user

def googleLoginUser (cases : CaseMapping) : Option GoogleProfile → Async JWTTokens
  | none => Async.throw (.badRequest "No user from Google")
  | some profile => do
    let user ← findOrCreateGoogleUser cases profile
    handleUserLogin (SqlGlobalMapper.mapClass user)

/-- `const { email, id } = decodedToken.sub`: a missing payload or `sub` is a `TypeError`. -/
def subject : Option Payload → Async UserObject
  | some { sub := .val sub, .. } => return sub
  | _ => Async.throw .typeError

/-- The common body of `verifyAccount` and `unlockAccountToken`: only the flag they set differs. -/
def updateByToken.originalMethod (setFlag : UserEntity → UserEntity) (token : String) :
    Async AccountInfo :=
  Prog.catching
    (do
      let sub ← subject (← Async.decode token)
      let userEntity ←
        UserRepositoryImpl.getUserByField { email := some sub.email, id := some sub.id }
      match userEntity with
      | none => Async.throw .verifingAccount
      | some userEntity => do
        let updatedUserEntity ← UserRepositoryImpl.save (setFlag userEntity)
        return { email := updatedUserEntity.email, name := updatedUserEntity.name })
    fun _ => Async.throw .verifingAccount

def updateByToken (setFlag : UserEntity → UserEntity) (token : String) : Async AccountInfo :=
  Transactional .auth (updateByToken.originalMethod setFlag token)

def verifyAccount (token : String) : Async AccountInfo :=
  updateByToken (fun userEntity => { userEntity with isVerified := .val true }) token

def unlockAccountToken (token : String) : Async AccountInfo :=
  updateByToken (fun userEntity => { userEntity with isBlocked := .val false }) token

/-- The `try` block of `refreshToken`. -/
def renewAccessToken (userEntity : UserEntity) : Async Unit := do
  let tokens ← generateJWTTokens { email := userEntity.email, id := userEntity.id }
  let _ ← UserRepositoryImpl.save { userEntity with accessToken := .val tokens.accessToken }
  return ()

def refreshToken (loginModel : LoginModel) : Async Unit := do
  match ← UserRepositoryImpl.getUserByField { email := some (.val loginModel.email) } with
  | none => Async.throw unauthorized
  | some userEntity =>
    if !userEntity.refreshToken.truthyText then Async.throw unauthorized
    else (renewAccessToken userEntity).catching fun _ => Async.throw unauthorized

def assignRole (assignRoleModel : AssignRoleModel) : Async UserModel := do
  let roles ← Async.findRoles assignRoleModel.rolesId
  let user ← UserRepositoryImpl.getUserById assignRoleModel.userId
  if roles.length ≠ assignRoleModel.rolesId.length then
    Async.throw (.error "At least one role is not allowed")
  else match user with
    | none => Async.throw (.error "The user to assign role does not exist")
    | some user => do
      let updated ←
        UserRepositoryImpl.updateUser assignRoleModel.userId { user with roles := .val roles }
      return SqlGlobalMapper.mapClass updated

end AuthService

end Manejaplus
