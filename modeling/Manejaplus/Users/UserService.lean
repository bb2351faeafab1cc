import Manejaplus.Authentication.AuthService

/-! # Registration -/
namespace Manejaplus
open Effect
set_option autoImplicit false

namespace UserService

def generateLinkJwtToVerifyEmail (data : UserObject) : Async String :=
  Prog.catching
    (do
      let token ← AuthService.generateJwtToken data
      return "https://maicoldev.tech:3001/manejaplusback/auth/verify-email/" ++ token)
    fun _ => Async.throw (.badRequest "Error providing link verify email")

def createUser.originalMethod (userModel : UserModel) : Async UserModel := do
  match ← UserRepositoryImpl.getUserByField { email := some userModel.email } with
  | some _ => Async.throw (.badRequest "The email already exists")
  | none => do
    let userModel ← UserModel.encriptPassword userModel
    let userSaved ← UserRepositoryImpl.save (SqlGlobalMapper.mapClass userModel)
    let callbackUrl ← generateLinkJwtToVerifyEmail userSaved
    Async.sendEmail
      ⟨userSaved.email, "VERIFY_ACCOUNT", { user := userSaved, callbackUrl := some callbackUrl }⟩
    return SqlGlobalMapper.mapClass userSaved { get := some ["name", "email"] }

def createUser (userModel : UserModel) : Async UserModel :=
  Transactional .user (createUser.originalMethod userModel)

/-- The write is not awaited: the call returns when it has been issued. -/
def incrementAttempFailed (id : String) : Async Unit := do
  let found ← UserRepositoryImpl.getUserById id
  let user := UserModel.incrementFailedAttempts (SqlGlobalMapper.mapClassMethod (found.getD {}))
  let _ ← UserRepositoryImpl.updateUser id (SqlGlobalMapper.mapClass user)
  return ()

end UserService

end Manejaplus
