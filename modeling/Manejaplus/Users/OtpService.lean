import Manejaplus.Persistence.Repositories
import Manejaplus.Users.UserModel

/-! # One-time passwords by mail -/
namespace Manejaplus
open Effect
set_option autoImplicit false

namespace OtpService

def generateOtp : Async String := do return toString (100000 + (← Async.random))

def sendOtpCode.originalMethod (type : TypeOtp) (userModel : UserModel) : Async UserModel := do
  let otpCode ← generateOtp
  let otpModel : OtpObject := {
    typeOtp := .val type
    otp := .val otpCode
    user := .val (SqlGlobalMapper.mapClass userModel) }
  let _ ← OtpRepositoryImpl.save otpModel
  Async.sendEmail ⟨userModel.email, type.text, { user := userModel, otpCode := some otpCode }⟩
  return SqlGlobalMapper.mapClass userModel { get := some ["name", "email"] }

def sendOtpCode (type : TypeOtp) (userModel : UserModel) : Async UserModel :=
  Transactional .otp (sendOtpCode.originalMethod type userModel)

/-- The condition of `checkOtpCodeIsValid`, as it stands: a duration against a point in time. -/
def acceptsOtp (otpCode : String) (otp : OtpObject) : Bool :=
  otp.otp = .val otpCode && (match otp.createdAt with
    | .val createdAt => decide (AUTH.TIME_OTP_VALID < createdAt)
    | _ => false) && !otp.wasUsed.truthy

def checkOtpCodeIsValid (typeOtp : TypeOtp) (otpCode : String) (userId : Js String) :
    Async Bool := do
  match ← OtpRepositoryImpl.findByType typeOtp userId with
  | none => Async.throw .typeError
  | some lastOtpGeneratedByType =>
    if acceptsOtp otpCode lastOtpGeneratedByType then do
      let _ ← OtpRepositoryImpl.save { lastOtpGeneratedByType with wasUsed := .val true }
      return true
    else return false

end OtpService

end Manejaplus
