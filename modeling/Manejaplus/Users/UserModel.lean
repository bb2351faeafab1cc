import Manejaplus.Persistence.Operations

/-! # The user model's methods, and the constants they read -/
namespace Manejaplus
open Effect
set_option autoImplicit false

namespace USER_CONSTANTS

def NUMBER_ATTEMPS_TO_BLOCk_USER : Nat := 3

end USER_CONSTANTS

namespace AUTH_CONSTANTS

def TIME_TO_ASK_OTP_MAINTEIN_SESSION : Int := 432000000

def TIME_TO_ASK_OTP : Int := 86400000

end AUTH_CONSTANTS

-- The `AUTH` section of the configuration; the token lifetimes are in seconds.
namespace AUTH

def TIME_REFRESH_TOKEN : Nat := 7 * 24 * 60 * 60

def TIME_ACCESS_TOKEN : Nat := 40 * 60

def TIME_VERIFY_ACCOUNT : Nat := 30 * 60

def TIME_OTP_VALID : Nat := 60000

end AUTH

namespace EncryptionUtil

def hashPassword (password : Js String) : Async String :=
  Prog.catching (Async.hashPassword password)
    fun _ => Async.throw (.error "Error al encriptar la contraseña")

def comparePasswords (passwordTry : String) (originalPassword : Js String) : Async Bool :=
  Prog.catching (Async.comparePasswords passwordTry originalPassword) fun _ => return false

end EncryptionUtil

namespace UserModel

/-- `attemptsFailed++`; no model the services build leaves the property undefined (`NaN`). -/
def increment : Js Nat → Js Nat
  | .val n => .val (n + 1)
  | .null => .val 1
  | .undefined => .undefined

def reachesLimit : Js Nat → Bool
  | .val n => USER_CONSTANTS.NUMBER_ATTEMPS_TO_BLOCk_USER ≤ n
  | _ => false

def incrementFailedAttempts (user : UserModel) : UserModel :=
  let attemptsFailed := increment user.attemptsFailed
  { user with
    attemptsFailed
    isBlocked := if reachesLimit attemptsFailed then .val true else user.isBlocked }

def needsOtpAt (maintainSession : Js Bool) (lastConnection now : Time) : Bool :=
  let differenceLastConnection : Int := now - lastConnection
  if maintainSession.truthy &&
      decide (differenceLastConnection > AUTH_CONSTANTS.TIME_TO_ASK_OTP_MAINTEIN_SESSION) then true
  else if differenceLastConnection > AUTH_CONSTANTS.TIME_TO_ASK_OTP then true
  else false

def validateNeedOtpToLogin (user : UserModel) : Async Bool :=
  match user.lastConnection with
  | .val lastConnection => do
    let now ← Async.newDate
    return needsOtpAt user.maintainSession lastConnection now
  | _ => return true

def encriptPassword (user : UserModel) : Async UserModel :=
  do return { user with password := .val (← EncryptionUtil.hashPassword user.password) }

end UserModel

end Manejaplus
