import Manejaplus.Authentication.AuthService
import Manejaplus.Shared.Strings

/-! # The token in an `Authorization` header -/
namespace Manejaplus
set_option autoImplicit false

namespace EXTRACTOR_JWT

/-- What `decryptString` throws is swallowed. -/
def fromAuthHeaderWithScheme (cases : CaseMapping) (decryptString : String → Option String)
    (auth_scheme : String) : Option String → Option String
  | some authHeader =>
    if authHeader = "" then none
    else match split ' ' authHeader.toList with
      | [scheme, encryptedToken] =>
        if cases.toLowerCase auth_scheme = cases.toLowerCase (String.ofList scheme) then
          decryptString (String.ofList encryptedToken)
        else none
      | _ => none
  | none => none

def fromAuthHeaderAsBearerToken (cases : CaseMapping) (decryptString : String → Option String) :
    Option String → Option String :=
  fromAuthHeaderWithScheme cases decryptString "bearer"

end EXTRACTOR_JWT

end Manejaplus
