import Manejaplus.Persistence.Operations
import Manejaplus.Shared.Strings

/-! # The tenant of a request

The interceptor reads the tenant from the request's token and sets the search
path of the connection to it, before the handler runs.
-/
namespace Manejaplus
open Effect
set_option autoImplicit false

/-- The `organization` of a verified payload. -/
structure OrganizationClaim where
  name : Js String := .undefined
  deriving DecidableEq, Repr

structure TenantPayload where
  organization : Js OrganizationClaim := .undefined
  deriving DecidableEq, Repr

inductive InterceptorOp where
  | verify (token : String)
  | query (sql : String)
  deriving DecidableEq

abbrev InterceptorOp.Res : InterceptorOp → Type
  | .verify _ => TenantPayload
  | .query _ => Unit

abbrev interceptor : Signature where
  Op := InterceptorOp
  Res := InterceptorOp.Res

abbrev Interception (α : Type) := Prog interceptor Exception α

namespace TenantInterceptor

/-- A second part that is missing, and any other scheme word, is `undefined`. -/
def extractTokenFromHeader (authorization : Option String) : Option String :=
  match (authorization.map fun header => split ' ' header.toList).getD [] with
  | type :: token :: _ => if type = "Bearer".toList then some (String.ofList token) else none
  | _ => none

def setSearchPath (tenantName : String) : String := "SET search_path TO " ++ tenantName

def setTenantContext (tenantName : Js String) : Interception Unit :=
  Prog.perform (S := interceptor) (.query (setSearchPath tenantName.template))

/-- `payload.organization.name`; no property can be read of `undefined` or `null`. -/
def organizationName (payload : TenantPayload) : Interception (Js String) :=
  match payload.organization with
  | .val organization => return organization.name
  | _ => Prog.throw .typeError

/-- What `intercept` does before it hands the request on. -/
def intercept (authorization : Option String) : Interception Unit :=
  match extractTokenFromHeader authorization with
  | some token =>
    if token = "" then return ()
    else Prog.catching
      (do
        let payload ← Prog.perform (S := interceptor) (.verify token)
        let tenantName ← organizationName payload
        setTenantContext tenantName)
      fun _ => return ()
  | none => return ()

end TenantInterceptor

end Manejaplus
