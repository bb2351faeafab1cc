import Manejaplus.Effect.History
import Manejaplus.Tenancy.TenantInterceptor

/-! # The search path that a handler finds

All requests share one connection. The interceptor sets its search path for a
request that names a tenant, and nothing ever sets it back.
-/
namespace Manejaplus
open Effect Prog
set_option autoImplicit false

/-- What a `verify` gives at some time, the path that PostgreSQL reads a `SET` statement as, and the
path a connection begins with. -/
structure ContextEnv where
  verify : Time → String → Option TenantPayload
  searchPath : String → Option (List String)
  defaultPath : List String

/-- What one operation takes from outside. -/
structure Moment where
  now : Time := 0
  fault : Bool := false
  deriving DecidableEq, Repr

structure Connection where
  path : List String
  tape : Nat → Moment

/-- A request, and what its handler makes of the search path it finds. -/
structure HttpRequest where
  authorization : Option String
  handler : List String → List String

namespace TenantContext

def exec (env : ContextEnv) (o : InterceptorOp) (w : Connection) :
    Except Exception o.Res × Connection :=
  let rest : Connection := { w with tape := fun n => w.tape (n + 1) }
  match o with
  | .verify token =>
    match env.verify (w.tape 0).now token with
    | some payload => (.ok payload, rest)
    | none => (.error .external, rest)
  | .query sql =>
    match if (w.tape 0).fault then none else env.searchPath sql with
    | some path => (.ok (), { rest with path })
    | none => (.error .external, rest)

/-- The answer is the search path under which the handler has run. -/
def serve (env : ContextEnv) (q : HttpRequest) (w : Connection) : List String × Connection :=
  let w' := (run (exec env) (TenantInterceptor.intercept q.authorization) w).2
  (w'.path, { w' with path := q.handler w'.path })

/-- The payload of the request's own token, if this passes. -/
def payload (env : ContextEnv) (w : Connection) (q : HttpRequest) : Option TenantPayload :=
  (TenantInterceptor.extractTokenFromHeader q.authorization).bind fun token =>
    if token = "" then none else env.verify (w.tape 0).now token

def organizationOf (payload : TenantPayload) : Option OrganizationClaim :=
  match payload.organization with
  | .val organization => some organization
  | _ => none

/-- The tenant that the request's own token names. -/
def tenantOf (env : ContextEnv) (w : Connection) (q : HttpRequest) : Option String :=
  ((payload env w q).bind organizationOf).bind fun organization =>
    match organization.name with
    | .val name => some name
    | _ => none

/-- Where the handler belongs. -/
def ownPath (env : ContextEnv) (w : Connection) (q : HttpRequest) : List String :=
  match tenantOf env w q with
  | some tenant => [tenant]
  | none => env.defaultPath

/-- The path that the request's own statement leads to, if it sends one that is accepted. -/
def selected (env : ContextEnv) (w : Connection) (q : HttpRequest) : Option (List String) :=
  ((payload env w q).bind organizationOf).bind fun organization =>
    if (w.tape 1).fault then none
    else env.searchPath (TenantInterceptor.setSearchPath organization.name.template)

/-- The request's own statement leads where its handler belongs; or there is none, and the
connection has been left there. -/
def InContext (env : ContextEnv) (w : Connection) (q : HttpRequest) : Prop :=
  match selected env w q with
  | some path => path = ownPath env w q
  | none => w.path = ownPath env w q

variable {env : ContextEnv} {w : Connection} {q : HttpRequest}

theorem run_verify (token : String) : run (exec env) (perform (S := interceptor) (.verify token)) w =
    exec env (.verify token) w := run_perform _ _ _

theorem run_query (sql : String) : run (exec env) (perform (S := interceptor) (.query sql)) w =
    exec env (.query sql) w := run_perform _ _ _

theorem run_try (p : Interception Unit) :
    run (exec env) (p.catching fun _ => .pure ()) w = (.ok (), (run (exec env) p w).2) := by
  rw [catching, run_bind, run_attempt]
  cases (run (exec env) p w).1 <;> rfl

/-- An interception that comes to no statement, or to one that fails, leaves the path alone. -/
theorem served_path : (serve env q w).1 = (selected env w q).getD w.path := by
  rw [serve, selected, payload, TenantInterceptor.intercept]
  cases TenantInterceptor.extractTokenFromHeader q.authorization with
  | none => rfl
  | some token =>
    by_cases hEmpty : token = ""
    · simp [hEmpty]
    · simp only [Option.bind_some, if_neg hEmpty, bind_eq, pure_eq, run_try]
      rw [run_bind, run_verify, exec]
      cases env.verify (w.tape 0).now token with
      | none => rfl
      | some payload =>
        obtain ⟨_ | _ | organization⟩ := payload
        · rfl
        · rfl
        · simp only [TenantInterceptor.organizationName, organizationOf, Option.bind_some, pure_eq]
          rw [run_bind, run_pure]
          simp only [TenantInterceptor.setTenantContext]
          rw [run_query, exec]
          cases (w.tape 1).fault with
          | true => rfl
          | false =>
            simp only [Bool.false_eq_true, if_false]
            cases env.searchPath (TenantInterceptor.setSearchPath organization.name.template) <;> rfl

theorem served_own {w : Connection} : (serve env q w).1 = ownPath env w q ↔ InContext env w q := by
  rw [served_path, InContext]
  cases selected env w q <;> rfl

end TenantContext

open TenantContext in
/-- Every handler of a run has found the search path of its own request exactly if each request's
own statement has led there, or the connection has been left there. -/
theorem handlers_in_context (env : ContextEnv) (start : Connection) (qs : List HttpRequest) :
    (∀ ev ∈ history (serve env) start qs, ev.outcome = ownPath env ev.before ev.request) ↔
      Steps (serve env) start (fun _ w q => InContext env w q) qs := by
  rw [forall_history_iff]
  exact iff_of_eq (congrArg (fun C => Steps (serve env) start C qs)
    (funext fun _ => funext fun w => funext fun q => propext served_own))

namespace Sample

def contextEnv : ContextEnv where
  verify _ token := if token = "acme-token" then some { organization := .val ⟨.val "acme"⟩ } else none
  searchPath sql := if sql = "SET search_path TO acme" then some ["acme"] else none
  defaultPath := ["public"]

def connection : Connection where
  path := ["public"]
  tape _ := {}

end Sample

/-- After a request of a tenant, one without a token runs in the tenant's schema. -/
theorem handler_out_of_context : ¬ ∀ (env : ContextEnv) (start : Connection) (qs : List HttpRequest),
    start.path = env.defaultPath → ∀ ev ∈ history (TenantContext.serve env) start qs,
      ev.outcome = TenantContext.ownPath env ev.before ev.request := by
  intro h
  have hOwn := h Sample.contextEnv Sample.connection
    [⟨none, id⟩, ⟨some "Bearer acme-token", id⟩] rfl _ List.mem_cons_self
  revert hOwn
  decide

end Manejaplus
