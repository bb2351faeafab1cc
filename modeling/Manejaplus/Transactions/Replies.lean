import Manejaplus.Effect.Thrown
import Manejaplus.Shared.Response
import Manejaplus.Transactions.Conduct
import Manejaplus.Transactions.OwnWrites

/-! # What a request that fails is answered

Each request can be refused for a few reasons of its own, and no other request
adds one to them. The exception filter makes a reply of the exception, and only
an exception of the framework keeps its message on the way.
-/
namespace Manejaplus
open Effect Prog
set_option autoImplicit false

namespace ERRORS_DEFINED

def ACCOUNT_BLOCKED : String := "ACCOUNT_BLOCKED"

def ACCOUNT_NOT_VERIFIED : String := "ACCOUNT_NOT_VERIFIED"

def OTP_REQUIRED : String := "OTP_REQUIRED"

def OTP_WRONG : String := "OTP_WRONG"

end ERRORS_DEFINED

namespace Exception
variable {ν : Type} [NatCast ν]

/-- The object of an exception of Nest's own: the message, the name of the status unless that is the
message, and the status. -/
def described (message description : String) (status : Nat) : Thrown ν :=
  .httpObject ([("message", .str message)] ++
    (if message = description then [] else [("error", .str description)]) ++
    [("statusCode", .num (status : ν))]) status

/-- What the filter catches; an exception from outside may be anything. -/
def thrown (typeError : String) : Exception → Option (Thrown ν)
  | .badRequest message => some (described message "Bad Request" 400)
  | .unauthorized message => some (described message "Unauthorized" 401)
  | .accountNotVerified =>
    some (.httpObject [("message", .str ERRORS_DEFINED.ACCOUNT_NOT_VERIFIED)] 403)
  | .accountBlocked => some (.httpObject [("message", .str ERRORS_DEFINED.ACCOUNT_BLOCKED)] 403)
  | .otpRequired => some (.httpObject [("message", .str ERRORS_DEFINED.OTP_REQUIRED)] 403)
  | .otpWrong => some (.httpObject [("message", .str ERRORS_DEFINED.OTP_WRONG)] 403)
  | .verifingAccount =>
    some (.httpObject [("message", .str "Error verifing account try another time")] 403)
  | .error message => some (.error "Error" message)
  | .typeError => some (.error "TypeError" typeError)
  | .external => none

def status : Exception → Nat
  | .badRequest _ => 400
  | .unauthorized _ => 401
  | .error _ => 500
  | .typeError => 500
  | .external => 500
  | _ => 403

/-- What the client is told. -/
def told : Exception → Option String
  | .badRequest message => some message
  | .unauthorized message => some message
  | .accountNotVerified => some ERRORS_DEFINED.ACCOUNT_NOT_VERIFIED
  | .accountBlocked => some ERRORS_DEFINED.ACCOUNT_BLOCKED
  | .otpRequired => some ERRORS_DEFINED.OTP_REQUIRED
  | .otpWrong => some ERRORS_DEFINED.OTP_WRONG
  | .verifingAccount => some "Error verifing account try another time"
  | _ => none

/-- The reply: not a success, the status, and the message where it has come through. -/
def reply (e : Exception) : Json ν :=
  Json.literal [("success", some (.bool false)), ("statusCode", some (.num (e.status : ν))),
    ("error", e.told.map .str)]

theorem told_eq_none_iff (e : Exception) : e.told = none ↔ e.status = 500 := by
  cases e <;> simp [told, status]

theorem error_reply (e : Exception) :
    Json.property "error" (some (e.reply : Json ν)) = e.told.map .str :=
  Json.property_literal (by simp) "error"

theorem thrown_of_ne (typeError : String) {e : Exception} (h : e ≠ .external) :
    ∃ t : Thrown ν, e.thrown typeError = some t := by
  cases e
  case external => exact absurd rfl h
  all_goals exact ⟨_, rfl⟩

theorem catchBody_thrown (string : Json ν → Option String) (typeError : String) {e : Exception}
    {t : Thrown ν} (h : e.thrown typeError = some t) :
    GlobalExceptionFilter.catchBody string t = some e.reply := by
  cases e <;> cases h <;> rfl

end Exception

/-- The reasons that a request can be refused for. -/
def Request.refusals : Request → List Exception
  | .createUser _ => [.badRequest "The email already exists",
      .badRequest "Error providing link verify email", .error "Error al encriptar la contraseña"]
  | .loginUser _ => [.unauthorized "The credentials are not valid", .accountNotVerified,
      .accountBlocked, .otpRequired, .otpWrong, .typeError]
  | .unlockAccount _ => [.unauthorized "The credentials are not valid",
      .badRequest "Account not valid to unlock"]
  | .googleLoginUser none => [.badRequest "No user from Google"]
  | .googleLoginUser (some _) => [.error "Error al encriptar la contraseña"]
  | .refreshToken _ => [.unauthorized "Unauthorized"]
  | .assignRole _ => [.error "At least one role is not allowed",
      .error "The user to assign role does not exist"]
  | .verifyAccount _ => [.verifingAccount]
  | .unlockAccountToken _ => [.verifingAccount]

theorem Request.external_not_mem (q : Request) : .external ∉ q.refusals := by
  cases q with
  | googleLoginUser user => cases user <;> simp [refusals]
  | _ => simp [refusals]

namespace Refusals

/-- What an operation throws. -/
def External (e : Exception) : Prop := e = .external

/-- The exceptions of a list, and those that come from outside. -/
def Among (refusals : List Exception) (e : Exception) : Prop := e ∈ refusals ∨ e = .external

abbrev Raises {α : Type} (refusals : List Exception) (p : Async α) : Prop :=
  p.Throws External (Among refusals)

variable {α β : Type} {refusals : List Exception} {p : Async α}

theorem raises_throw {e : Exception} (h : e ∈ refusals) : Raises refusals (Async.throw e : Async α) :=
  .inl h

theorem raises_perform (o : Op) : Raises refusals (Prog.perform (S := services) o) :=
  throws_perform fun _ => .inr

/-- `try { p } catch { throw e }` -/
theorem raises_instead {e : Exception} (he : e ∈ refusals) (hp : p.Throws External fun _ => True) :
    Raises refusals (p.catching fun _ => Async.throw e) :=
  throws_catching hp fun _ _ => raises_throw he

theorem raises_transactional {service : Service} (hp : Raises refusals p) :
    Raises refusals (Transactional service p) := by
  have hCallback : ∀ manager, Raises refusals (Transactional.callback service p manager) := by
    intro manager
    refine throws_bind (raises_perform _) fun _ => throws_attempt hp (fun a => ?_) fun e he => ?_
    · exact throws_bind (raises_perform _) fun _ => throws_bind (raises_perform _) fun _ => trivial
    · exact throws_bind (raises_perform _) fun _ => throws_bind (raises_perform _) fun _ => he
  refine throws_bind (raises_perform _) fun _ =>
    throws_attempt (T := Among refusals) (throws_bind (raises_perform _) fun manager => ?_)
      (fun a => ?_) fun e he => ?_
  · cases manager with
    | none => exact throws_bind (raises_perform _) hCallback
    | some manager => exact hp
  · exact throws_bind (raises_perform _) fun _ => trivial
  · exact throws_bind (raises_perform _) fun _ => he

section Services

theorem raises_getUserByField {query : UserWhere}
    (hSome : (UserRepositoryImpl.conditions query).length ≠ 0)
    (hDefined : Js.undefined ∉ UserRepositoryImpl.conditions query) :
    Raises refusals (UserRepositoryImpl.getUserByField query) := by
  unfold UserRepositoryImpl.getUserByField
  rw [if_neg]
  · exact raises_perform _
  · simpa [hSome] using hDefined

theorem raises_byEmail (email : String) :
    Raises refusals (UserRepositoryImpl.getUserByField { email := some (.val email) }) :=
  raises_getUserByField (by simp [UserRepositoryImpl.conditions])
    (by simp [UserRepositoryImpl.conditions])

theorem raises_hashPassword (password : Js String)
    (h : .error "Error al encriptar la contraseña" ∈ refusals) :
    Raises refusals (EncryptionUtil.hashPassword password) :=
  throws_catching (T := Among refusals) (raises_perform _) fun _ _ => raises_throw h

theorem raises_generateJWTTokens (payload : UserObject) :
    Raises refusals (AuthService.generateJWTTokens payload) :=
  throws_bind (raises_perform _) fun _ => throws_map (raises_perform _)

theorem raises_handleUserLogin (user : UserModel) :
    Raises refusals (AuthService.handleUserLogin user) :=
  throws_bind (raises_generateJWTTokens _) fun _ => throws_bind (raises_perform _) fun _ =>
    throws_bind (raises_perform _) fun _ => throws_bind (raises_perform _) fun _ =>
      throws_map (raises_perform _)

theorem raises_validateUserCredentials (loginModel : LoginModel)
    (h : AuthService.invalidCredentials ∈ refusals) :
    Raises refusals (AuthService.validateUserCredentials loginModel) := by
  refine throws_bind (raises_byEmail _) fun userEntity => throws_bind (T := Among refusals) ?_ ?_
  · cases userEntity with
    | none => trivial
    | some userEntity =>
      exact throws_map (throws_catching (T := Among []) (raises_perform _) fun _ _ => trivial)
  · rintro (_ | _)
    · trivial
    · refine throws_bind (T := Among refusals) ?_ fun _ => raises_throw h
      cases userEntity with
      | none => trivial
      | some userEntity => exact throws_bind (raises_perform _) fun _ => trivial

theorem raises_sendOtpCode (type : TypeOtp) (user : UserModel) :
    Raises refusals (OtpService.sendOtpCode type user) :=
  raises_transactional <| throws_bind (throws_map (raises_perform _)) fun _ =>
    throws_bind (raises_perform _) fun _ => throws_map (raises_perform _)

theorem raises_checkOtpCodeIsValid (type : TypeOtp) (otpCode : String) (userId : Js String)
    (h : .typeError ∈ refusals) :
    Raises refusals (OtpService.checkOtpCodeIsValid type otpCode userId) := by
  refine throws_bind (raises_perform _) fun found => ?_
  cases found with
  | none => exact raises_throw h
  | some code =>
    dsimp only
    split
    · exact throws_map (raises_perform _)
    · trivial

theorem raises_validateNeedOtpToLogin (user : UserModel) :
    Raises refusals (UserModel.validateNeedOtpToLogin user) := by
  unfold UserModel.validateNeedOtpToLogin
  split
  · exact throws_map (raises_perform _)
  · trivial

theorem raises_handleOtpIfRequired (user : UserModel) (loginModel : LoginModel)
    (hRequired : .otpRequired ∈ refusals) (hWrong : .otpWrong ∈ refusals)
    (hType : .typeError ∈ refusals) :
    Raises refusals (AuthService.handleOtpIfRequired user loginModel) := by
  refine throws_bind (raises_validateNeedOtpToLogin user) fun need => ?_
  split
  · exact throws_bind (raises_sendOtpCode _ user) fun _ => raises_throw hRequired
  · refine throws_bind (raises_validateNeedOtpToLogin user) fun need => ?_
    split
    · refine throws_bind (raises_checkOtpCodeIsValid _ _ _ hType) fun isValid => ?_
      split
      · exact raises_throw hWrong
      · trivial
    · trivial

theorem raises_checkUserStatus (user : UserModel) (hVerified : .accountNotVerified ∈ refusals)
    (hBlocked : .accountBlocked ∈ refusals) : Raises refusals (AuthService.checkUserStatus user) := by
  unfold AuthService.checkUserStatus
  split
  · exact raises_throw hVerified
  · split
    · exact raises_throw hBlocked
    · trivial

theorem raises_loginUser (loginModel : LoginModel) :
    Raises (Request.loginUser loginModel).refusals (AuthService.loginUser loginModel) :=
  throws_bind (raises_validateUserCredentials loginModel (by simp [Request.refusals,
      AuthService.invalidCredentials])) fun user =>
    throws_bind (raises_checkUserStatus user (by simp [Request.refusals])
      (by simp [Request.refusals])) fun _ =>
    throws_bind (raises_handleOtpIfRequired user loginModel (by simp [Request.refusals])
      (by simp [Request.refusals]) (by simp [Request.refusals])) fun _ => raises_handleUserLogin user

theorem raises_unlockAccount (loginModel : LoginModel) :
    Raises (Request.unlockAccount loginModel).refusals (AuthService.unlockAccount loginModel) := by
  refine throws_bind (raises_validateUserCredentials loginModel (by simp [Request.refusals,
      AuthService.invalidCredentials])) fun user => ?_
  split
  · exact throws_map (raises_perform _)
  · exact raises_throw (by simp [Request.refusals])

theorem raises_googleLoginUser (cases : CaseMapping) (user : Option GoogleProfile) :
    Raises (Request.googleLoginUser user).refusals (AuthService.googleLoginUser cases user) := by
  cases user with
  | none => exact raises_throw (by simp [Request.refusals])
  | some profile =>
    refine throws_bind (throws_bind (raises_byEmail profile.email) fun found => ?_)
      fun userEntity => raises_handleUserLogin _
    cases found with
    | none =>
      exact throws_bind (raises_hashPassword _ (by simp [Request.refusals]))
        fun _ => raises_perform _
    | some userEntity => trivial

/-- Whatever goes wrong with a token, the answer is the same. -/
theorem raises_updateByToken (setFlag : UserEntity → UserEntity) (token : String)
    (h : .verifingAccount ∈ refusals) :
    Raises refusals (AuthService.updateByToken setFlag token) := by
  apply raises_transactional
  apply raises_instead h
  refine throws_bind (throws_perform fun _ _ => trivial) fun payload => ?_
  refine throws_bind ?_ fun sub => throws_bind ?_ fun found => ?_
  · unfold AuthService.subject
    split <;> trivial
  · unfold UserRepositoryImpl.getUserByField
    split
    · trivial
    · exact throws_perform fun _ _ => trivial
  · cases found with
    | none => trivial
    | some userEntity => exact throws_map (throws_perform fun _ _ => trivial)

theorem raises_refreshToken (loginModel : LoginModel) :
    Raises (Request.refreshToken loginModel).refusals (AuthService.refreshToken loginModel) := by
  have hUnauthorized : AuthService.unauthorized ∈ (Request.refreshToken loginModel).refusals := by
    simp [Request.refusals, AuthService.unauthorized]
  refine throws_bind (raises_byEmail loginModel.email) fun found => ?_
  cases found with
  | none => exact raises_throw hUnauthorized
  | some userEntity =>
    dsimp only
    split
    · exact raises_throw hUnauthorized
    · refine raises_instead hUnauthorized (Throws.mono (T := Among []) (fun _ _ => trivial) ?_)
      exact throws_bind (raises_generateJWTTokens _) fun _ => throws_map (raises_perform _)

theorem raises_assignRole (assignRoleModel : AssignRoleModel) :
    Raises (Request.assignRole assignRoleModel).refusals
      (AuthService.assignRole assignRoleModel) := by
  refine throws_bind (raises_perform _) fun roles => throws_bind (raises_perform _) fun found => ?_
  split
  · exact raises_throw (by simp [Request.refusals])
  · cases found with
    | none => exact raises_throw (by simp [Request.refusals])
    | some userEntity => exact throws_map (raises_perform _)

theorem raises_createUser (dto : CreateUserDto) :
    Raises (Request.createUser dto).refusals (UserController.createUser dto) := by
  apply raises_transactional
  refine throws_bind (raises_byEmail dto.email) fun found => ?_
  cases found with
  | some userEntity => exact raises_throw (by simp [Request.refusals])
  | none =>
    refine throws_bind (throws_map (raises_hashPassword _ (by simp [Request.refusals])))
      fun userModel => throws_bind (raises_perform _) fun userSaved => throws_bind ?_ fun _ =>
        throws_map (raises_perform _)
    refine raises_instead (by simp [Request.refusals]) (Throws.mono (T := Among [])
      (fun _ _ => trivial) ?_)
    exact throws_map (raises_perform _)

end Services

theorem raises_serve (cases : CaseMapping) (q : Request) : Raises q.refusals (serve cases q) := by
  cases q with
  | createUser dto => exact throws_map (raises_createUser dto)
  | loginUser loginModel => exact throws_map (raises_loginUser loginModel)
  | unlockAccount loginModel => exact throws_map (raises_unlockAccount loginModel)
  | googleLoginUser user => exact throws_map (raises_googleLoginUser cases user)
  | refreshToken loginModel => exact throws_map (raises_refreshToken loginModel)
  | assignRole assignRoleModel => exact throws_map (raises_assignRole assignRoleModel)
  | verifyAccount token => exact throws_map (raises_updateByToken _ token (by simp [Request.refusals]))
  | unlockAccountToken token =>
    exact throws_map (raises_updateByToken _ token (by simp [Request.refusals]))

section Handlers
variable {env : Env} {e : Exception}

theorem external_refused {γ : Type} (h : (.error .external : Except Exception γ) = .error e) :
    External e := (Except.error.inj h).symm

theorem external_orFail {γ : Type} {db : Database} {r : Option (γ × Database)}
    (h : (orFail db r).1 = .error e) : External e := by
  cases r with
  | none => exact external_refused h
  | some answer => cases h

theorem external_store {c : Choice} {db : Database} {o : StoreOp}
    (h : (db.exec env c o).1 = .error e) : External e := by
  cases o <;> simp only [Database.exec] at h <;> split at h
  all_goals first
    | exact external_refused h
    | exact external_orFail h
    | cases h

theorem external_outside {c : Choice} {out : Outside} {o : OutsideOp}
    (h : (out.exec env c o).1 = .error e) : External e := by
  cases o with
  | hashPassword password =>
    cases password <;> simp only [Outside.exec] at h <;> (try split at h) <;>
      first | exact external_refused h | cases h
  | comparePasswords passwordTry original =>
    cases original <;> simp only [Outside.exec] at h <;> (try split at h) <;>
      first | exact external_refused h | cases h
  | _ =>
    simp only [Outside.exec] at h
    (try split at h) <;> first | exact external_refused h | cases h

theorem external_transactional (o : Op) (w : TxWorld) (e : Exception)
    (h : (transactional env o w).1 = .error e) : External e := by
  cases o with
  | store o =>
    obtain hRefused | ⟨manager, hAnswer⟩ := TxWorld.store_answer env o w
    · exact external_refused (hRefused.symm.trans h)
    · exact external_store (hAnswer.symm.trans h)
  | outside o => exact external_outside h
  | transaction o =>
    cases o with
    | begin =>
      simp only [transactional, TxWorld.execTransaction] at h
      split at h
      · exact external_refused h
      · cases h
    | _ => cases h

end Handlers

end Refusals

open Refusals in
/-- However requests interleave, one that fails has met a failure from outside, or is refused for a
reason of its own; what the client is sent then is the reply of that reason. -/
theorem refusals_replied {ι ν : Type} [DecidableEq ι] [NatCast ν] (env : Env) (w : TxWorld)
    (requests : ι → Request) (schedule : List ι) (settings : ReplySettings ν) (typeError : String)
    {i : ι} {e : Exception}
    (hDone : (((Requests.started env w requests).run (transactional env) (Conduct.protocol env)
      schedule).threads i).prog.result = some (.error e)) :
    e = .external ∨ e ∈ (requests i).refusals ∧ ∃ t, e.thrown typeError = some t ∧
      replyBody settings (.threw t) = some e.reply ∧
      (Json.property "error" (some (e.reply : Json ν)) = none ↔ e.status = 500) := by
  obtain hOwn | hExternal := Pool.run_throws external_transactional
    (T := fun i => Among (requests i).refusals) (fun i => raises_serve env.cases (requests i))
    schedule hDone
  · have hNe : e ≠ .external := by
      rintro rfl
      exact (requests i).external_not_mem hOwn
    obtain ⟨t, hThrown⟩ : ∃ t : Thrown ν, e.thrown typeError = some t :=
      Exception.thrown_of_ne typeError hNe
    refine .inr ⟨hOwn, t, hThrown, Exception.catchBody_thrown settings.string typeError hThrown, ?_⟩
    rw [Exception.error_reply, Option.map_eq_none_iff]
    exact e.told_eq_none_iff
  · exact .inl hExternal

namespace Sample

/-- A registration with an email that is taken, and a login with a wrong password. -/
def refused : Fin 2 → Request
  | 0 => .createUser registration
  | 1 => .loginUser wrongLogin

def refusedReply : Json Nat := .obj [("success", .bool false), ("statusCode", .num 400),
  ("error", .str "The email already exists")]

end Sample

theorem refusals_replied_sample : ∃ t : Thrown Nat,
    Exception.thrown "" (.badRequest "The email already exists") = some t ∧
      replyBody Sample.replySettings (.threw t) = some Sample.refusedReply := by
  obtain hExternal | ⟨_, t, hThrown, hReply, _⟩ := refusals_replied (Sample.env [])
    (Sample.txWorld (Sample.oneUser Sample.row) 30) Sample.refused [0, 1, 0, 0, 1, 0, 0, 1, 0, 0, 0]
    Sample.replySettings "" (i := 0) (e := .badRequest "The email already exists") (by decide)
  · cases hExternal
  · exact ⟨t, hThrown, hReply⟩

end Manejaplus
