import Manejaplus.Users.UserService

/-! # Which operations the services await -/
namespace Manejaplus
open Effect Prog
set_option autoImplicit false

/-- A code is new as long as it is saved without an id and without having been used. -/
inductive OpKind where
  | findUser
  | saveUser
  | findOtp
  | saveOtp
  | newOtp
  | findRoles
  | hashPassword
  | comparePasswords
  | signAsync
  | decode
  | encryptString
  | sendEmail
  | newDate
  | random
  | transaction
  deriving DecidableEq

namespace Op

@[simp] def kind : Op → OpKind
  | .store (.findUser _) => .findUser
  | .store (.saveUser _) => .saveUser
  | .store (.findOtp _ _) => .findOtp
  | .store (.saveOtp e) => if e.id = .undefined ∧ e.wasUsed = .undefined then .newOtp else .saveOtp
  | .store (.findRoles _) => .findRoles
  | .outside (.hashPassword _) => .hashPassword
  | .outside (.comparePasswords _ _) => .comparePasswords
  | .outside (.signAsync _ _) => .signAsync
  | .outside (.decode _) => .decode
  | .outside (.encryptString _) => .encryptString
  | .outside (.sendEmail _) => .sendEmail
  | .outside .newDate => .newDate
  | .outside .random => .random
  | .transaction _ => .transaction

@[simp] def Among (kinds : List OpKind) (o : Op) : Prop := o.kind ∈ kinds

/-- Everything but the transaction steps. -/
def Plain : Op → Prop
  | .transaction _ => False
  | _ => True

/-- Plain, and leaving no trace outside the database. -/
def Silent : Op → Prop
  | .store _ => True
  | .outside (.signAsync _ _) => False
  | .outside (.sendEmail _) => False
  | .outside _ => True
  | .transaction _ => False

/-- The operations that neither read nor save a user nor check a password. -/
def Neutral : Op → Prop
  | .store (.findUser _) => False
  | .store (.saveUser _) => False
  | .outside (.comparePasswords _ _) => False
  | _ => True

theorem plain_of_kind {o : Op} (h : o.kind ≠ .transaction) : o.Plain := by
  cases o with
  | transaction o => exact h rfl
  | _ => trivial

theorem silent_of_kind {o : Op} (h : o.kind ∉ [.signAsync, .sendEmail, .transaction]) :
    o.Silent := by
  cases o with
  | store o => trivial
  | outside o => cases o <;> first | trivial | simp at h
  | transaction o => simp at h

theorem neutral_of_kind {o : Op} (h : o.kind ∉ [.findUser, .saveUser, .comparePasswords]) :
    o.Neutral := by
  cases o with
  | store o => cases o <;> first | trivial | simp at h
  | outside o => cases o <;> first | trivial | simp at h
  | transaction o => trivial

end Op

section Among
variable {α : Type} {kinds : List OpKind} {p : Async α}

theorem among_mono {kinds' : List OpKind} (hp : p.Uses (Op.Among kinds)) (h : kinds ⊆ kinds') :
    p.Uses (Op.Among kinds') :=
  hp.mono fun _ ho => h ho

theorem plain_of_among (hp : p.Uses (Op.Among kinds)) (h : .transaction ∉ kinds) :
    p.Uses Op.Plain :=
  hp.mono fun _ ho => Op.plain_of_kind fun hKind => h (hKind ▸ ho)

theorem silent_of_among (hp : p.Uses (Op.Among kinds))
    (h : ∀ kind ∈ kinds, kind ∉ [OpKind.signAsync, .sendEmail, .transaction]) :
    p.Uses Op.Silent :=
  hp.mono fun _ ho => Op.silent_of_kind (h _ ho)

theorem neutral_of_among (hp : p.Uses (Op.Among kinds))
    (h : ∀ kind ∈ kinds, kind ∉ [OpKind.findUser, .saveUser, .comparePasswords]) :
    p.Uses Op.Neutral :=
  hp.mono fun _ ho => Op.neutral_of_kind (h _ ho)

end Among

section Decorator
variable {α : Type} {allowed : Op → Prop} {service : Service} {body : Async α}

theorem uses_callback (hTransaction : ∀ o, allowed (.transaction o)) (hBody : body.Uses allowed)
    (manager : Tx) : (Transactional.callback service body manager).Uses allowed := by
  apply uses_bind (uses_perform (hTransaction _))
  intro _
  apply uses_bind (uses_attempt hBody)
  intro result
  apply uses_bind (uses_perform (hTransaction _))
  intro _
  cases result with
  | ok a => exact uses_bind (uses_perform (hTransaction _)) fun _ => trivial
  | error e => exact uses_bind (uses_perform (hTransaction _)) fun _ => trivial

theorem uses_transactional (hTransaction : ∀ o, allowed (.transaction o))
    (hBody : body.Uses allowed) : (Transactional service body).Uses allowed := by
  apply uses_bind (uses_perform (hTransaction _))
  intro _
  refine uses_bind (uses_attempt (uses_bind (uses_perform (hTransaction _)) fun manager => ?_))
    fun result => uses_bind (uses_perform (hTransaction _)) fun _ => uses_ofExcept _ _
  cases manager with
  | none => exact uses_bind (uses_perform (hTransaction _)) (uses_callback hTransaction hBody)
  | some _ => exact hBody

end Decorator

section Repositories

theorem performs_getUserByField (query : UserWhere) :
    (UserRepositoryImpl.getUserByField query).Uses (Op.Among [.findUser]) := by
  unfold UserRepositoryImpl.getUserByField
  split
  · trivial
  · exact uses_perform (by simp)

theorem performs_save (e : UserEntity) :
    (UserRepositoryImpl.save e).Uses (Op.Among [.saveUser]) :=
  uses_perform (by simp)

end Repositories

section Steps

theorem performs_hashPassword (password : Js String) :
    (EncryptionUtil.hashPassword password).Uses (Op.Among [.hashPassword]) :=
  uses_catching (uses_perform (by simp)) fun _ => trivial

theorem performs_comparePasswords (passwordTry : String) (original : Js String) :
    (EncryptionUtil.comparePasswords passwordTry original).Uses (Op.Among [.comparePasswords]) :=
  uses_catching (uses_perform (by simp)) fun _ => trivial

theorem performs_encriptPassword (user : UserModel) :
    (UserModel.encriptPassword user).Uses (Op.Among [.hashPassword]) :=
  uses_bind (performs_hashPassword _) fun _ => trivial

theorem performs_validateNeedOtpToLogin (user : UserModel) :
    (UserModel.validateNeedOtpToLogin user).Uses (Op.Among [.newDate]) := by
  unfold UserModel.validateNeedOtpToLogin
  split
  · exact uses_bind (uses_perform (by simp)) fun _ => trivial
  · trivial

theorem performs_generateLink (data : UserObject) :
    (UserService.generateLinkJwtToVerifyEmail data).Uses (Op.Among [.signAsync]) :=
  uses_catching (uses_bind (uses_perform (by simp)) fun _ => trivial) fun _ => trivial

theorem performs_generateJWTTokens (payload : UserObject) :
    (AuthService.generateJWTTokens payload).Uses (Op.Among [.signAsync]) :=
  uses_bind (uses_perform (by simp)) fun _ => uses_bind (uses_perform (by simp)) fun _ => trivial

theorem performs_checkUserStatus (user : UserModel) :
    (AuthService.checkUserStatus user).Uses (Op.Among []) := by
  unfold AuthService.checkUserStatus
  split
  · trivial
  · split <;> trivial

theorem performs_subject (payload : Option Payload) :
    (AuthService.subject payload).Uses (Op.Among []) := by
  unfold AuthService.subject
  split <;> trivial

theorem performs_checkOtpCodeIsValid (type : TypeOtp) (otpCode : String) (userId : Js String) :
    (OtpService.checkOtpCodeIsValid type otpCode userId).Uses
      (Op.Among [.findOtp, .saveOtp]) := by
  apply uses_bind (uses_perform (by simp))
  intro found
  cases found with
  | none => trivial
  | some otp =>
    simp only
    split
    · exact uses_bind (uses_perform (by simp)) fun _ => trivial
    · trivial

end Steps

section Methods

theorem performs_createUser (userModel : UserModel) :
    (UserService.createUser.originalMethod userModel).Uses
      (Op.Among [.findUser, .hashPassword, .saveUser, .signAsync, .sendEmail]) := by
  apply uses_bind (among_mono (performs_getUserByField _) (by decide))
  intro found
  cases found with
  | some _ => trivial
  | none =>
    apply uses_bind (among_mono (performs_encriptPassword _) (by decide))
    intro _
    apply uses_bind (among_mono (performs_save _) (by decide))
    intro _
    apply uses_bind (among_mono (performs_generateLink _) (by decide))
    intro _
    exact uses_bind (uses_perform (by simp)) fun _ => trivial

theorem performs_sendOtpCode (type : TypeOtp) (user : UserModel) :
    (OtpService.sendOtpCode.originalMethod type user).Uses
      (Op.Among [.random, .newOtp, .sendEmail]) := by
  refine uses_bind (uses_bind (uses_perform (by simp)) fun _ => trivial) fun _ => ?_
  refine uses_bind (uses_perform (by simp)) fun _ => ?_
  exact uses_bind (uses_perform (by simp)) fun _ => trivial

theorem performs_updateByToken (setFlag : UserEntity → UserEntity) (token : String) :
    (AuthService.updateByToken.originalMethod setFlag token).Uses
      (Op.Among [.decode, .findUser, .saveUser]) := by
  refine uses_catching (uses_bind (uses_perform (by simp)) fun payload => ?_) fun _ => trivial
  apply uses_bind (among_mono (performs_subject payload) (by decide))
  intro _
  apply uses_bind (among_mono (performs_getUserByField _) (by decide))
  intro found
  cases found with
  | none => trivial
  | some userEntity =>
    exact uses_bind (among_mono (performs_save _) (by decide)) fun _ => trivial

theorem performs_validateUserCredentials (loginModel : LoginModel) :
    (AuthService.validateUserCredentials loginModel).Uses
      (Op.Among [.findUser, .comparePasswords, .saveUser]) := by
  apply uses_bind (among_mono (performs_getUserByField _) (by decide))
  intro found
  refine uses_bind ?_ fun failed => ?_
  · cases found with
    | none => trivial
    | some userEntity =>
      exact uses_bind (among_mono (performs_comparePasswords _ _) (by decide)) fun _ => trivial
  · split
    · refine uses_bind ?_ fun _ => trivial
      cases found with
      | none => trivial
      | some userEntity =>
        exact uses_bind (among_mono (performs_save _) (by decide)) fun _ => trivial
    · trivial

theorem performs_handleOtpIfRequired (user : UserModel) (loginModel : LoginModel) :
    (AuthService.handleOtpIfRequired user loginModel).Uses
      (Op.Among [.newDate, .transaction, .random, .newOtp, .sendEmail, .findOtp, .saveOtp]) := by
  apply uses_bind (among_mono (performs_validateNeedOtpToLogin user) (by decide))
  intro needs
  split
  · refine uses_bind (uses_transactional (fun _ => by simp) ?_) fun _ => trivial
    exact among_mono (performs_sendOtpCode .LOGIN_OTP user) (by decide)
  · apply uses_bind (among_mono (performs_validateNeedOtpToLogin user) (by decide))
    intro needs'
    split
    · refine uses_bind (among_mono (performs_checkOtpCodeIsValid _ _ _) (by decide))
        fun isValid => ?_
      split <;> trivial
    · trivial

theorem performs_handleUserLogin (user : UserModel) :
    (AuthService.handleUserLogin user).Uses
      (Op.Among [.signAsync, .newDate, .saveUser, .encryptString]) := by
  apply uses_bind (among_mono (performs_generateJWTTokens _) (by decide))
  intro tokens
  apply uses_bind (uses_perform (by simp))
  intro lastConnection
  apply uses_bind (among_mono (performs_save _) (by decide))
  intro _
  exact uses_bind (uses_perform (by simp)) fun _ =>
    uses_bind (uses_perform (by simp)) fun _ => trivial

theorem performs_unlockAccount (loginModel : LoginModel) :
    (AuthService.unlockAccount loginModel).Uses
      (Op.Among [.findUser, .comparePasswords, .saveUser, .signAsync]) := by
  apply uses_bind (among_mono (performs_validateUserCredentials loginModel) (by decide))
  intro user
  split
  · exact uses_bind (uses_perform (by simp)) fun _ => trivial
  · trivial

theorem performs_googleLoginUser (cases : CaseMapping) (profile : Option GoogleProfile) :
    (AuthService.googleLoginUser cases profile).Uses
      (Op.Among [.findUser, .hashPassword, .saveUser, .signAsync, .newDate, .encryptString]) := by
  match profile with
  | none => trivial
  | some profile =>
    refine uses_bind (uses_bind (among_mono (performs_getUserByField _) (by decide))
      fun found => ?_) fun user => among_mono (performs_handleUserLogin _) (by decide)
    match found with
    | none =>
      exact uses_bind (among_mono (performs_hashPassword _) (by decide)) fun _ =>
        among_mono (performs_save _) (by decide)
    | some user => trivial

theorem performs_refreshToken (loginModel : LoginModel) :
    (AuthService.refreshToken loginModel).Uses
      (Op.Among [.findUser, .signAsync, .saveUser]) := by
  apply uses_bind (among_mono (performs_getUserByField _) (by decide))
  intro found
  cases found with
  | none => trivial
  | some userEntity =>
    simp only
    split
    · trivial
    · refine uses_catching ?_ fun _ => trivial
      apply uses_bind (among_mono (performs_generateJWTTokens _) (by decide))
      intro tokens
      exact uses_bind (among_mono (performs_save _) (by decide)) fun _ => trivial

theorem performs_assignRole (assignRoleModel : AssignRoleModel) :
    (AuthService.assignRole assignRoleModel).Uses
      (Op.Among [.findRoles, .findUser, .saveUser]) := by
  apply uses_bind (uses_perform (by simp))
  intro roles
  apply uses_bind (uses_perform (by simp))
  intro user
  split
  · trivial
  · cases user with
    | none => trivial
    | some user => exact uses_bind (uses_perform (by simp)) fun _ => trivial

end Methods

end Manejaplus
