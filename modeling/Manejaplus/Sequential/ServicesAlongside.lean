import Manejaplus.Sequential.TwoRuns

/-! # The services do not act on stored secrets -/
namespace Manejaplus
open Effect Prog
set_option autoImplicit false

variable {env : Env} {V : SameHash}

section Objects
variable {user user' : UserObject}

theorem objectsAlike_refl (hRefl : ∀ hash, V hash hash) (user : UserObject) :
    ObjectsAlike V user user := by
  refine ⟨?_, rfl⟩
  cases user.password with
  | undefined => exact .undefined
  | null => exact .null
  | val hash => exact .val (hRefl hash)

theorem ObjectsAlike.mapClass (h : ObjectsAlike V user user') :
    ObjectsAlike V (SqlGlobalMapper.mapClass user) (SqlGlobalMapper.mapClass user') := by
  rwa [SqlGlobalMapper.mapClass_default, SqlGlobalMapper.mapClass_default]

theorem ObjectsAlike.mapClassMethod (h : ObjectsAlike V user user') :
    ObjectsAlike V (SqlGlobalMapper.mapClassMethod user)
      (SqlGlobalMapper.mapClassMethod user') := by
  have hCopy : ∀ user, SqlGlobalMapper.mapClassMethod user = { user with
      origin := user.origin.assignTo (.val "web")
      attemptsFailed := user.attemptsFailed.assignTo (.val 0)
      isVerified := user.isVerified.assignTo (.val false)
      isBlocked := user.isBlocked.assignTo (.val false) } := fun user => by
    simp [SqlGlobalMapper.mapClassMethod, SqlGlobalMapper.copy, SqlGlobalMapper.keeps_default,
      SqlGlobalMapper.newUserModel]
  rw [hCopy, hCopy]
  exact ⟨h.password, congrArg (fun user => { user with
    origin := user.origin.assignTo (.val "web")
    attemptsFailed := user.attemptsFailed.assignTo (.val 0)
    isVerified := user.isVerified.assignTo (.val false)
    isBlocked := user.isBlocked.assignTo (.val false) }) h.rest⟩

theorem ObjectsAlike.incrementFailedAttempts (h : ObjectsAlike V user user') :
    ObjectsAlike V (UserModel.incrementFailedAttempts user)
      (UserModel.incrementFailedAttempts user') where
  password := h.password
  rest := (congrArg UserModel.incrementFailedAttempts h.rest :)

theorem ObjectsAlike.email (h : ObjectsAlike V user user') : user.email = user'.email :=
  (congrArg UserObject.email h.rest :)

theorem ObjectsAlike.name (h : ObjectsAlike V user user') : user.name = user'.name :=
  (congrArg UserObject.name h.rest :)

theorem ObjectsAlike.isVerified (h : ObjectsAlike V user user') :
    user.isVerified = user'.isVerified :=
  (congrArg UserObject.isVerified h.rest :)

theorem ObjectsAlike.isBlocked (h : ObjectsAlike V user user') : user.isBlocked = user'.isBlocked :=
  (congrArg UserObject.isBlocked h.rest :)

end Objects

section Steps
variable {user user' : UserObject}

theorem alongside_getUserByField (query : UserWhere) :
    Alongside env V (Option.Rel (ObjectsAlike V)) (UserRepositoryImpl.getUserByField query)
      (UserRepositoryImpl.getUserByField query) := by
  unfold UserRepositoryImpl.getUserByField
  split
  · exact Lockstep.throw _
  · exact alongside_findUser query

theorem alongside_generateJWTTokens (payload : UserObject) :
    Alongside env V (· = ·) (AuthService.generateJWTTokens payload)
      (AuthService.generateJWTTokens payload) := by
  apply Lockstep.bind (alongside_signAsync fun _ => rfl)
  rintro accessToken _ rfl
  apply Lockstep.bind (alongside_signAsync fun _ => rfl)
  rintro refreshToken _ rfl
  exact Lockstep.pure rfl

theorem alongside_handleFailedLoginAttempt {found found' : Option UserEntity}
    (h : Option.Rel (ObjectsAlike V) found found') :
    Alongside env V (· = ·) (AuthService.handleFailedLoginAttempt found)
      (AuthService.handleFailedLoginAttempt found') := by
  cases h with
  | none => exact Lockstep.pure rfl
  | some hUser =>
    have hFailed := hUser.mapClassMethod.incrementFailedAttempts
    exact Lockstep.bind (alongside_saveUser hFailed.mapClass) fun _ _ _ => Lockstep.pure rfl

theorem alongside_validateUserCredentials {loginModel : LoginModel}
    (hVerdict : ∀ a b, V a b →
      env.compare loginModel.password a = env.compare loginModel.password b) :
    Alongside env V (ObjectsAlike V) (AuthService.validateUserCredentials loginModel)
      (AuthService.validateUserCredentials loginModel) := by
  apply Lockstep.bind (alongside_getUserByField _)
  intro found found' hFound
  refine Lockstep.bind (A := (· = ·)) ?_ ?_
  · cases hFound with
    | none => exact Lockstep.pure rfl
    | some hUser =>
      apply Lockstep.bind (alongside_comparePasswords hVerdict hUser.password)
      rintro same _ rfl
      exact Lockstep.pure rfl
  · rintro failed _ rfl
    split
    · exact Lockstep.bind (alongside_handleFailedLoginAttempt hFound) fun _ _ _ => Lockstep.throw _
    · apply Lockstep.pure
      cases hFound with
      | none => exact ⟨.undefined, rfl⟩
      | some hUser => exact hUser.mapClassMethod

theorem alongside_checkUserStatus (h : ObjectsAlike V user user') :
    Alongside env V (· = ·) (AuthService.checkUserStatus user)
      (AuthService.checkUserStatus user') := by
  unfold AuthService.checkUserStatus
  rw [h.isVerified, h.isBlocked]
  split
  · exact Lockstep.throw _
  · split
    · exact Lockstep.throw _
    · exact Lockstep.pure rfl

theorem alongside_validateNeedOtpToLogin (h : ObjectsAlike V user user') :
    Alongside env V (· = ·) (UserModel.validateNeedOtpToLogin user)
      (UserModel.validateNeedOtpToLogin user') := by
  have hLast : user.lastConnection = user'.lastConnection :=
    (congrArg UserObject.lastConnection h.rest :)
  have hMaintain : user.maintainSession = user'.maintainSession :=
    (congrArg UserObject.maintainSession h.rest :)
  simp only [UserModel.validateNeedOtpToLogin, hLast, hMaintain]
  split
  · apply Lockstep.bind alongside_newDate
    rintro now _ rfl
    exact Lockstep.pure rfl
  · exact Lockstep.pure rfl

theorem alongside_sendOtpCode (type : TypeOtp) (h : ObjectsAlike V user user') :
    Alongside env V (fun _ _ => True) (OtpService.sendOtpCode type user)
      (OtpService.sendOtpCode type user') := by
  refine alongside_transactional ?_
  refine Lockstep.bind (A := (· = ·)) (Lockstep.bind alongside_random ?_) ?_
  · rintro random _ rfl
    exact Lockstep.pure rfl
  · rintro otpCode _ rfl
    refine Lockstep.bind (alongside_saveOtp ⟨.val h.mapClass, rfl⟩) fun _ _ _ => ?_
    refine Lockstep.bind (alongside_sendEmail ?_) fun _ _ _ => Lockstep.pure trivial
    simp only [Mail.render, h.email]

theorem alongside_checkOtpCodeIsValid (hRefl : ∀ hash, V hash hash) (type : TypeOtp)
    (otpCode : String) (userId : Js String) :
    Alongside env V (· = ·) (OtpService.checkOtpCodeIsValid type otpCode userId)
      (OtpService.checkOtpCodeIsValid type otpCode userId) := by
  apply Lockstep.bind (alongside_findOtp type userId)
  rintro found _ rfl
  cases found with
  | none => exact Lockstep.throw _
  | some otp =>
    simp only
    split
    · refine Lockstep.bind (alongside_saveOtp ⟨?_, rfl⟩) fun _ _ _ => Lockstep.pure rfl
      simp only
      cases otp.user with
      | undefined => exact .undefined
      | null => exact .null
      | val user => exact .val (objectsAlike_refl hRefl user)
    · exact Lockstep.pure rfl

theorem alongside_handleOtpIfRequired (hRefl : ∀ hash, V hash hash) (loginModel : LoginModel)
    (h : ObjectsAlike V user user') :
    Alongside env V (· = ·) (AuthService.handleOtpIfRequired user loginModel)
      (AuthService.handleOtpIfRequired user' loginModel) := by
  apply Lockstep.bind (alongside_validateNeedOtpToLogin h)
  rintro needs _ rfl
  split
  · exact Lockstep.bind (alongside_sendOtpCode _ h) fun _ _ _ => Lockstep.throw _
  · apply Lockstep.bind (alongside_validateNeedOtpToLogin h)
    rintro needs' _ rfl
    split
    · rw [h.id]
      apply Lockstep.bind (alongside_checkOtpCodeIsValid hRefl _ _ _)
      rintro isValid _ rfl
      split
      · exact Lockstep.throw _
      · exact Lockstep.pure rfl
    · exact Lockstep.pure rfl

theorem alongside_handleUserLogin (h : ObjectsAlike V user user') :
    Alongside env V (· = ·) (AuthService.handleUserLogin user)
      (AuthService.handleUserLogin user') := by
  have hPayload : ({ email := user.email, id := user.id } : UserObject) =
      { email := user'.email, id := user'.id } := by rw [h.email, h.id]
  unfold AuthService.handleUserLogin
  rw [hPayload]
  apply Lockstep.bind (alongside_generateJWTTokens _)
  rintro tokens _ rfl
  apply Lockstep.bind alongside_newDate
  rintro lastConnection _ rfl
  have hSaved : ObjectsAlike V
      { user with
        accessToken := .val tokens.accessToken
        refreshToken := .val tokens.refreshToken
        lastConnection := .val lastConnection }
      { user' with
        accessToken := .val tokens.accessToken
        refreshToken := .val tokens.refreshToken
        lastConnection := .val lastConnection } :=
    ⟨h.password, congrArg (fun user => { user with lastConnection := .val lastConnection }) h.rest⟩
  apply Lockstep.bind (alongside_saveUser hSaved.mapClass)
  intro _ _ _
  apply Lockstep.bind (alongside_encryptString _)
  rintro accessToken _ rfl
  apply Lockstep.bind (alongside_encryptString _)
  rintro refreshToken _ rfl
  exact Lockstep.pure rfl

end Steps

section Methods

theorem alongside_loginUser (hRefl : ∀ hash, V hash hash) {loginModel : LoginModel}
    (hVerdict : ∀ a b, V a b →
      env.compare loginModel.password a = env.compare loginModel.password b) :
    Alongside env V (· = ·) (AuthService.loginUser loginModel)
      (AuthService.loginUser loginModel) := by
  apply Lockstep.bind (alongside_validateUserCredentials hVerdict)
  intro user user' h
  apply Lockstep.bind (alongside_checkUserStatus h)
  intro _ _ _
  apply Lockstep.bind (alongside_handleOtpIfRequired hRefl loginModel h)
  intro _ _ _
  exact alongside_handleUserLogin h

/-- The links themselves may differ. -/
theorem alongside_unlockAccount {loginModel : LoginModel}
    (hVerdict : ∀ a b, V a b →
      env.compare loginModel.password a = env.compare loginModel.password b) :
    Alongside env V (fun _ _ => True) (AuthService.unlockAccount loginModel)
      (AuthService.unlockAccount loginModel) := by
  apply Lockstep.bind (alongside_validateUserCredentials hVerdict)
  intro user user' h
  simp only [h.isVerified, h.isBlocked]
  split
  · exact Lockstep.bind (alongside_signAsync (A := fun _ _ => True) fun _ => trivial)
      fun _ _ _ => Lockstep.pure trivial
  · exact Lockstep.throw _

theorem alongside_createGoogleUser (hRefl : ∀ hash, V hash hash) (cases : CaseMapping)
    (profile : GoogleProfile) :
    Alongside env V (· = ·) (AuthService.createGoogleUser cases profile)
      (AuthService.createGoogleUser cases profile) := by
  apply Lockstep.bind (alongside_hashPassword _)
  rintro password _ rfl
  exact alongside_insertUser hRefl rfl

theorem alongside_googleLoginUser (hRefl : ∀ hash, V hash hash) (cases : CaseMapping)
    (profile : Option GoogleProfile) :
    Alongside env V (· = ·) (AuthService.googleLoginUser cases profile)
      (AuthService.googleLoginUser cases profile) := by
  cases profile with
  | none => exact Lockstep.throw _
  | some profile =>
    refine Lockstep.bind (A := ObjectsAlike V) ?_ fun user user' h =>
      alongside_handleUserLogin h.mapClass
    apply Lockstep.bind (alongside_getUserByField _)
    intro found found' hFound
    cases hFound with
    | none =>
      refine Lockstep.mono ?_ (alongside_createGoogleUser hRefl cases profile)
      rintro user _ rfl
      exact objectsAlike_refl hRefl user
    | some hUser => exact Lockstep.pure hUser

theorem alongside_generateLink (data : UserObject) :
    Alongside env V (· = ·) (UserService.generateLinkJwtToVerifyEmail data)
      (UserService.generateLinkJwtToVerifyEmail data) := by
  refine Lockstep.catching (Lockstep.bind (alongside_signAsync fun _ => rfl) ?_)
    fun _ => Lockstep.throw _
  rintro token _ rfl
  exact Lockstep.pure rfl

theorem alongside_createUser (hRefl : ∀ hash, V hash hash) (dto : CreateUserDto) :
    Alongside env V (· = ·) (UserController.createUser dto) (UserController.createUser dto) := by
  apply alongside_transactional
  apply Lockstep.bind (alongside_getUserByField _)
  intro found found' hFound
  cases hFound with
  | some hUser => exact Lockstep.throw _
  | none =>
    refine Lockstep.bind (A := fun user user' => user = user' ∧ user.id = .undefined)
      (Lockstep.bind (alongside_hashPassword _) ?_) ?_
    · rintro password _ rfl
      exact Lockstep.pure ⟨rfl, rfl⟩
    · rintro user _ ⟨rfl, hNew⟩
      rw [SqlGlobalMapper.mapClass_default]
      apply Lockstep.bind (alongside_insertUser hRefl hNew)
      rintro saved _ rfl
      apply Lockstep.bind (alongside_generateLink saved)
      rintro callbackUrl _ rfl
      exact Lockstep.bind (alongside_sendEmail rfl) fun _ _ _ => Lockstep.pure rfl

theorem alongside_updateByToken (setFlag : UserEntity → UserEntity)
    (hFlag : ∀ user user', ObjectsAlike V user user' → ObjectsAlike V (setFlag user) (setFlag user'))
    (token : String) :
    Alongside env V (· = ·) (AuthService.updateByToken setFlag token)
      (AuthService.updateByToken setFlag token) := by
  apply alongside_transactional
  refine Lockstep.catching (Lockstep.bind (alongside_decode token) ?_) fun _ => Lockstep.throw _
  rintro payload _ rfl
  refine Lockstep.bind (A := (· = ·)) ?_ ?_
  · unfold AuthService.subject
    split
    · exact Lockstep.pure rfl
    · exact Lockstep.throw _
  · rintro sub _ rfl
    apply Lockstep.bind (alongside_getUserByField _)
    intro found found' hFound
    cases hFound with
    | none => exact Lockstep.throw _
    | some hUser =>
      apply Lockstep.bind (alongside_saveUser (hFlag _ _ hUser))
      intro saved saved' hSaved
      exact Lockstep.pure (by rw [hSaved.email, hSaved.name])

theorem alongside_verifyAccount (token : String) :
    Alongside env V (· = ·) (AuthService.verifyAccount token) (AuthService.verifyAccount token) :=
  alongside_updateByToken (fun userEntity => { userEntity with isVerified := .val true })
    (fun _ _ h => ⟨h.password,
      (congrArg (fun user : UserObject => { user with isVerified := .val true }) h.rest :)⟩) token

theorem alongside_unlockAccountToken (token : String) :
    Alongside env V (· = ·) (AuthService.unlockAccountToken token)
      (AuthService.unlockAccountToken token) :=
  alongside_updateByToken (fun userEntity => { userEntity with isBlocked := .val false })
    (fun _ _ h => ⟨h.password,
      (congrArg (fun user : UserObject => { user with isBlocked := .val false }) h.rest :)⟩) token

/-- What is returned may differ. -/
theorem alongside_assignRole (assignRoleModel : AssignRoleModel) :
    Alongside env V (fun _ _ => True) (AuthService.assignRole assignRoleModel)
      (AuthService.assignRole assignRoleModel) := by
  apply Lockstep.bind (alongside_findRoles _)
  rintro roles _ rfl
  apply Lockstep.bind (alongside_findUser _)
  intro found found' hFound
  split
  · exact Lockstep.throw _
  · cases hFound with
    | none => exact Lockstep.throw _
    | some hUser =>
      refine Lockstep.bind (alongside_saveUser ⟨hUser.password, congrArg (fun user => { user with
        roles := .val roles, id := .val assignRoleModel.userId }) hUser.rest⟩) fun _ _ _ => ?_
      exact Lockstep.pure trivial

end Methods

end Manejaplus
