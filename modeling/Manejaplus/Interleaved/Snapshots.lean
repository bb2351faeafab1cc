import Manejaplus.Interleaved.Shared

/-! # What a request may save

Apart from an insert, every request saves an object that it has read from the
table before. The columns a request does not mean to change go back as they
were read, whatever is stored by then.
-/
namespace Manejaplus
open Effect Prog
set_option autoImplicit false

/-- The object that a request has read; `refused` once the password did not match it. -/
inductive Snapshot where
  | none
  | held (e : UserEntity)
  | refused (e : UserEntity)
  deriving DecidableEq

structure Holding where
  request : Request
  snapshot : Snapshot
  deriving DecidableEq

namespace Holding

def isVerified (γ : Holding) : Js Bool :=
  match γ.snapshot with
  | .none => .undefined
  | .held e => if γ.request.verifies then .val true else e.isVerified
  | .refused e => e.isVerified

def isBlocked (γ : Holding) : Js Bool :=
  match γ.snapshot with
  | .none => .undefined
  | .held e => if γ.request.unlocks then .val false else e.isBlocked
  | .refused e => (UserModel.incrementFailedAttempts e).isBlocked

/-- The columns that nobody changes are in the saved object as they were read. -/
def Carries (seen e : UserEntity) : Prop :=
  e.name = seen.name ∧ e.email = seen.email ∧ e.password = seen.password ∧ e.phone = seen.phone ∧
    e.origin = seen.origin ∧ e.createdAt = seen.createdAt

/-- An object the repository has returned has both flags, be it as `null`. -/
def Loaded (seen : UserEntity) : Prop := seen.isVerified ≠ .undefined ∧ seen.isBlocked ≠ .undefined

def Saves (γ : Holding) (e : UserEntity) : Prop :=
  e.isVerified = γ.isVerified ∧ e.isBlocked = γ.isBlocked ∧
    match γ.snapshot with
    | .none => False
    | .held seen => Loaded seen ∧ Carries seen e
    | .refused seen => γ.request.unlocks = false ∧ Loaded seen ∧ Carries seen e

def reads (γ : Holding) (e : UserEntity) : Holding := { γ with snapshot := .held e }

def protocol : Protocol services Exception World Holding where
  next γ _ o r := match o, r with
    | .store (.findUser _), .ok (some e) => γ.reads e
    | .store (.saveUser _), .ok e => match γ.snapshot with
      | .none => γ.reads e
      | _ => γ
    | .outside (.comparePasswords _ _), .ok true => γ
    | .outside (.comparePasswords _ _), _ => match γ.snapshot with
      | .held e => { γ with snapshot := .refused e }
      | _ => γ
    | _, _ => γ
  allows γ o := match o with
    | .store (.saveUser e) => γ.Saves e ∨ (γ.snapshot = .none ∧ e.id = .undefined)
    | _ => True

end Holding

open Holding

variable {env : Env} {α β : Type} {γ : Holding}

abbrev Keeps (env : Env) (γ : Holding) (p : Async α) : Prop :=
  Obeys (shared env) protocol (fun _ => True) γ p fun _ _ => True

section Rules

theorem allows_neutral (γ : Holding) {o : Op} (ho : o.Neutral) : protocol.allows γ o := by
  cases o with
  | store o =>
    cases o with
    | saveUser e => exact ho.elim
    | _ => trivial
  | _ => trivial

theorem next_neutral (γ : Holding) (w : World) {o : Op} (r : Except Exception (services.Res o))
    (ho : o.Neutral) : protocol.next γ w o r = γ := by
  cases o with
  | store o =>
    cases o with
    | findUser q => exact ho.elim
    | saveUser e => exact ho.elim
    | _ => rfl
  | outside o =>
    cases o with
    | comparePasswords passwordTry original => exact ho.elim
    | _ => rfl
  | transaction o => rfl

theorem obeys_neutral {p : Async α} (hp : p.Uses Op.Neutral) :
    Obeys (shared env) protocol (fun _ => True) γ p fun γ' _ => γ' = γ := by
  refine Obeys.of_uses hp (fun γ' o _ ho => allows_neutral γ' ho) ?_ rfl
  rintro γ' w o r rfl ho
  exact next_neutral γ' w r ho

theorem keeps_neutral {p : Async α} (hp : p.Uses Op.Neutral) : Keeps env γ p :=
  Obeys.mono (fun _ _ _ => trivial) (obeys_neutral hp)

theorem keeps_seq {p : Async α} {f : α → Async β} {R : Holding → Except Exception α → Prop}
    (hp : Obeys (shared env) protocol (fun _ => True) γ p R)
    (hf : ∀ γ' a, R γ' (.ok a) → Keeps env γ' (f a)) : Keeps env γ (p.bind f) :=
  Obeys.seq hp hf fun _ _ _ => trivial

theorem keeps_after {p : Async α} {f : α → Async β} (hp : p.Uses Op.Neutral)
    (hf : ∀ a, Keeps env γ (f a)) : Keeps env γ (p.bind f) :=
  keeps_seq (obeys_neutral hp) fun _ a h => h ▸ hf a

theorem keeps_map {p : Async α} {f : α → Async β} (hp : Keeps env γ p)
    (hf : ∀ a, (f a).Uses Op.Neutral) : Keeps env γ (p.bind f) :=
  keeps_seq hp fun _ a _ => keeps_neutral (hf a)

theorem keeps_catching {p : Async α} {recover : Exception → Async α} (hp : Keeps env γ p)
    (hr : ∀ e, (recover e).Uses Op.Neutral) : Keeps env γ (p.catching recover) := by
  refine Obeys.catching.mpr (Obeys.mono ?_ hp)
  rintro γ' (e | a) _
  · exact keeps_neutral (hr e)
  · trivial

theorem keeps_transactional {service : Service} {body : Async α} (hBody : Keeps env γ body) :
    Keeps env γ (Transactional service body) := by
  have hCallback : ∀ manager, Keeps env γ (Transactional.callback service body manager) := by
    intro manager
    apply keeps_after (uses_perform (by trivial))
    intro _
    apply keeps_map (Obeys.attempt.mpr hBody)
    intro result
    apply uses_bind (uses_perform (by trivial))
    intro _
    cases result with
    | ok a => exact uses_bind (uses_perform (by trivial)) fun _ => trivial
    | error e => exact uses_bind (uses_perform (by trivial)) fun _ => trivial
  apply keeps_after (uses_perform (by trivial))
  intro _
  refine keeps_map (Obeys.attempt.mpr (keeps_after (uses_perform (by trivial)) fun manager => ?_))
    fun result => uses_bind (uses_perform (by trivial)) fun _ => uses_ofExcept _ _
  cases manager with
  | none => exact keeps_after (uses_perform (by trivial)) hCallback
  | some _ => exact hBody

theorem keeps_save {e : UserEntity}
    (he : γ.Saves e ∨ (γ.snapshot = .none ∧ e.id = .undefined)) :
    Keeps env γ (UserRepositoryImpl.save e) :=
  (Obeys.perform _).mpr ⟨he, fun _ _ => trivial⟩

def Found (γ : Holding) (γ' : Holding) : Except Exception (Option UserEntity) → Prop
  | .ok (some e) => ∃ row : UserRow, e = row.entity ∧ γ' = γ.reads e
  | _ => γ' = γ

theorem shared_findUser_entity {w : World} {q : UserWhere} {e : UserEntity}
    (h : (shared env (.store (.findUser q)) w).1 = .ok (some e)) :
    ∃ row : UserRow, e = row.entity := by
  simp only [shared, World.execStore, Database.exec] at h
  split at h
  · cases h
  · cases hFound : w.db.users.findOne env.uuid q with
    | none =>
      rw [hFound] at h
      cases h
    | some found =>
      rw [hFound] at h
      cases found with
      | none => cases h
      | some row =>
        cases h
        exact ⟨row, rfl⟩

theorem obeys_findUser (q : UserWhere) :
    Obeys (shared env) protocol (fun _ => True) γ (Async.findUser q) (Found γ) := by
  refine (Obeys.perform _).mpr ⟨trivial, fun w _ => ?_⟩
  match hAnswer : (shared env (.store (.findUser q)) w).1 with
  | .ok (some e) =>
    obtain ⟨row, hRow⟩ := shared_findUser_entity hAnswer
    exact ⟨row, hRow, rfl⟩
  | .ok none => rfl
  | .error e => rfl

theorem obeys_getUserByField (q : UserWhere) :
    Obeys (shared env) protocol (fun _ => True) γ (UserRepositoryImpl.getUserByField q)
      (Found γ) := by
  unfold UserRepositoryImpl.getUserByField
  split
  · exact rfl
  · exact obeys_findUser q

end Rules

section Requests

theorem loaded_entity (row : UserRow) : Loaded row.entity := by
  constructor <;> simp [UserRow.entity]

theorem loaded_insert {w : World} {e e' : UserEntity} (hId : e.id = .undefined)
    (h : (shared env (.store (.saveUser e)) w).1 = .ok e') : Loaded e' := by
  simp only [shared, World.execStore, Database.exec, UserTable.save, hId] at h
  split at h
  · cases h
  · cases hSaved : w.db.users.insert w.choice.uuid w.choice.now e with
    | none =>
      rw [hSaved] at h
      cases h
    | some saved =>
      rw [hSaved] at h
      cases h
      simp only [UserTable.insert, Option.bind_eq_bind, Option.bind_eq_some_iff] at hSaved
      obtain ⟨row, _, _, _, hReturning⟩ := hSaved
      cases hReturning
      constructor <;> simp [UserRow.returning]

/-- A save of an object that was read, with other columns than the carried ones and the flags. -/
theorem keeps_session {q : Request} {seen e : UserEntity} (hVerifies : q.verifies = false)
    (hUnlocks : q.unlocks = false) (hSeen : Loaded seen) (he : Carries seen e)
    (hVerified : e.isVerified = seen.isVerified) (hBlocked : e.isBlocked = seen.isBlocked) :
    Keeps env ⟨q, .held seen⟩ (UserRepositoryImpl.save e) := by
  refine keeps_save (.inl ⟨?_, ?_, hSeen, he⟩)
  · simp [Holding.isVerified, hVerifies, hVerified]
  · simp [Holding.isBlocked, hUnlocks, hBlocked]

theorem keeps_handleFailedLoginAttempt {q : Request} (row : UserRow)
    (hUnlocks : q.unlocks = false) :
    Keeps env ⟨q, .refused row.entity⟩
      (AuthService.handleFailedLoginAttempt (some row.entity)) := by
  refine keeps_map (keeps_save (.inl ?_)) fun _ => trivial
  rw [SqlGlobalMapper.mapClass_default, SqlGlobalMapper.mapClassMethod_entity]
  exact ⟨rfl, rfl, hUnlocks, loaded_entity row, rfl, rfl, rfl, rfl, rfl, rfl⟩

theorem obeys_credentialsFail {q : Request} {loginModel : LoginModel} (row : UserRow) :
    Obeys (shared env) protocol (fun _ => True) ⟨q, .held row.entity⟩
      (AuthService.credentialsFail loginModel (some row.entity)) fun γ' r =>
        (γ' = ⟨q, .held row.entity⟩ ∧ r = .ok false) ∨
          (γ' = ⟨q, .refused row.entity⟩ ∧ r = .ok true) := by
  refine Obeys.bind.mpr (Obeys.catching.mpr ((Obeys.perform _).mpr ⟨trivial, fun w _ => ?_⟩))
  match (shared env (.outside (.comparePasswords loginModel.password row.entity.password)) w).1 with
  | .ok true => exact .inl ⟨rfl, rfl⟩
  | .ok false => exact .inr ⟨rfl, rfl⟩
  | .error e => exact .inr ⟨rfl, rfl⟩

def CheckedUser (q : Request) (γ : Holding) : Except Exception UserModel → Prop
  | .ok user => ∃ row : UserRow, user = row.entity ∧ γ = ⟨q, .held row.entity⟩
  | .error _ => True

theorem obeys_validateUserCredentials {q : Request} (loginModel : LoginModel)
    (hUnlocks : q.unlocks = false) :
    Obeys (shared env) protocol (fun _ => True) ⟨q, .none⟩
      (AuthService.validateUserCredentials loginModel) (CheckedUser q) := by
  refine Obeys.seq (obeys_getUserByField _) ?_ fun _ _ _ => trivial
  intro γ' found hFound
  cases found with
  | none => exact trivial
  | some e =>
    obtain ⟨row, rfl, rfl⟩ := hFound
    refine Obeys.seq (obeys_credentialsFail row) ?_ fun _ _ _ => trivial
    rintro γ' failed (⟨rfl, hOk⟩ | ⟨rfl, hOk⟩) <;> cases hOk
    · exact ⟨row, SqlGlobalMapper.mapClassMethod_entity row, rfl⟩
    · exact Obeys.seq (keeps_handleFailedLoginAttempt row hUnlocks) (fun _ _ _ => trivial)
        fun _ _ _ => trivial

theorem keeps_handleUserLogin {q : Request} {user : UserModel} (hVerifies : q.verifies = false)
    (hUnlocks : q.unlocks = false) (hSeen : Loaded user) :
    Keeps env ⟨q, .held user⟩ (AuthService.handleUserLogin user) := by
  apply keeps_after (neutral_of_among (performs_generateJWTTokens _) (by decide))
  intro tokens
  apply keeps_after (uses_perform (by trivial))
  intro lastConnection
  rw [SqlGlobalMapper.mapClass_default]
  refine keeps_map
    (keeps_session hVerifies hUnlocks hSeen ⟨rfl, rfl, rfl, rfl, rfl, rfl⟩ rfl rfl) fun _ => ?_
  apply uses_bind (uses_perform (by trivial))
  intro _
  exact uses_bind (uses_perform (by trivial)) fun _ => trivial

theorem keeps_loginUser (loginModel : LoginModel) :
    Keeps env ⟨.loginUser loginModel, .none⟩ (AuthService.loginUser loginModel) := by
  apply keeps_seq (obeys_validateUserCredentials loginModel rfl)
  rintro γ' user ⟨row, rfl, rfl⟩
  refine keeps_after ?_ fun _ => ?_
  · unfold AuthService.checkUserStatus
    split
    · trivial
    · split <;> trivial
  · exact keeps_after (neutral_of_among (performs_handleOtpIfRequired _ _) (by decide)) fun _ =>
      keeps_handleUserLogin rfl rfl (loaded_entity row)

theorem keeps_unlockAccount (loginModel : LoginModel) :
    Keeps env ⟨.unlockAccount loginModel, .none⟩ (AuthService.unlockAccount loginModel) := by
  apply keeps_seq (obeys_validateUserCredentials loginModel rfl)
  rintro γ' user ⟨row, rfl, rfl⟩
  split
  · exact keeps_neutral (uses_bind (uses_perform (by trivial)) fun _ => trivial)
  · trivial

theorem keeps_updateByToken {q : Request} {setFlag : UserEntity → UserEntity}
    (hSave : ∀ row : UserRow, Saves ⟨q, .held row.entity⟩ (setFlag row.entity)) (token : String) :
    Keeps env ⟨q, .none⟩ (AuthService.updateByToken setFlag token) := by
  refine keeps_transactional (keeps_catching ?_ fun _ => trivial)
  apply keeps_after (uses_perform (by trivial))
  intro payload
  refine keeps_after ?_ fun sub => ?_
  · unfold AuthService.subject
    split <;> trivial
  · apply keeps_seq (obeys_getUserByField _)
    intro γ' found hFound
    cases found with
    | none => trivial
    | some e =>
      obtain ⟨row, rfl, rfl⟩ := hFound
      exact keeps_map (keeps_save (.inl (hSave row))) fun _ => trivial

theorem keeps_refreshToken (loginModel : LoginModel) :
    Keeps env ⟨.refreshToken loginModel, .none⟩ (AuthService.refreshToken loginModel) := by
  apply keeps_seq (obeys_getUserByField _)
  intro γ' found hFound
  cases found with
  | none => trivial
  | some e =>
    obtain ⟨row, rfl, rfl⟩ := hFound
    simp only
    split
    · trivial
    · refine keeps_catching ?_ fun _ => trivial
      apply keeps_after (neutral_of_among (performs_generateJWTTokens _) (by decide))
      intro tokens
      exact keeps_map
        (keeps_session rfl rfl (loaded_entity row) ⟨rfl, rfl, rfl, rfl, rfl, rfl⟩ rfl rfl)
        fun _ => trivial

theorem keeps_assignRole (assignRoleModel : AssignRoleModel) :
    Keeps env ⟨.assignRole assignRoleModel, .none⟩ (AuthService.assignRole assignRoleModel) := by
  apply keeps_after (uses_perform (by trivial))
  intro roles
  apply keeps_seq (obeys_findUser _)
  intro γ' found hFound
  split
  · trivial
  · cases found with
    | none => trivial
    | some e =>
      obtain ⟨row, rfl, rfl⟩ := hFound
      exact keeps_map
        (keeps_session rfl rfl (loaded_entity row) ⟨rfl, rfl, rfl, rfl, rfl, rfl⟩ rfl rfl)
        fun _ => trivial

theorem obeys_encriptPassword (user : UserModel) :
    Obeys (shared env) protocol (fun _ => True) γ (UserModel.encriptPassword user) fun γ' r =>
      γ' = γ ∧ ∀ a, r = .ok a → a.id = user.id := by
  refine Obeys.seq (obeys_neutral (uses_catching (uses_perform (by trivial)) fun _ => trivial))
    ?_ ?_
  · rintro γ' password rfl
    refine ⟨rfl, ?_⟩
    rintro _ ⟨rfl⟩
    rfl
  · rintro γ' e rfl
    exact ⟨rfl, fun _ h => (nomatch h)⟩

theorem keeps_createUser (dto : CreateUserDto) :
    Keeps env ⟨.createUser dto, .none⟩ (UserController.createUser dto) := by
  refine keeps_transactional (keeps_seq (obeys_getUserByField _) ?_)
  intro γ' found hFound
  cases found with
  | some e => trivial
  | none =>
    cases hFound
    apply keeps_seq (obeys_encriptPassword _)
    rintro γ' user ⟨rfl, hUser⟩
    have hId : user.id = .undefined := hUser user rfl
    refine keeps_map (keeps_save (.inr ⟨rfl, ?_⟩)) fun saved => ?_
    · rw [SqlGlobalMapper.mapClass_default, hId]
    · refine uses_bind (uses_catching ?_ fun _ => trivial) fun link => ?_
      · exact uses_bind (uses_perform (by trivial)) fun _ => trivial
      · exact uses_bind (uses_perform (by trivial)) fun _ => trivial

theorem obeys_createGoogleUser {q : Request} (cases : CaseMapping) (profile : GoogleProfile) :
    Obeys (shared env) protocol (fun _ => True) ⟨q, .none⟩
      (AuthService.createGoogleUser cases profile) fun γ' r =>
        ∀ user, r = .ok user → γ' = ⟨q, .held user⟩ ∧ Loaded user := by
  refine Obeys.seq (obeys_neutral (uses_catching (uses_perform (by trivial)) fun _ => trivial))
    ?_ fun _ _ _ _ h => (nomatch h)
  rintro γ' password rfl
  refine (Obeys.perform _).mpr ⟨.inr ⟨rfl, by rw [SqlGlobalMapper.mapClass_default]⟩, fun w _ => ?_⟩
  intro user hUser
  refine ⟨?_, loaded_insert (by rw [SqlGlobalMapper.mapClass_default]) hUser⟩
  rw [hUser]
  rfl

theorem keeps_googleLoginUser (cases : CaseMapping) (profile : Option GoogleProfile) :
    Keeps env ⟨.googleLoginUser profile, .none⟩ (AuthService.googleLoginUser cases profile) := by
  match profile with
  | none => trivial
  | some profile =>
    refine keeps_seq (R := fun γ' r => ∀ user, r = .ok user →
      γ' = ⟨.googleLoginUser (some profile), .held user⟩ ∧ Loaded user) ?_ ?_
    · refine Obeys.seq (obeys_getUserByField _) ?_ fun _ _ _ _ h => (nomatch h)
      intro γ' found hFound
      match found with
      | none =>
        cases hFound
        exact obeys_createGoogleUser cases profile
      | some e =>
        obtain ⟨row, rfl, rfl⟩ := hFound
        rintro user ⟨rfl⟩
        exact ⟨rfl, loaded_entity row⟩
    · intro γ' user hUser
      rw [(hUser user rfl).1, SqlGlobalMapper.mapClass_default]
      exact keeps_handleUserLogin rfl rfl (hUser user rfl).2

/-- Every request keeps to the protocol, whatever the others do meanwhile. -/
theorem keeps_serve (q : Request) : Keeps env ⟨q, .none⟩ (serve env.cases q) := by
  cases q with
  | createUser dto => exact keeps_map (keeps_createUser dto) fun _ => trivial
  | loginUser loginModel => exact keeps_map (keeps_loginUser loginModel) fun _ => trivial
  | unlockAccount loginModel => exact keeps_map (keeps_unlockAccount loginModel) fun _ => trivial
  | googleLoginUser user => exact keeps_map (keeps_googleLoginUser env.cases user) fun _ => trivial
  | refreshToken loginModel => exact keeps_map (keeps_refreshToken loginModel) fun _ => trivial
  | assignRole assignRoleModel =>
    exact keeps_map (keeps_assignRole assignRoleModel) fun _ => trivial
  | verifyAccount token =>
    refine keeps_map (keeps_updateByToken (fun row => ?_) token) fun _ => trivial
    exact ⟨rfl, rfl, loaded_entity row, rfl, rfl, rfl, rfl, rfl, rfl⟩
  | unlockAccountToken token =>
    refine keeps_map (keeps_updateByToken (fun row => ?_) token) fun _ => trivial
    exact ⟨rfl, rfl, loaded_entity row, rfl, rfl, rfl, rfl, rfl, rfl⟩

end Requests

end Manejaplus
