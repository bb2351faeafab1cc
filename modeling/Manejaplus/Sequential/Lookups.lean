import Manejaplus.Sequential.LifeCycle
import Manejaplus.Sequential.OneTimeUse

/-! # Which account a request looks up

A request reaches an account only by the `where` clause it starts with, so one
that does not select an account leaves its row and its codes alone.
-/
namespace Manejaplus
open Effect Prog
set_option autoImplicit false

/-- The account a token is to lead to. -/
def Payload.lookup : Payload → Option UserWhere
  | { sub := .val sub, .. } => some { email := some sub.email, id := some sub.id }
  | _ => none

namespace Request

/-- The `where` clause a request looks its account up with. -/
def lookup (env : Env) : Request → Option UserWhere
  | .createUser dto => some { email := some (.val dto.email) }
  | .loginUser loginModel => some { email := some (.val loginModel.email) }
  | .unlockAccount loginModel => some { email := some (.val loginModel.email) }
  | .googleLoginUser user => user.map fun profile => { email := some (.val profile.email) }
  | .refreshToken loginModel => some { email := some (.val loginModel.email) }
  | .assignRole assignRoleModel => some { id := some (.val assignRoleModel.userId) }
  | .verifyAccount token => (env.decode token).bind Payload.lookup
  | .unlockAccountToken token => (env.decode token).bind Payload.lookup

/-- The e-mail of the account that a request opens. -/
def newEmail (cases : CaseMapping) : Request → Option String
  | .createUser dto => some dto.email
  | .googleLoginUser user => user.map fun profile => cases.toLowerCase profile.email
  | _ => none

end Request

def UserWhere.Selects (env : Env) (q : UserWhere) (row : UserRow) : Bool :=
  UserTable.emailCondition q.email row && (UserTable.idCondition env.uuid q.id).any fun sameId => sameId row

/-- The request looks this account up. -/
def Request.About (env : Env) (q : Request) (row : UserRow) : Prop :=
  ∃ query ∈ q.lookup env, query.Selects env row = true

instance (env : Env) (q : Request) (row : UserRow) : Decidable (q.About env row) :=
  inferInstanceAs (Decidable (∃ query ∈ q.lookup env, _))

section Statements
variable {env : Env} {w w' : World} {q : Request} {row row' : UserRow} {id : String}

theorem OtpSent.apart {found : UserRow} {typeOtp type : TypeOtp} {r : Except Exception UserModel}
    {s : State} (hNe : found.id ≠ id) (h : OtpSent typeOtp found w r s) :
    s.db.otps.findByType type (.val id) = w.db.otps.findByType type (.val id) := by
  cases h with
  | fails => rfl
  | sent code now hOtps =>
    exact OtpCalls.findByType_append hOtps fun hOwn => hNe (Option.some.inj hOwn.2)

theorem OtpChecked.apart {found : UserRow} {typeOtp type : TypeOtp} {code : String}
    {r : Except Exception Bool} {s : State} (hNe : found.id ≠ id)
    (h : OtpChecked typeOtp code (.val found.id) w r s) :
    s.db.otps.findByType type (.val id) = w.db.otps.findByType type (.val id) := by
  cases h with
  | @accepted otp otps now hFound _ hRows =>
    obtain ⟨hMem, hOfType⟩ := OtpTable.findByType_mem hFound
    simp only [OtpTable.ofType, Bool.and_eq_true, beq_iff_eq] at hOfType
    refine OtpCalls.findByType_replace hMem (otp.keeps_used now) hRows fun hOwn => hNe ?_
    exact Option.some.inj (hOfType.2.symm.trans hOwn.2)
  | _ => rfl

theorem OtpHandled.apart {found : UserRow} {loginModel : LoginModel} {type : TypeOtp}
    {r : Except Exception Unit} {s : State} (hNe : found.id ≠ id)
    (h : OtpHandled loginModel found w r s) :
    s.db.otps.findByType type (.val id) = w.db.otps.findByType type (.val id) := by
  cases h with
  | skipped => rfl
  | unsent _ _ _ hSent => exact hSent.apart hNe
  | required _ _ _ hSent => exact hSent.apart hNe
  | unchecked _ _ _ hChecked => exact hChecked.apart hNe
  | wrong _ _ _ hChecked => exact hChecked.apart hNe
  | right _ _ _ hChecked => exact hChecked.apart hNe

theorem Session.otps {r : Except Exception JWTTokens} {s : State} (h : Session env row w r s) :
    s.db.otps = w.db.otps := by
  cases h <;> rfl

theorem Credentials.otps {loginModel : LoginModel} {r : Except Exception UserModel} {s : State}
    (h : Credentials env loginModel w r s) : s.db.otps = w.db.otps := by
  cases h <;> rfl

theorem TokenEnds.otps {flag : UserRow → UserRow} {token : String} {r : Except Exception AccountInfo}
    {s : State} (h : TokenEnds env flag token w r s) : s.db.otps = w.db.otps := by
  cases h <;> rfl

theorem LoginEnds.apart {loginModel : LoginModel} {type : TypeOtp} {r : Except Exception JWTTokens}
    {s : State} (hOther : ∀ found ∈ w.db.users.byEmail loginModel.email, found.id ≠ id)
    (h : LoginEnds env loginModel w r s) :
    s.db.otps.findByType type (.val id) = w.db.otps.findByType type (.val id) := by
  cases h with
  | rejected hRejected => rw [hRejected.otps]
  | closed => rfl
  | held hEmail _ _ hHandled => exact hHandled.apart (hOther _ hEmail)
  | session hEmail _ _ hHandled _ hSession =>
    rw [hSession.otps]
    exact hHandled.apart (hOther _ hEmail)

/-- A request that is not about the account leaves it its row, its e-mail and its codes. -/
structure Spares (row : UserRow) (w w' : World) : Prop where
  stored : ∃ updatedAt, w'.db.users.byId row.id = some { row with updatedAt }
  codes : ∀ type, w'.db.otps.findByType type (.val row.id) = w.db.otps.findByType type (.val row.id)
  rest : w.Rest w'

theorem Spares.trans {w₁ w₂ : World} {updatedAt : Time}
    (h : Spares row w w₁) (h' : Spares { row with updatedAt } w₁ w₂) : Spares row w w₂ where
  stored := h'.stored
  codes type := (h'.codes type).trans (h.codes type)
  rest := h.rest.trans h'.rest

end Statements

end Manejaplus
