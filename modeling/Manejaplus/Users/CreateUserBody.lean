import Manejaplus.Requests

/-! # What the validation pipe makes of a registration

The transforms run first, and the decorators of `CreateUserDto` then look at what they left.
-/
namespace Manejaplus
set_option autoImplicit false

/-- The checks of `class-validator` that the language does not have. -/
structure Validator where
  isEmail : String → Bool
  length : String → Nat

namespace RegExp

def isLineTerminator (c : Char) : Bool := [10, 13, 0x2028, 0x2029].contains c.toNat

/-- `\w` -/
def isWord (c : Char) : Bool := c.isAlphanum || c == '_'

/-- `\s` -/
def isSpace (c : Char) : Bool :=
  (9 ≤ c.toNat && c.toNat ≤ 13) || (0x2000 ≤ c.toNat && c.toNat ≤ 0x200a) ||
    [32, 0xa0, 0x1680, 0x2028, 0x2029, 0x202f, 0x205f, 0x3000, 0xfeff].contains c.toNat

/-- A pattern without `^` is tried at every position. -/
def test (matchesAt : List Char → Bool) : List Char → Bool
  | [] => matchesAt []
  | c :: cs => matchesAt (c :: cs) || test matchesAt cs

/-- `((?=.*\d)|(?=.*\W+))(?![.\n])(?=.*[A-Z])(?=.*[a-z]).*$` at one position. No line ends after it,
so every `.*` can reach to the end. -/
def password (cs : List Char) : Bool :=
  cs.any (fun c => c.isDigit || !isWord c) && cs.head? != some '.' && cs.any Char.isUpper &&
    cs.any Char.isLower && cs.all fun c => !isLineTerminator c

/-- `^[+]*[(]{0,1}[0-9]{1,4}[)]{0,1}[-\s\./0-9]*$` -/
def phone (cs : List Char) : Bool :=
  let cs := cs.dropWhile (· == '+')
  let cs := if cs.head? = some '(' then cs.tail else cs
  let digits := cs.takeWhile Char.isDigit
  let rest := cs.dropWhile Char.isDigit
  -- the tail may hold more digits, but a closing bracket only after the first four at most
  let rest := if digits.length ≤ 4 && rest.head? = some ')' then rest.tail else rest
  !digits.isEmpty && rest.all fun c => c.isDigit || isSpace c || c == '-' || c == '.' || c == '/'

end RegExp

/-- The four fields of the body; the pipe drops any other. -/
structure CreateUserBody where
  name : String
  email : String
  password : String
  phone : String
  deriving DecidableEq, Repr

/-- The `@Transform` decorators. -/
def CreateUserBody.toDto (cases : CaseMapping) (body : CreateUserBody) : CreateUserDto where
  name := cases.toUpperCase body.name
  email := cases.toLowerCase body.email
  password := body.password
  phone := body.phone

namespace CreateUserDto

def validName (v : Validator) (dto : CreateUserDto) : Bool :=
  dto.name != "" && v.length dto.name ≤ 100

def validEmail (v : Validator) (dto : CreateUserDto) : Bool :=
  dto.email != "" && v.isEmail dto.email && v.length dto.email ≤ 100

def validPassword (v : Validator) (dto : CreateUserDto) : Bool :=
  dto.password != "" && 8 ≤ v.length dto.password && v.length dto.password ≤ 100 &&
    RegExp.test RegExp.password dto.password.toList

def validPhone (v : Validator) (dto : CreateUserDto) : Bool :=
  dto.phone != "" && v.length dto.phone ≤ 20 && RegExp.phone dto.phone.toList

def valid (v : Validator) (dto : CreateUserDto) : Bool :=
  dto.validName v && dto.validEmail v && dto.validPassword v && dto.validPhone v

end CreateUserDto

/-- `ValidationPipe({ transform: true, whitelist: true })` on the body of a registration. -/
def CreateUserBody.admitted (v : Validator) (cases : CaseMapping) (body : CreateUserBody) :
    Option CreateUserDto :=
  let dto := body.toDto cases
  if dto.valid v then some dto else none

variable {v : Validator} {cases : CaseMapping} {body : CreateUserBody} {dto : CreateUserDto}

theorem CreateUserBody.admitted_iff :
    body.admitted v cases = some dto ↔ (body.toDto cases).valid v = true ∧ body.toDto cases = dto := by
  unfold admitted
  cases h : (body.toDto cases).valid v <;> simp [h]

/-- What is admitted is stored with a lower-case e-mail and the password as it was sent. -/
theorem CreateUserBody.admitted_fields (h : body.admitted v cases = some dto) :
    dto.email = cases.toLowerCase body.email ∧ dto.password = body.password := by
  obtain ⟨_, rfl⟩ := admitted_iff.mp h
  exact ⟨rfl, rfl⟩

end Manejaplus
