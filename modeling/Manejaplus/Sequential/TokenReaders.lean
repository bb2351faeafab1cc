import Manejaplus.Authentication.JwtExtractor
import Manejaplus.Sequential.Served
import Manejaplus.Tenancy.TenantInterceptor

/-! # Two readers of one header

The strategy decrypts what it finds, the interceptor does not; and they take
different headers apart in different ways.
-/
namespace Manejaplus
open Effect Prog
set_option autoImplicit false

namespace TokenReaders
variable {env : Env} {w w' : World}

/-- A token that is not there, and one that is empty, count for nothing. -/
def obtained (token : Option String) : Option String := token.filter (· != "")

def ofStrategy (env : Env) (decrypt : String → Option String) (header : Option String) :
    Option String :=
  obtained (EXTRACTOR_JWT.fromAuthHeaderAsBearerToken env.cases decrypt header)

def ofInterceptor (header : Option String) : Option String :=
  obtained (TenantInterceptor.extractTokenFromHeader header)

/-- The account a request has signed in: the one it was about, or the one it has made. -/
def SignedIn (env : Env) (q : Request) (before after : Database) (row : UserRow) : Prop :=
  after.users.byId row.id = some row ∧ match q.account env before with
    | some account => row.id = account.id
    | none => before.users.byId row.id = none

/-- An access token that a login has returned, and the JWT it has left in the user's column. -/
inductive Issued (env : Env) : String → String → Prop
  | login {loginModel : LoginModel} {tokens : JWTTokens} {row : UserRow} {J : String} {w w' : World} :
      run (alone env) (AuthService.loginUser loginModel) w = (.ok tokens, w') →
      SignedIn env (.loginUser loginModel) w.db w'.db row → row.accessToken = some J →
      Issued env tokens.accessToken J
  | google {profile : GoogleProfile} {tokens : JWTTokens} {row : UserRow} {J : String} {w w' : World} :
      run (alone env) (AuthService.googleLoginUser env.cases (some profile)) w = (.ok tokens, w') →
      SignedIn env (.googleLoginUser (some profile)) w.db w'.db row → row.accessToken = some J →
      Issued env tokens.accessToken J

/-- The header carries a token that was issued, behind the scheme word in any letter case. -/
def Carries (env : Env) (header : Option String) (T : String) : Prop :=
  ∃ scheme : String, ' ' ∉ scheme.toList ∧ env.cases.toLowerCase scheme = "bearer" ∧
    header = some (scheme ++ " " ++ T)

structure ReadersAgree (env : Env) (decrypt : String → Option String) (header : Option String) :
    Prop where
  issued : ∀ T J, Issued env T J → Carries env header T →
    ofStrategy env decrypt header = some J ∧ ofInterceptor header = some J
  same : ofStrategy env decrypt header = ofInterceptor header

/-- What a token is made of, and what the key undoes. -/
structure Codec (env : Env) (decrypt : String → Option String) : Prop where
  decrypts : ∀ salt s, decrypt (env.encrypt salt s) = some s
  base64 : ∀ salt s, ∀ c ∈ (env.encrypt salt s).toList,
    c.isAlphanum = true ∨ c = '+' ∨ c = '/' ∨ c = '='
  dotted : ∀ p, '.' ∈ (env.sign p).toList
  bearer : env.cases.toLowerCase "bearer" = "bearer"
  capital : env.cases.toLowerCase "Bearer" = "bearer"

/-- The two readings of the parts of a header come out alike. -/
def Alike (env : Env) (decrypt : String → Option String) : List (List Char) → Prop
  | [scheme, token] =>
    if scheme = "Bearer".toList then
      obtained (decrypt (String.ofList token)) = obtained (some (String.ofList token))
    else env.cases.toLowerCase (String.ofList scheme) = "bearer" →
      obtained (decrypt (String.ofList token)) = none
  | scheme :: token :: _ => scheme = "Bearer".toList → token = []
  | _ => True

theorem session_issued {row : UserRow} {tokens : JWTTokens} {s : State}
    (h : Session env row w (.ok tokens) s) (hRow : w.db.users.byId row.id = some row) :
    ∃ salt p row', tokens.accessToken = env.encrypt salt (env.sign p) ∧
      s.db.users.byId row.id = some row' ∧ row'.accessToken = some (env.sign p) ∧
      ∀ id, id ≠ row.id → s.db.users.byId id = w.db.users.byId id := by
  cases h with
  | stored c₁ c₂ access refresh now salt₁ salt₂ users _ _ _ _ _ hUsers =>
    obtain ⟨⟨updatedAt, hStored⟩, hOthers⟩ := hUsers.byId hRow rfl
    exact ⟨salt₁, access, _, rfl, hStored, rfl, hOthers⟩

theorem signedIn_known {q : Request} {before after : Database} {account row : UserRow}
    (h : q.account env before = some account) :
    SignedIn env q before after row ↔ after.users.byId account.id = some row := by
  rw [SignedIn, h]
  constructor
  · rintro ⟨hRow, hId⟩
    rwa [← hId]
  · intro hRow
    have hId := (UserTable.byId_eq_some.mp hRow).2
    exact ⟨by rwa [hId], hId⟩

theorem signedIn_new {q : Request} {before after : Database} {row : UserRow}
    (h : q.account env before = none) : SignedIn env q before after row ↔
      after.users.byId row.id = some row ∧ before.users.byId row.id = none := by
  rw [SignedIn, h]

/-- What a login that returns a token leaves in the column of the account. -/
structure LeavesToken (env : Env) (q : Request) (before after : Database) (token : String) : Prop where
  account : ∃ row, SignedIn env q before after row
  stored : ∃ salt p, token = env.encrypt salt (env.sign p) ∧
    ∀ row, SignedIn env q before after row → row.accessToken = some (env.sign p)

theorem leavesToken_known {q : Request} {tokens : JWTTokens} {account : UserRow} {w₁ : World}
    {s : State} (hAccount : q.account env w.db = some account)
    (hRow : w₁.db.users.byId account.id = some account)
    (hSession : Session env account w₁ (.ok tokens) s) :
    LeavesToken env q w.db s.db tokens.accessToken := by
  obtain ⟨salt, p, row', hToken, hStored, hAccess, _⟩ := session_issued hSession hRow
  refine ⟨⟨row', (signedIn_known hAccount).mpr hStored⟩, salt, p, hToken, fun row hSignedIn => ?_⟩
  cases hStored.symm.trans ((signedIn_known hAccount).mp hSignedIn)
  exact hAccess

theorem leavesToken_new {q : Request} {tokens : JWTTokens} {account : UserRow} {w₁ : World}
    {s : State} (hAccount : q.account env w.db = none)
    (hRows : w₁.db.users.rows = w.db.users.rows ++ [account])
    (hSession : Session env account w₁ (.ok tokens) s) :
    LeavesToken env q w.db s.db tokens.accessToken := by
  obtain ⟨salt, p, row', hToken, hStored, hAccess, hOthers⟩ :=
    session_issued hSession (byId_append hRows)
  have hNew : w.db.users.byId account.id = none := by
    have hNodup := w₁.db.users.nodupId
    rw [hRows, List.map_append, List.nodup_append] at hNodup
    rw [Option.eq_none_iff_forall_ne_some]
    intro row hFound
    obtain ⟨hMem, hSame⟩ := UserTable.byId_eq_some.mp hFound
    exact hNodup.2.2 _ (List.mem_map_of_mem hMem) account.id (by simp) hSame
  have hId := (UserTable.byId_eq_some.mp hStored).2
  refine ⟨⟨row', (signedIn_new hAccount).mpr ⟨by rwa [hId], by rwa [hId]⟩⟩, salt, p, hToken,
    fun row hSignedIn => ?_⟩
  obtain ⟨hFound, hAbsent⟩ := (signedIn_new hAccount).mp hSignedIn
  by_cases hSame : row.id = account.id
  · rw [hSame, hStored] at hFound
    cases hFound
    exact hAccess
  · rw [hOthers _ hSame, byId_append_of_ne hRows hSame, hAbsent] at hFound
    cases hFound

theorem loginUser_leavesToken {loginModel : LoginModel} {tokens : JWTTokens}
    (hRun : run (alone env) (AuthService.loginUser loginModel) w = (.ok tokens, w')) :
    LeavesToken env (.loginUser loginModel) w.db w'.db tokens.accessToken := by
  have hEnds := loginUser_cases hRun
  change LeavesToken env _ w.db w'.state.db _
  generalize w'.state = s at hEnds
  cases hEnds with
  | @session account w₁ _ _ hEmail _ _ hHandled _ hSession =>
    refine leavesToken_known (by exact hEmail) ?_ hSession
    rw [show w₁.db.users = w.db.users from hHandled.keeps.1]
    exact byId_of_byEmail hEmail

theorem googleLoginUser_leavesToken {profile : GoogleProfile} {tokens : JWTTokens}
    (hRun : run (alone env) (AuthService.googleLoginUser env.cases (some profile)) w =
      (.ok tokens, w')) :
    LeavesToken env (.googleLoginUser (some profile)) w.db w'.db tokens.accessToken := by
  have hEnds := googleLoginUser_cases hRun
  change LeavesToken env _ w.db w'.state.db _
  generalize w'.state = s at hEnds
  cases hEnds with
  | known hEmail hState _ hSession =>
    refine leavesToken_known (by exact hEmail) ?_ hSession
    rw [World.state_db hState]
    exact byId_of_byEmail hEmail
  | @created id password now users w₁ _ _ hEmail hRows hState _ hSession =>
    have hUsers : w₁.db.users = users := congrArg (fun s => s.db.users) hState
    refine leavesToken_new (by exact hEmail) ?_ hSession
    rw [hUsers]
    exact hRows

theorem issued_encrypts {T J : String} (h : Issued env T J) :
    ∃ salt p, J = env.sign p ∧ T = env.encrypt salt J := by
  cases h with
  | login hRun hSignedIn hAccess =>
    obtain ⟨salt, p, hToken, hStored⟩ := (loginUser_leavesToken hRun).stored
    cases hAccess.symm.trans (hStored _ hSignedIn)
    exact ⟨salt, p, rfl, hToken⟩
  | google hRun hSignedIn hAccess =>
    obtain ⟨salt, p, hToken, hStored⟩ := (googleLoginUser_leavesToken hRun).stored
    cases hAccess.symm.trans (hStored _ hSignedIn)
    exact ⟨salt, p, rfl, hToken⟩

/-- `authorization.split(' ')`, and nothing where there is no header. -/
def parts (header : Option String) : List (List Char) :=
  (header.map fun authorization => split ' ' authorization.toList).getD []

theorem parts_of_carries {decrypt : String → Option String} (hCodec : Codec env decrypt)
    {header : Option String} {T J : String} (hIssued : Issued env T J) {scheme : String}
    (hScheme : ' ' ∉ scheme.toList) (hHeader : header = some (scheme ++ " " ++ T)) :
    parts header = [scheme.toList, T.toList] := by
  obtain ⟨salt, p, rfl, rfl⟩ := issued_encrypts hIssued
  have hToken : ' ' ∉ (env.encrypt salt (env.sign p)).toList := fun hMem => by
    rcases hCodec.base64 _ _ _ hMem with h | h | h | h <;> revert h <;> decide
  rw [hHeader]
  change split ' ' (scheme ++ " " ++ env.encrypt salt (env.sign p)).toList = _
  rw [toList_append₃]
  exact (split_append hScheme _).trans (congrArg _ (split_of_not_mem hToken))

/-- A ciphertext has no dot in it, and a JWT has. -/
theorem issued_ne {decrypt : String → Option String} (hCodec : Codec env decrypt) {T J : String}
    (hIssued : Issued env T J) : T ≠ J := by
  obtain ⟨salt, p, rfl, rfl⟩ := issued_encrypts hIssued
  intro hSame
  have hDot := hCodec.dotted p
  rw [← hSame] at hDot
  rcases hCodec.base64 _ _ _ hDot with h | h | h | h <;> revert h <;> decide

theorem obtained_eq_some {token : Option String} {t : String} (h : obtained token = some t) :
    token = some t := (Option.filter_eq_some_iff.mp h).1

theorem ofInterceptor_eq (header : Option String) :
    ofInterceptor header = obtained (match parts header with
      | type :: token :: _ => if type = "Bearer".toList then some (String.ofList token) else none
      | _ => none) := rfl

theorem ofInterceptor_parts {header : Option String} {scheme token : List Char}
    {more : List (List Char)} (h : parts header = scheme :: token :: more) :
    ofInterceptor header =
      if scheme = "Bearer".toList then obtained (some (String.ofList token)) else none := by
  rw [ofInterceptor_eq, h]
  exact apply_ite obtained _ _ _

theorem ofInterceptor_none {header : Option String}
    (h : parts header = [] ∨ ∃ scheme, parts header = [scheme]) : ofInterceptor header = none := by
  rw [ofInterceptor_eq]
  obtain h | ⟨scheme, h⟩ := h <;> rw [h] <;> rfl

/-- The interceptor hands on the ciphertext, or nothing. -/
theorem disagree_of_issued {decrypt : String → Option String} (hCodec : Codec env decrypt)
    {header : Option String} {T J : String} (hIssued : Issued env T J)
    (hCarries : Carries env header T) : ¬ ReadersAgree env decrypt header := by
  intro hAgree
  have hObtained := (hAgree.issued T J hIssued hCarries).2
  obtain ⟨scheme, hScheme, _, hHeader⟩ := hCarries
  rw [ofInterceptor_parts (parts_of_carries hCodec hIssued hScheme hHeader)] at hObtained
  split at hObtained
  · have hSame := Option.some.inj (obtained_eq_some hObtained)
    rw [String.ofList_toList] at hSame
    exact issued_ne hCodec hIssued hSame
  · cases hObtained

theorem ofStrategy_parts {decrypt : String → Option String} {header : Option String}
    {scheme token : List Char} (h : parts header = [scheme, token]) :
    ofStrategy env decrypt header =
      if env.cases.toLowerCase "bearer" = env.cases.toLowerCase (String.ofList scheme) then
        obtained (decrypt (String.ofList token))
      else none := by
  cases header with
  | none => cases h
  | some authHeader =>
    have hSplit : split ' ' authHeader.toList = [scheme, token] := h
    have hNonempty : authHeader ≠ "" := by
      rintro rfl
      cases hSplit
    rw [ofStrategy, EXTRACTOR_JWT.fromAuthHeaderAsBearerToken,
      EXTRACTOR_JWT.fromAuthHeaderWithScheme, if_neg hNonempty, hSplit]
    exact apply_ite obtained _ _ _

/-- The strategy wants exactly two parts. -/
theorem ofStrategy_none {decrypt : String → Option String} {header : Option String}
    (h : ∀ scheme token, parts header ≠ [scheme, token]) : ofStrategy env decrypt header = none := by
  cases header with
  | none => rfl
  | some authHeader =>
    have hSplit : ∀ scheme token, split ' ' authHeader.toList ≠ [scheme, token] := h
    rw [ofStrategy, EXTRACTOR_JWT.fromAuthHeaderAsBearerToken,
      EXTRACTOR_JWT.fromAuthHeaderWithScheme]
    split
    · rfl
    · split
      · exact absurd ‹_› (hSplit _ _)
      · rfl

theorem obtained_some_eq_none {token : List Char} :
    obtained (some (String.ofList token)) = none ↔ token = [] := by
  rw [obtained, Option.filter_eq_none_iff]
  constructor
  · intro h
    have hEmpty : String.ofList token = "" := by simpa using h _ rfl
    exact String.ofList_eq_empty_iff.mp hEmpty
  · rintro rfl token hToken
    cases hToken
    decide

theorem same_iff {decrypt : String → Option String} (hCodec : Codec env decrypt)
    {header : Option String} :
    ofStrategy env decrypt header = ofInterceptor header ↔ Alike env decrypt (parts header) := by
  rcases hParts : parts header with _ | ⟨scheme, _ | ⟨token, _ | ⟨more, rest⟩⟩⟩
  · exact iff_of_true (by rw [ofStrategy_none (by simp [hParts]), ofInterceptor_none (.inl hParts)])
      trivial
  · exact iff_of_true
      (by rw [ofStrategy_none (by simp [hParts]), ofInterceptor_none (.inr ⟨_, hParts⟩)]) trivial
  · rw [ofStrategy_parts hParts, ofInterceptor_parts hParts, Alike, hCodec.bearer]
    by_cases hScheme : scheme = "Bearer".toList
    · rw [if_pos hScheme, if_pos hScheme, if_pos]
      rw [hScheme, String.ofList_toList, hCodec.capital]
    · rw [if_neg hScheme, if_neg hScheme]
      split
      · rename_i hBearer
        exact ⟨fun h _ => h, fun h => h hBearer.symm⟩
      · rename_i hBearer
        exact iff_of_true rfl fun h => absurd h.symm hBearer
  · rw [ofStrategy_none (by simp [hParts]), ofInterceptor_parts hParts, Alike]
    split
    · rename_i hScheme
      rw [eq_comm, obtained_some_eq_none]
      exact ⟨fun h _ => h, fun h => h hScheme⟩
    · rename_i hScheme
      exact iff_of_true rfl fun h => absurd h hScheme
    · exact fun h => List.cons_ne_nil _ _ h

end TokenReaders

open TokenReaders

/-- The readers agree on the headers that carry no issued token and whose parts read alike. -/
theorem readers_agree (env : Env) (decrypt : String → Option String) (hCodec : Codec env decrypt)
    (header : Option String) :
    ReadersAgree env decrypt header ↔
      (∀ T J, TokenReaders.Issued env T J → ¬ Carries env header T) ∧
        Alike env decrypt (parts header) := by
  constructor
  · intro hAgree
    exact ⟨fun T J hIssued hCarries => disagree_of_issued hCodec hIssued hCarries hAgree,
      (same_iff hCodec).mp hAgree.same⟩
  · rintro ⟨hNone, hAlike⟩
    exact ⟨fun T J hIssued hCarries => absurd hCarries (hNone T J hIssued),
      (same_iff hCodec).mpr hAlike⟩

namespace Sample

/-- Base 64 text that can be read back: a character is as many `A`s as its number, and a `B`. -/
def encrypt (str : String) : String :=
  String.ofList (str.toList.flatMap fun c => List.replicate c.toNat 'A' ++ ['B'])

def decryptFrom : Nat → List Char → List Char
  | _, [] => []
  | n, c :: cs => if c = 'A' then decryptFrom (n + 1) cs else Char.ofNat n :: decryptFrom 0 cs

def decrypt (str : String) : Option String := some (String.ofList (decryptFrom 0 str.toList))

/-- Only ASCII letters have two cases here. -/
def toLowerCase (str : String) : String := String.ofList (str.toList.map Char.toLower)

def readersEnv : Env :=
  { tokenEnv with
    cases := ⟨id, toLowerCase⟩
    sign := fun p => "e30." ++ sign p ++ ".c2ln"
    encrypt := fun _ str => encrypt str }

theorem decryptFrom_encrypted (c : Char) (n : Nat) (cs : List Char) :
    decryptFrom n (List.replicate c.toNat 'A' ++ 'B' :: cs) =
      Char.ofNat (n + c.toNat) :: decryptFrom 0 cs := by
  generalize c.toNat = k
  induction k generalizing n with
  | zero => rfl
  | succ k ih =>
    rw [List.replicate_succ, List.cons_append, decryptFrom, if_pos rfl, ih, Nat.add_right_comm]
    rfl

theorem decrypt_encrypt (str : String) : decrypt (encrypt str) = some str := by
  have hChars : ∀ cs : List Char, decryptFrom 0
      (cs.flatMap fun c => List.replicate c.toNat 'A' ++ ['B']) = cs := by
    intro cs
    induction cs with
    | nil => rfl
    | cons c cs ih =>
      rw [List.flatMap_cons, List.append_assoc]
      rw [List.singleton_append, decryptFrom_encrypted, ih, Nat.zero_add, Char.ofNat_toNat]
  rw [decrypt, encrypt, String.toList_ofList, hChars, String.ofList_toList]

theorem readersCodec : Codec readersEnv decrypt where
  decrypts _ str := decrypt_encrypt str
  base64 := by
    intro _ str c hMem
    have hMem : c ∈ (encrypt str).toList := hMem
    rw [encrypt, String.toList_ofList] at hMem
    obtain ⟨d, _, hMem⟩ := List.mem_flatMap.mp hMem
    rcases List.mem_append.mp hMem with h | h
    · rw [List.eq_of_mem_replicate h]
      exact .inl rfl
    · rw [List.mem_singleton.mp h]
      exact .inl rfl
  dotted := by
    intro p
    have hSign : (readersEnv.sign p).toList =
        "e30.".toList ++ ((sign p).toList ++ ".c2ln".toList) := toList_append₃ _ _ _
    rw [hSign]
    exact List.mem_append_left _ (by decide)
  bearer := rfl
  capital := rfl

end Sample

/-- A header that carries no token at all. -/
theorem readers_agree_sample :
    ReadersAgree Sample.readersEnv Sample.decrypt (some "Basic YW5hOnB3") := by
  refine (readers_agree _ _ Sample.readersCodec _).mpr ⟨?_, ?_⟩
  · rintro T J hIssued ⟨scheme, hScheme, hBearer, hHeader⟩
    have hParts := parts_of_carries Sample.readersCodec hIssued hScheme hHeader
    have hFirst : "Basic".toList = scheme.toList := by
      have hSplit : parts (some "Basic YW5hOnB3") = ["Basic".toList, "YW5hOnB3".toList] := by decide
      exact (List.cons.inj (hSplit.symm.trans hParts)).1
    rw [← String.toList_inj.mp hFirst] at hBearer
    exact absurd hBearer (by decide)
  · change Alike _ _ ["Basic".toList, "YW5hOnB3".toList]
    rw [Alike, if_neg (by decide)]
    exact fun hBearer => absurd hBearer (by decide)

/-- The strategy reads the JWT of a login in it, the interceptor the ciphertext. -/
theorem readers_disagree :
    ¬ ∀ header, ReadersAgree Sample.readersEnv Sample.decrypt header := by
  intro hAgree
  obtain ⟨tokens, w', hRun⟩ : ∃ tokens w', run (alone Sample.readersEnv)
      (AuthService.loginUser Sample.rightLogin) (Sample.world (Sample.oneUser Sample.row)) =
        (.ok tokens, w') := ⟨_, _, rfl⟩
  obtain ⟨⟨row, hSignedIn⟩, salt, p, _, hStored⟩ := loginUser_leavesToken hRun
  have hIssued := TokenReaders.Issued.login hRun hSignedIn (hStored row hSignedIn)
  refine disagree_of_issued Sample.readersCodec hIssued ⟨"Bearer", ?_, rfl, rfl⟩ (hAgree _)
  decide

end Manejaplus
