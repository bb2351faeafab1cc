import Manejaplus.Sequential.TokenReaders
import Manejaplus.Transactions.OwnSessions

/-! # Whom the guard lets in

The strategy decrypts the token in the header, verifies it and names its user.
A token that a login has been answered opens the guard for the account that has
logged in, until it expires; the refresh token does so as well.
-/
namespace Manejaplus
open Effect Prog Conduct
set_option autoImplicit false

namespace JwtStrategy

/-- `{ userId: payload.sub }` -/
def validate (payload : Payload) : Js UserObject := payload.sub

/-- The strategy behind `@Authenticated()`: a token that is missing, empty or not verified is
refused. -/
def authenticate (cases : CaseMapping) (decryptString : String → Option String)
    (verify : String → Time → Option Payload) (authorization : Option String) (now : Time) :
    Option (Js UserObject) :=
  ((EXTRACTOR_JWT.fromAuthHeaderAsBearerToken cases decryptString authorization).filter
    (· != "")).bind fun token => (verify token now).map validate

end JwtStrategy

/-- The token verifies until it expires. -/
def Issued.Verifies (verify : String → Time → Option Payload) (t : Issued) : Prop :=
  ∀ now, verify t.token now = if t.payload.exp.all (now / 1000 < ·) then some t.payload else none

namespace Admission
open TokenReaders

/-- Until it expires, and no longer, the token behind the scheme word lets this user in. -/
def Opens (env : Env) (decrypt : String → Option String) (verify : String → Time → Option Payload)
    (token : String) (user : UserObject) (expires : Nat) : Prop :=
  ∀ scheme : String, ' ' ∉ scheme.toList → env.cases.toLowerCase scheme = "bearer" → ∀ now,
    JwtStrategy.authenticate env.cases decrypt verify (some (scheme ++ " " ++ token)) now =
      if now / 1000 < expires then some (.val user) else none

/-- The operations to come read the clock on, where those before have left it. -/
def OnTape (start w : TxWorld) : Prop := ∃ k, ∀ n, w.outside.tape n = start.outside.tape (k + n)

/-- The token has been signed at a reading of this clock. -/
def Minted (env : Env) (start : TxWorld) (t : Issued) : Prop :=
  ∃ n sub expiresIn, t.payload = Outside.payload (start.outside.tape n) sub expiresIn ∧
    t.token = env.sign t.payload

section Tokens
variable {env : Env} {decrypt : String → Option String} {verify : String → Time → Option Payload}
  {start w : TxWorld} {γ : Conduct} {t : Issued}

theorem parts_encrypted (hCodec : Codec env decrypt) {scheme : String} (hScheme : ' ' ∉ scheme.toList)
    (salt str : String) : parts (some (scheme ++ " " ++ env.encrypt salt str)) =
      [scheme.toList, (env.encrypt salt str).toList] := by
  have hToken : ' ' ∉ (env.encrypt salt str).toList := fun hMem => by
    rcases hCodec.base64 _ _ _ hMem with h | h | h | h <;> revert h <;> decide
  change split ' ' (scheme ++ " " ++ env.encrypt salt str).toList = _
  rw [toList_append₃]
  exact (split_append hScheme _).trans (congrArg _ (split_of_not_mem hToken))

theorem ofStrategy_encrypted (hCodec : Codec env decrypt) {scheme : String}
    (hScheme : ' ' ∉ scheme.toList) (hBearer : env.cases.toLowerCase scheme = "bearer")
    (salt : String) (p : Payload) :
    ofStrategy env decrypt (some (scheme ++ " " ++ env.encrypt salt (env.sign p))) =
      some (env.sign p) := by
  rw [ofStrategy_parts (parts_encrypted hCodec hScheme salt _), String.ofList_toList,
    String.ofList_toList, hCodec.bearer, hBearer, if_pos rfl, hCodec.decrypts, obtained,
    Option.filter_some, if_pos]
  have hDot := hCodec.dotted p
  simp only [bne_iff_ne]
  intro hEmpty
  rw [hEmpty] at hDot
  cases hDot

theorem opens_of (hCodec : Codec env decrypt) (hVerifies : t.Verifies verify)
    (hMinted : Minted env start t) {account : UserObject} {expiresIn : Nat}
    (hSession : t.Session account expiresIn) : ∃ n, ∀ salt,
      Opens env decrypt verify (env.encrypt salt t.token) { email := account.email, id := account.id }
        ((start.outside.tape n).now / 1000 + expiresIn) := by
  obtain ⟨n, sub, life, hPayload, hToken⟩ := hMinted
  obtain ⟨c, hOwn⟩ := hSession
  have hNow : c.now / 1000 = (start.outside.tape n).now / 1000 := by
    have hIat := congrArg Payload.iat (hOwn.symm.trans hPayload)
    exact Option.some.inj hIat
  refine ⟨n, fun salt scheme hScheme hBearer now => ?_⟩
  change ((ofStrategy env decrypt _).bind _) = _
  rw [hToken, ofStrategy_encrypted hCodec hScheme hBearer, Option.bind_some, ← hToken,
    hVerifies, hOwn, ← hNow]
  simp only [Outside.payload, Option.all_some, decide_eq_true_eq]
  split <;> rfl

theorem minted_learns {w' : TxWorld} {γ' : Conduct} (hTape : OnTape start w)
    (h : ∀ t ∈ γ.signed, Minted env start t) (hLearns : Learns env γ w w' γ') :
    ∀ t ∈ γ'.signed, Minted env start t := by
  cases hLearns with
  | signed sub expiresIn _ hPayload hToken =>
    obtain ⟨k, hk⟩ := hTape
    refine List.forall_mem_cons.mpr ⟨⟨k + 0, sub, expiresIn, ?_, hToken⟩, h⟩
    rw [hPayload, ← hk]
    rfl
  | _ => exact h

theorem maintains (env : Env) (start : TxWorld) :
    Maintains (transactional env) (protocol env) (OnTape start) (fun _ γ => ∀ t ∈ γ.signed, Minted env start t) where
  world w γ o hTape _ _ := by
    obtain ⟨k, hk⟩ := hTape
    obtain ⟨k', hk'⟩ := TxWorld.tape_after env w o
    exact ⟨k + k', fun n => by rw [hk', hk, Nat.add_assoc]⟩
  own _ _ _ hTape h hAllows := minted_learns hTape h (learns hAllows)
  others _ _ _ _ _ _ _ h := h

end Tokens

end Admission

open Admission TokenReaders in
/-- However requests interleave, the access token that a login is answered lets its bearer in as the
row that the login has found or opened, for as long as an access token lives, counted from a reading
of the clock during the run; and so does the refresh token for as long as a refresh token lives. -/
theorem session_admitted {ι : Type} [DecidableEq ι] (env : Env) (decrypt : String → Option String)
    (verify : String → Time → Option Payload) (w : TxWorld) (requests : ι → Request)
    (schedule : List ι) (hCodec : Codec env decrypt) (hIdle : w.journal.entries = [])
    (hUuids : CanonicalUuids env w)
    (hOwn : ∀ row ∈ w.base.users.rows, row.OwnSession w.outside.issued)
    (hVerifies : ∀ t ∈ ((Requests.started env w requests).run (transactional env) (protocol env)
      schedule).world.outside.issued, t.Verifies verify) {i : ι} {tokens : JWTTokens}
    (hDone : (((Requests.started env w requests).run (transactional env) (protocol env)
      schedule).threads i).prog.result = some (.ok (.tokens tokens))) :
    ∃ row n m, (Requests.started env w requests).HasMet env schedule i row ∧
      (requests i).SignsIn env.cases row.email ∧
      Opens env decrypt verify tokens.accessToken { email := .val row.email, id := .val row.id }
        ((w.outside.tape n).now / 1000 + AUTH.TIME_ACCESS_TOKEN) ∧
      Opens env decrypt verify tokens.refreshToken { email := .val row.email, id := .val row.id }
        ((w.outside.tape m).now / 1000 + AUTH.TIME_REFRESH_TOKEN) := by
  have hSigned : Requests.Holds env requests (OnTape w) (fun _ γ => ∀ t ∈ γ.signed, Minted env w t)
      (Requests.started env w requests) :=
    Requests.holds_started ⟨0, fun n => by rw [Nat.zero_add]⟩ fun i t ht => by cases ht
  have hMinted := (hSigned.run (maintains env w) schedule).ghost i
  have hIssued := ((OwnSession.holds_run requests schedule hIdle hUuids hOwn).ghost i).signed
  obtain ⟨row, hMet, hSignsIn, a, ha, b, hb, hAccess, hRefresh, salt, salt', rfl⟩ :=
    OwnSession.granted_run hIdle hUuids hOwn hDone
  obtain ⟨n, hOpens⟩ := opens_of hCodec (hVerifies a (hIssued a ha)) (hMinted a ha) hAccess
  obtain ⟨m, hOpens'⟩ := opens_of hCodec (hVerifies b (hIssued b hb)) (hMinted b hb) hRefresh
  exact ⟨row, n, m, hMet, hSignsIn, hOpens salt, hOpens' salt'⟩

namespace Sample

def sessionToken (now expiresIn : Nat) : Issued :=
  let payload : Payload := {
    sub := .val { email := .val "ana@x.io", id := .val "u" }
    iat := some now
    exp := some (now + expiresIn) }
  ⟨readersEnv.sign payload, payload⟩

/-- The tokens that Ana's login signs. -/
def anasTokens : List Issued :=
  [sessionToken 4 AUTH.TIME_ACCESS_TOKEN, sessionToken 5 AUTH.TIME_REFRESH_TOKEN]

def verify (token : String) (now : Time) : Option Payload :=
  (anasTokens.find? (·.token == token)).bind fun t =>
    if t.payload.exp.all (now / 1000 < ·) then some t.payload else none

def anasLogin : Requests (Fin 1) :=
  (Requests.started readersEnv (txWorld (oneUser row) 30) fun _ => .loginUser rightLogin).run
    (transactional readersEnv) (protocol readersEnv) [0, 0, 0, 0, 0, 0, 0, 0, 0, 0]

theorem anasTokens_verify : ∀ t ∈ anasLogin.world.outside.issued, t.Verifies verify := by
  have hIssued : anasLogin.world.outside.issued = anasTokens := by decide
  simp only [hIssued, anasTokens, List.mem_cons, List.not_mem_nil, or_false]
  rintro t (rfl | rfl) now
  · rfl
  · rfl

end Sample

theorem session_admitted_sample : ∃ tokens : JWTTokens, ∃ user n m,
    Admission.Opens Sample.readersEnv Sample.decrypt Sample.verify tokens.accessToken user
      (n + AUTH.TIME_ACCESS_TOKEN) ∧
    Admission.Opens Sample.readersEnv Sample.decrypt Sample.verify tokens.refreshToken user
      (m + AUTH.TIME_REFRESH_TOKEN) := by
  obtain ⟨tokens, hDone⟩ : ∃ tokens, (Sample.anasLogin.threads 0).prog.result =
    some (.ok (.tokens tokens)) := ⟨_, rfl⟩
  obtain ⟨row, n, m, _, _, hAccess, hRefresh⟩ := session_admitted Sample.readersEnv Sample.decrypt
    Sample.verify (Sample.txWorld (Sample.oneUser Sample.row) 30)
    (fun _ : Fin 1 => .loginUser Sample.rightLogin) [0, 0, 0, 0, 0, 0, 0, 0, 0, 0]
    Sample.readersCodec rfl ⟨fun _ _ => rfl, fun _ => rfl⟩ (fun row hRow => by
      rw [List.mem_singleton.mp hRow]
      exact OwnSession.ownSession_none rfl rfl) Sample.anasTokens_verify hDone
  exact ⟨tokens, _, _, _, hAccess, hRefresh⟩

end Manejaplus
