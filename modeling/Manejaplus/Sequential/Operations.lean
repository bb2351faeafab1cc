import Manejaplus.Requests

/-! # What each operation does to a world where nobody else runs -/
namespace Manejaplus
open Effect Prog
set_option autoImplicit false

/-- The part of a world that outlives a request. -/
structure State where
  db : Database
  mails : List Mail
  issued : List Issued

namespace World

def state (w : World) : State := ⟨w.db, w.outside.mails, w.outside.issued⟩

/-- The second world reads on where the first one stopped. -/
def Rest (w w' : World) : Prop := ∃ n, ∀ k, w'.outside.tape k = w.outside.tape (n + k)

/-- No statement, signature or mail fails from here on. -/
def Calm (w : World) : Prop := ∀ n, (w.outside.tape n).fault = false

def ClockAt (t : Time) (w : World) : Prop := ∀ n, (w.outside.tape n).now = t

theorem Rest.refl (w : World) : w.Rest w := ⟨0, fun k => by rw [Nat.zero_add]⟩

theorem Rest.trans {u v w : World} (huv : u.Rest v) (hvw : v.Rest w) : u.Rest w := by
  obtain ⟨m, hm⟩ := huv
  obtain ⟨n, hn⟩ := hvw
  exact ⟨m + n, fun k => by rw [hn, hm, Nat.add_assoc]⟩

theorem Rest.tick (w w' : World) (h : w'.outside.tape = w.outside.tick.tape) : w.Rest w' :=
  ⟨1, fun k => by rw [h, Nat.add_comm]; rfl⟩

theorem Calm.rest {w w' : World} (h : w.Calm) (hRest : w.Rest w') : w'.Calm := by
  obtain ⟨n, hn⟩ := hRest
  intro k
  rw [hn]
  exact h _

theorem ClockAt.rest {t : Time} {w w' : World} (h : w.ClockAt t) (hRest : w.Rest w') :
    w'.ClockAt t := by
  obtain ⟨n, hn⟩ := hRest
  intro k
  rw [hn]
  exact h _

theorem exec_tape (env : Env) (c : Choice) (o : OutsideOp) (out : Outside) :
    (out.exec env c o).2.tape = out.tape := by
  unfold Outside.exec
  split <;> first | rfl | (split <;> rfl)

end World

variable {env : Env} {w w' : World}

theorem rest_alone (env : Env) (o : Op) (w : World) : w.Rest (alone env o w).2 := by
  cases o with
  | store o => exact .tick _ _ rfl
  | outside o => exact .tick _ _ (World.exec_tape env _ o _)
  | transaction o =>
    cases o with
    | begin =>
      simp only [alone, World.execTransaction]
      split <;> exact .tick _ _ rfl
    | _ => exact .refl w

theorem uses_any {α : Type} (p : Async α) : p.Uses fun _ => True := by
  induction p with
  | pure a => trivial
  | throw e => trivial
  | op o k ih => exact ⟨trivial, ih⟩

theorem rest_run {α : Type} {p : Async α} {r : Except Exception α}
    (hRun : run (alone env) p w = (r, w')) : w.Rest w' := by
  have h := run_keeps (alone env) World.Rest.refl (fun _ _ _ => World.Rest.trans)
    (fun o _ w => rest_alone env o w) (uses_any p) w
  rwa [hRun] at h

def Fails {α : Type} (w : World) (r : Except Exception α) : Prop :=
  r = .error .external ∧ ¬ w.Calm

theorem not_calm (h : w.choice.fault = true) : ¬ w.Calm := by
  intro hCalm
  rw [World.choice, hCalm 0] at h
  cases h

section Store

/-- Only the saves change the tables. -/
theorem exec_unsaved {c : Choice} {db : Database} {o : StoreOp} (hUser : ∀ e, o ≠ .saveUser e)
    (hOtp : ∀ e, o ≠ .saveOtp e) : (db.exec env c o).2 = db := by
  cases o with
  | saveUser e => exact absurd rfl (hUser e)
  | saveOtp e => exact absurd rfl (hOtp e)
  | findUser q =>
    simp only [Database.exec]
    split
    · rfl
    · cases db.users.findOne env.uuid q <;> rfl
  | findOtp typeOtp userId =>
    simp only [Database.exec]
    split <;> rfl
  | findRoles ids =>
    simp only [Database.exec]
    split
    · rfl
    · cases db.activeRoles env.uuid ids <;> rfl

theorem run_store (o : StoreOp) :
    run (alone env) (perform (S := services) (.store o)) w = w.execStore env o := run_perform _ _ _

/-- An operation on the database is answered by a fault, or by the tables. -/
theorem store_cases {o : StoreOp} {r : Except Exception o.Res}
    (hRun : run (alone env) (perform (S := services) (.store o)) w = (r, w')) :
    (w.choice.fault = true ∧ r = .error .external ∧ w'.state = w.state) ∨
      (w.choice.fault = false ∧ w.execStore env o = (r, w')) := by
  rw [run_store] at hRun
  cases hFault : w.choice.fault with
  | false => exact .inr ⟨rfl, hRun⟩
  | true =>
    refine .inl ⟨rfl, ?_⟩
    cases o <;> rw [World.execStore, Database.exec, if_pos hFault] at hRun <;> cases hRun <;>
      exact ⟨rfl, rfl⟩

theorem findUser_cases {q : UserWhere} {r : Except Exception (Option UserEntity)}
    (hRun : run (alone env) (Async.findUser q) w = (r, w')) :
    w'.state = w.state ∧ (Fails w r ∨
      match w.db.users.findOne env.uuid q with
      | some found => r = .ok (found.map UserRow.entity)
      | none => r = .error .external) := by
  obtain ⟨hFault, hr, hState⟩ | ⟨hFault, hExec⟩ := store_cases hRun
  · exact ⟨hState, .inl ⟨hr, not_calm hFault⟩⟩
  · rw [World.execStore, Database.exec, hFault] at hExec
    cases hFound : w.db.users.findOne env.uuid q <;> rw [hFound] at hExec <;> cases hExec <;>
      exact ⟨rfl, .inr rfl⟩

theorem saveUser_cases {e : UserEntity} {r : Except Exception UserEntity}
    (hRun : run (alone env) (Async.saveUser e) w = (r, w')) :
    (w'.state = w.state ∧ Fails w r) ∨
    match w.db.users.save env.uuid w.choice.uuid w.choice.now e with
    | some (e', users) => r = .ok e' ∧ w'.state = { w.state with db := { w.db with users } }
    | none => r = .error .external ∧ w'.state = w.state := by
  obtain ⟨hFault, hr, hState⟩ | ⟨hFault, hExec⟩ := store_cases hRun
  · exact .inl ⟨hState, hr, not_calm hFault⟩
  · rw [World.execStore, Database.exec, hFault] at hExec
    cases hSave : w.db.users.save env.uuid w.choice.uuid w.choice.now e <;> rw [hSave] at hExec <;>
      cases hExec <;> exact .inr ⟨rfl, rfl⟩

theorem findOtp_cases {typeOtp : TypeOtp} {userId : Js String}
    {r : Except Exception (Option OtpObject)}
    (hRun : run (alone env) (Async.findOtp typeOtp userId) w = (r, w')) :
    w'.state = w.state ∧
      (Fails w r ∨ r = .ok ((w.db.otps.findByType typeOtp userId).map OtpRow.entity)) := by
  obtain ⟨hFault, hr, hState⟩ | ⟨hFault, hExec⟩ := store_cases hRun
  · exact ⟨hState, .inl ⟨hr, not_calm hFault⟩⟩
  · rw [World.execStore, Database.exec, hFault] at hExec
    cases hExec
    exact ⟨rfl, .inr rfl⟩

theorem saveOtp_cases {e : OtpObject} {r : Except Exception OtpObject}
    (hRun : run (alone env) (Async.saveOtp e) w = (r, w')) :
    (w'.state = w.state ∧ Fails w r) ∨
    match w.db.otps.save w.db.users w.choice.now e with
    | some (e', otps) => r = .ok e' ∧ w'.state = { w.state with db := { w.db with otps } }
    | none => r = .error .external ∧ w'.state = w.state := by
  obtain ⟨hFault, hr, hState⟩ | ⟨hFault, hExec⟩ := store_cases hRun
  · exact .inl ⟨hState, hr, not_calm hFault⟩
  · rw [World.execStore, Database.exec, hFault] at hExec
    cases hSave : w.db.otps.save w.db.users w.choice.now e <;> rw [hSave] at hExec <;>
      cases hExec <;> exact .inr ⟨rfl, rfl⟩

theorem findRoles_cases {ids : List String} {r : Except Exception (List RoleRow)}
    (hRun : run (alone env) (Async.findRoles ids) w = (r, w')) :
    w'.state = w.state ∧ (Fails w r ∨
      match w.db.activeRoles env.uuid ids with
      | some roles => r = .ok roles
      | none => r = .error .external) := by
  obtain ⟨hFault, hr, hState⟩ | ⟨hFault, hExec⟩ := store_cases hRun
  · exact ⟨hState, .inl ⟨hr, not_calm hFault⟩⟩
  · rw [World.execStore, Database.exec, hFault] at hExec
    cases hFound : w.db.activeRoles env.uuid ids <;> rw [hFound] at hExec <;> cases hExec <;>
      exact ⟨rfl, .inr rfl⟩

end Store

section Outside

theorem run_outside (o : OutsideOp) :
    run (alone env) (perform (S := services) (.outside o)) w = w.execOutside env o :=
  run_perform _ _ _

theorem hashPassword_cases {password : Js String} {r : Except Exception String}
    (hRun : run (alone env) (EncryptionUtil.hashPassword password) w = (r, w')) :
    w'.state = w.state ∧ (r = .error (.error "Error al encriptar la contraseña") ∨
      ∃ hashed, r = .ok hashed) := by
  have hOp : ∀ r w', run (alone env) (Async.hashPassword password) w = (r, w') →
      w'.state = w.state := by
    intro r w' h
    rw [Async.hashPassword, run_outside, World.execOutside] at h
    cases h
    cases password with
    | val password =>
      simp only [Outside.exec]
      split <;> rfl
    | _ => rfl
  obtain ⟨a, hr, hTry⟩ | ⟨e, w₁, hTry, hCatch⟩ := run_catching_cases _ hRun
  · exact ⟨hOp _ _ hTry, .inr ⟨a, hr⟩⟩
  · cases hCatch
    exact ⟨hOp _ _ hTry, .inl rfl⟩

theorem comparePasswords_cases {passwordTry original : String} {r : Except Exception Bool}
    (hRun : run (alone env) (EncryptionUtil.comparePasswords passwordTry (.val original)) w =
      (r, w')) :
    w'.state = w.state ∧ ∃ same, r = .ok same ∧
      (same = true → env.compare passwordTry original = true) ∧
      (w.Calm → same = env.compare passwordTry original) := by
  obtain ⟨same, hr, hTry⟩ | ⟨e, w₁, hTry, hCatch⟩ := run_catching_cases _ hRun
  · rw [Async.comparePasswords, run_outside, World.execOutside, Outside.exec] at hTry
    split at hTry <;> cases hTry
    exact ⟨rfl, _, hr, id, fun _ => rfl⟩
  · cases hCatch
    rw [Async.comparePasswords, run_outside, World.execOutside, Outside.exec] at hTry
    split at hTry <;> cases hTry
    rename_i hFault
    exact ⟨rfl, false, rfl, nofun, fun hCalm => absurd hCalm (not_calm hFault)⟩

theorem signAsync_cases {sub : UserObject} {expiresIn : Nat} {r : Except Exception String}
    (hRun : run (alone env) (Async.signAsync sub expiresIn) w = (r, w')) :
    (w'.state = w.state ∧ Fails w r) ∨
    ∃ payload, payload = Outside.payload w.choice sub expiresIn ∧ r = .ok (env.sign payload) ∧
      w'.state = { w.state with issued := w.state.issued ++ [⟨env.sign payload, payload⟩] } := by
  rw [Async.signAsync, run_outside, World.execOutside, Outside.exec] at hRun
  split at hRun
  · rename_i hFault
    cases hRun
    exact .inl ⟨rfl, rfl, not_calm hFault⟩
  · cases hRun
    exact .inr ⟨_, rfl, rfl, rfl⟩

theorem decode_run {token : String} {r : Except Exception (Option Payload)}
    (hRun : run (alone env) (Async.decode token) w = (r, w')) :
    w'.state = w.state ∧ r = .ok (env.decode token) := by
  rw [Async.decode, run_outside, World.execOutside, Outside.exec] at hRun
  cases hRun
  exact ⟨rfl, rfl⟩

theorem encryptString_run {str : String} {r : Except Exception String}
    (hRun : run (alone env) (Async.encryptString str) w = (r, w')) :
    w'.state = w.state ∧ r = .ok (env.encrypt w.choice.salt str) := by
  rw [Async.encryptString, run_outside, World.execOutside, Outside.exec] at hRun
  cases hRun
  exact ⟨rfl, rfl⟩

theorem sendEmail_cases {mail : Mail} {r : Except Exception Unit}
    (hRun : run (alone env) (Async.sendEmail mail) w = (r, w')) :
    (w'.state = w.state ∧ Fails w r) ∨
    (r = .ok () ∧ w'.state = { w.state with mails := w.state.mails ++ [mail] }) := by
  rw [Async.sendEmail, run_outside, World.execOutside, Outside.exec] at hRun
  split at hRun
  · rename_i hFault
    cases hRun
    exact .inl ⟨rfl, rfl, not_calm hFault⟩
  · cases hRun
    exact .inr ⟨rfl, rfl⟩

theorem newDate_run {r : Except Exception Time}
    (hRun : run (alone env) Async.newDate w = (r, w')) :
    w'.state = w.state ∧ r = .ok w.choice.now := by
  rw [Async.newDate, run_outside, World.execOutside, Outside.exec] at hRun
  cases hRun
  exact ⟨rfl, rfl⟩

theorem random_run {r : Except Exception Nat} (hRun : run (alone env) Async.random w = (r, w')) :
    w'.state = w.state ∧ r = .ok (w.choice.random % 900000) := by
  rw [Async.random, run_outside, World.execOutside, Outside.exec] at hRun
  cases hRun
  exact ⟨rfl, rfl⟩

end Outside

end Manejaplus
