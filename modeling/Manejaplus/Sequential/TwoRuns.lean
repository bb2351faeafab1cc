import Manejaplus.Effect.Lockstep
import Manejaplus.Persistence.SecretColumns
import Manejaplus.Requests

/-! # Two worlds that differ in stored secrets -/
namespace Manejaplus
open Effect Prog
set_option autoImplicit false

/-- A mail as it is sent: of the locals a template uses one. -/
structure SentMail where
  receiver : Js String
  template : String
  otpCode : Option String
  callbackUrl : Option String
  deriving DecidableEq, Repr

def Mail.render (mail : Mail) : SentMail where
  receiver := mail.receiver
  template := mail.template
  otpCode := if mail.template = "LOGIN_OTP" then mail.locals.otpCode else none
  callbackUrl := if mail.template = "VERIFY_ACCOUNT" then mail.locals.callbackUrl else none

structure OutsidesAlike (out out' : Outside) : Prop where
  tape : out.tape = out'.tape
  mails : out.mails.map Mail.render = out'.mails.map Mail.render

structure WorldsAlike (V : SameHash) (w w' : World) : Prop where
  db : DatabasesAlike V w.db w'.db
  checkpoint : DatabasesAlike V w.checkpoint w'.checkpoint
  outside : OutsidesAlike w.outside w'.outside

/-- Two programs that go on alike in such worlds. -/
abbrev Alongside {α β : Type} (env : Env) (V : SameHash) (A : α → β → Prop) (p : Async α)
    (p' : Async β) : Prop :=
  Lockstep (alone env) (WorldsAlike V) A p p'

variable {env : Env} {V : SameHash}

theorem WorldsAlike.choice {w w' : World} (h : WorldsAlike V w w') : w.choice = w'.choice :=
  congrFun h.outside.tape 0

theorem OutsidesAlike.tick {out out' : Outside} (h : OutsidesAlike out out') :
    OutsidesAlike out.tick out'.tick where
  tape := by rw [Outside.tick, Outside.tick, h.tape]
  mails := h.mails

section Store

theorem alongside_store (o o' : StoreOp) {A : o.Res → o'.Res → Prop}
    (ho : ∀ c db db', DatabasesAlike V db db' → Agree A (db.exec env c o).1 (db'.exec env c o').1 ∧
      DatabasesAlike V (db.exec env c o).2 (db'.exec env c o').2) :
    Alongside env V A (perform (S := services) (.store o)) (perform (S := services) (.store o')) := by
  apply Lockstep.perform (S := services) (.store o) (.store o')
  intro w w' h
  obtain ⟨hAnswer, hDb⟩ := ho w.choice w.db w'.db h.db
  rw [h.choice] at hAnswer hDb
  simp only [alone, World.execStore, h.choice]
  exact ⟨hAnswer, hDb, h.checkpoint, h.outside.tick⟩

theorem orFail_alike {α β : Type} {A : α → β → Prop} {db db' : Database}
    {r : Option (α × Database)} {r' : Option (β × Database)} (hDb : DatabasesAlike V db db')
    (h : Option.Rel (fun a b => A a.1 b.1 ∧ DatabasesAlike V a.2 b.2) r r') :
    Agree A (orFail db r).1 (orFail db' r').1 ∧
      DatabasesAlike V (orFail db r).2 (orFail db' r').2 := by
  cases h with
  | none => exact ⟨.error _, hDb⟩
  | some h => exact ⟨.ok h.1, h.2⟩

theorem map_rel {α β γ δ : Type} {R : α → β → Prop} {P : γ → δ → Prop} {f : α → γ} {f' : β → δ}
    {o : Option α} {o' : Option β} (h : Option.Rel R o o') (hf : ∀ a b, R a b → P (f a) (f' b)) :
    Option.Rel P (o.map f) (o'.map f') := by
  cases h with
  | some hR => exact .some (hf _ _ hR)
  | none => exact .none

theorem alongside_findUser (q : UserWhere) :
    Alongside env V (Option.Rel (ObjectsAlike V)) (Async.findUser q) (Async.findUser q) := by
  apply alongside_store (.findUser q) (.findUser q)
  intro c db db' h
  simp only [Database.exec]
  split
  · exact ⟨.error _, h⟩
  · refine orFail_alike h (map_rel (h.users.findOne env.uuid q) fun row row' hRow => ⟨?_, h⟩)
    exact map_rel hRow fun _ _ => RowsAlike.entity

theorem alongside_saveUser {e e' : UserEntity} (he : ObjectsAlike V e e') :
    Alongside env V (ObjectsAlike V) (Async.saveUser e) (Async.saveUser e') := by
  apply alongside_store (.saveUser e) (.saveUser e')
  intro c db db' h
  simp only [Database.exec]
  split
  · exact ⟨.error _, h⟩
  · refine orFail_alike h (map_rel (save_alike h.users env.uuid c.uuid c.now he) ?_)
    exact fun _ _ hSaved => ⟨hSaved.1, hSaved.2, h.otps, h.roles⟩

theorem alongside_insertUser (hRefl : ∀ hash, V hash hash) {e : UserEntity}
    (hNew : e.id = .undefined) :
    Alongside env V (· = ·) (Async.saveUser e) (Async.saveUser e) := by
  apply alongside_store (.saveUser e) (.saveUser e)
  intro c db db' h
  simp only [Database.exec]
  split
  · exact ⟨.error _, h⟩
  · simp only [UserTable.save, hNew]
    refine orFail_alike h (map_rel (insert_same hRefl h.users c.uuid c.now e) ?_)
    exact fun _ _ hSaved => ⟨hSaved.1, hSaved.2, h.otps, h.roles⟩

theorem alongside_findOtp (typeOtp : TypeOtp) (userId : Js String) :
    Alongside env V (· = ·) (Async.findOtp typeOtp userId) (Async.findOtp typeOtp userId) := by
  apply alongside_store (.findOtp typeOtp userId) (.findOtp typeOtp userId)
  intro c db db' h
  simp only [Database.exec, h.otps]
  split
  · exact ⟨.error _, h⟩
  · exact ⟨.ok rfl, h⟩

theorem alongside_saveOtp {e e' : OtpObject} (he : OtpsAlike V e e') :
    Alongside env V (fun _ _ => True) (Async.saveOtp e) (Async.saveOtp e') := by
  apply alongside_store (.saveOtp e) (.saveOtp e')
  intro c db db' h
  simp only [Database.exec, ← h.otps]
  split
  · exact ⟨.error _, h⟩
  · refine orFail_alike h (map_rel (saveOtp_alike h.users db.otps c.now he) ?_)
    exact fun _ _ hSaved => ⟨trivial, h.users, hSaved, h.roles⟩

theorem alongside_findRoles (ids : List String) :
    Alongside env V (· = ·) (Async.findRoles ids) (Async.findRoles ids) := by
  apply alongside_store (.findRoles ids) (.findRoles ids)
  intro c db db' h
  simp only [Database.exec, Database.activeRoles, h.roles]
  split
  · exact ⟨.error _, h⟩
  · cases ids.mapM env.uuid with
    | none => exact ⟨.error _, h⟩
    | some read => exact ⟨.ok rfl, h⟩

end Store

section Outside

theorem alongside_outside (o o' : OutsideOp) {A : o.Res → o'.Res → Prop}
    (ho : ∀ c out out', OutsidesAlike out out' →
      Agree A (out.exec env c o).1 (out'.exec env c o').1 ∧
        OutsidesAlike (out.exec env c o).2 (out'.exec env c o').2) :
    Alongside env V A (perform (S := services) (.outside o))
      (perform (S := services) (.outside o')) := by
  apply Lockstep.perform (S := services) (.outside o) (.outside o')
  intro w w' h
  obtain ⟨hAnswer, hOutside⟩ := ho w.choice _ _ h.outside.tick
  rw [h.choice] at hAnswer hOutside
  simp only [alone, World.execOutside, h.choice]
  exact ⟨hAnswer, h.db, h.checkpoint, hOutside⟩

theorem alongside_hashPassword (password : Js String) :
    Alongside env V (· = ·) (EncryptionUtil.hashPassword password)
      (EncryptionUtil.hashPassword password) := by
  refine Lockstep.catching (alongside_outside (.hashPassword password)
    (.hashPassword password) fun c out out' h => ?_) fun _ => Lockstep.throw _
  cases password with
  | val password =>
    simp only [Outside.exec]
    split
    · exact ⟨.error _, h⟩
    · exact ⟨.ok rfl, h⟩
  | undefined => exact ⟨.error _, h⟩
  | null => exact ⟨.error _, h⟩

theorem alongside_comparePasswords {passwordTry : String}
    (hVerdict : ∀ a b, V a b → env.compare passwordTry a = env.compare passwordTry b)
    {original original' : Js String} (hOriginal : Js.Rel V original original') :
    Alongside env V (· = ·) (EncryptionUtil.comparePasswords passwordTry original)
      (EncryptionUtil.comparePasswords passwordTry original') := by
  refine Lockstep.catching (alongside_outside (.comparePasswords passwordTry original)
    (.comparePasswords passwordTry original') fun c out out' h => ?_) fun _ => Lockstep.pure rfl
  cases hOriginal with
  | val hV =>
    simp only [Outside.exec]
    split
    · exact ⟨.error _, h⟩
    · exact ⟨.ok (hVerdict _ _ hV), h⟩
  | undefined => exact ⟨.error _, h⟩
  | null => exact ⟨.error _, h⟩

/-- A signature takes its time and leaves no mail, whatever is signed. -/
theorem alongside_signAsync {A : String → String → Prop} {sub sub' : UserObject} {expiresIn : Nat}
    (hA : ∀ c, A (env.sign (Outside.payload c sub expiresIn))
      (env.sign (Outside.payload c sub' expiresIn))) :
    Alongside env V A (Async.signAsync sub expiresIn) (Async.signAsync sub' expiresIn) := by
  apply alongside_outside (.signAsync sub expiresIn) (.signAsync sub' expiresIn)
  intro c out out' h
  simp only [Outside.exec]
  split
  · exact ⟨.error _, h⟩
  · exact ⟨.ok (hA c), h.tape, h.mails⟩

theorem alongside_decode (token : String) :
    Alongside env V (· = ·) (Async.decode token) (Async.decode token) :=
  alongside_outside (.decode token) (.decode token) fun _ _ _ h => ⟨.ok rfl, h⟩

theorem alongside_encryptString (str : String) :
    Alongside env V (· = ·) (Async.encryptString str) (Async.encryptString str) :=
  alongside_outside (.encryptString str) (.encryptString str) fun _ _ _ h => ⟨.ok rfl, h⟩

theorem alongside_sendEmail {mail mail' : Mail} (hMail : mail.render = mail'.render) :
    Alongside env V (· = ·) (Async.sendEmail mail) (Async.sendEmail mail') := by
  apply alongside_outside (.sendEmail mail) (.sendEmail mail')
  intro c out out' h
  simp only [Outside.exec]
  split
  · exact ⟨.error _, h⟩
  · refine ⟨.ok trivial, h.tape, ?_⟩
    rw [List.map_append, List.map_append, h.mails, List.map_singleton, List.map_singleton, hMail]

theorem alongside_newDate : Alongside env V (· = ·) Async.newDate Async.newDate :=
  alongside_outside .newDate .newDate fun _ _ _ h => ⟨.ok rfl, h⟩

theorem alongside_random : Alongside env V (· = ·) Async.random Async.random :=
  alongside_outside .random .random fun _ _ _ h => ⟨.ok rfl, h⟩

end Outside

section Decorator
variable {α β : Type} {A : α → β → Prop}

theorem alongside_transaction (o o' : TransactionOp) {A : o.Res → o'.Res → Prop}
    (ho : ∀ w w', WorldsAlike V w w' → Agree A (w.execTransaction o).1 (w'.execTransaction o').1 ∧
      WorldsAlike V (w.execTransaction o).2 (w'.execTransaction o').2) :
    Alongside env V A (perform (S := services) (.transaction o))
      (perform (S := services) (.transaction o')) :=
  Lockstep.perform (S := services) (.transaction o) (.transaction o') ho

theorem alongside_callback {service : Service} {body : Async α} {body' : Async β} (manager : Tx)
    (hBody : Alongside env V A body body') :
    Alongside env V A (Transactional.callback service body manager)
      (Transactional.callback service body' manager) := by
  have hManager : ∀ manager, Alongside env V (· = ·) (Async.setManager service manager)
      (Async.setManager service manager) :=
    fun manager => alongside_transaction (.setManager service manager)
      (.setManager service manager) fun _ _ h => ⟨.ok rfl, h⟩
  apply Lockstep.bind (hManager _)
  intro _ _ _
  apply Lockstep.bind (Lockstep.attempt hBody)
  intro result result' hResult
  apply Lockstep.bind (hManager _)
  intro _ _ _
  cases hResult with
  | ok hA =>
    refine Lockstep.bind (A := (· = ·)) (alongside_transaction (.commit manager) (.commit manager)
      fun _ _ h => ⟨.ok rfl, h⟩) ?_
    exact fun _ _ _ => Lockstep.pure hA
  | error e =>
    refine Lockstep.bind (A := (· = ·)) (alongside_transaction (.rollback manager)
      (.rollback manager) fun _ _ h => ⟨.ok rfl, h.checkpoint, h.checkpoint, h.outside⟩) ?_
    exact fun _ _ _ => Lockstep.throw e

theorem alongside_transactional {service : Service} {body : Async α} {body' : Async β}
    (hBody : Alongside env V A body body') :
    Alongside env V A (Transactional service body) (Transactional service body') := by
  refine Lockstep.bind (A := (· = ·)) (alongside_transaction .callStarts .callStarts
    fun _ _ h => ⟨.ok rfl, h⟩) fun _ _ _ => ?_
  refine Lockstep.bind (Lockstep.attempt (A := A) ?_) fun result result' hResult => ?_
  · refine Lockstep.bind (A := (· = ·)) (alongside_transaction (.managerOf service)
      (.managerOf service) fun _ _ h => ⟨.ok rfl, h⟩) ?_
    rintro manager _ rfl
    cases manager with
    | some manager => exact hBody
    | none =>
      refine Lockstep.bind (A := (· = ·)) (alongside_transaction .begin .begin
        fun w w' h => ?_) ?_
      · simp only [World.execTransaction, h.choice]
        split
        · exact ⟨.error _, h.db, h.checkpoint, h.outside.tick⟩
        · exact ⟨.ok rfl, h.db, h.db, h.outside.tick⟩
      · rintro manager _ rfl
        exact alongside_callback manager hBody
  · refine Lockstep.bind (A := (· = ·)) (alongside_transaction (.callSettles result.isOk)
      (.callSettles result'.isOk) fun _ _ h => ⟨.ok rfl, h⟩) ?_
    exact fun _ _ _ => Lockstep.ofExcept hResult

end Decorator

end Manejaplus
