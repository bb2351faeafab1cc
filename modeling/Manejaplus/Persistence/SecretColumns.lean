import Mathlib.Data.List.Forall2
import Manejaplus.Persistence.Database

/-! # The secret columns of a user

Two tables that differ in these columns only answer a statement alike. When a
row was updated last may differ as well: a save over a secret that is already
there does not count as an update.
-/
namespace Manejaplus
set_option autoImplicit false

section Relations
variable {α β γ δ : Type} {R : α → β → Prop} {P : γ → δ → Prop}

theorem rel_refl {o : Option α} : Option.Rel (· = ·) o o := by
  cases o with
  | none => exact .none
  | some a => exact .some rfl

theorem rel_bind {o : Option α} {o' : Option β} {f : α → Option γ} {f' : β → Option δ}
    (h : Option.Rel R o o') (hf : ∀ a b, R a b → Option.Rel P (f a) (f' b)) :
    Option.Rel P (o.bind f) (o'.bind f') := by
  cases h with
  | some hR => exact hf _ _ hR
  | none => exact .none

theorem rel_find? {p : α → Bool} {p' : β → Bool} (hp : ∀ a b, R a b → p a = p' b) {as : List α}
    {bs : List β} (h : List.Forall₂ R as bs) : Option.Rel R (as.find? p) (bs.find? p') := by
  induction h with
  | nil => exact .none
  | cons hR _ ih =>
    rw [List.find?_cons, List.find?_cons, ← hp _ _ hR]
    split
    · exact .some hR
    · exact ih

theorem map_eq_of_forall₂ (key : α → γ) (key' : β → γ) (hKey : ∀ a b, R a b → key a = key' b)
    {as : List α} {bs : List β} (h : List.Forall₂ R as bs) : as.map key = bs.map key' := by
  induction h with
  | nil => rfl
  | cons hR _ ih => rw [List.map_cons, List.map_cons, hKey _ _ hR, ih]

theorem forall₂_map {f : α → γ} {f' : β → δ} (hf : ∀ a b, R a b → P (f a) (f' b)) {as : List α}
    {bs : List β} (h : List.Forall₂ R as bs) : List.Forall₂ P (as.map f) (bs.map f') := by
  induction h with
  | nil => exact .nil
  | cons hR _ ih => exact .cons (hf _ _ hR) ih

end Relations

inductive Js.Rel {α β : Type} (R : α → β → Prop) : Js α → Js β → Prop
  | undefined : Js.Rel R .undefined .undefined
  | null : Js.Rel R .null .null
  | val {a : α} {b : β} : R a b → Js.Rel R (.val a) (.val b)

def UserRow.blank (row : UserRow) : UserRow :=
  { row with password := "", otp := none, accessToken := none, refreshToken := none }

def UserRow.bare (row : UserRow) : UserRow := { row.blank with updatedAt := 0 }

def UserObject.bare (user : UserObject) : UserObject := { user with
  password := .undefined
  otp := .undefined
  accessToken := .undefined
  refreshToken := .undefined
  updatedAt := .undefined }

/-- How two stored hashes have to be related to be taken for each other. -/
abbrev SameHash := String → String → Prop

structure RowsAlike (V : SameHash) (row row' : UserRow) : Prop where
  password : V row.password row'.password
  rest : row.bare = row'.bare

structure ObjectsAlike (V : SameHash) (user user' : UserObject) : Prop where
  password : Js.Rel V user.password user'.password
  rest : user.bare = user'.bare

def TablesAlike (V : SameHash) (t t' : UserTable) : Prop :=
  List.Forall₂ (RowsAlike V) t.rows t'.rows

variable {V : SameHash}

section Rows
variable {row row' : UserRow} {e e' : UserEntity}

theorem RowsAlike.id (h : RowsAlike V row row') : row.id = row'.id :=
  (congrArg UserRow.id h.rest :)

theorem RowsAlike.email (h : RowsAlike V row row') : row.email = row'.email :=
  (congrArg UserRow.email h.rest :)

theorem ObjectsAlike.id (h : ObjectsAlike V e e') : e.id = e'.id :=
  (congrArg UserObject.id h.rest :)

theorem RowsAlike.exists_eq (h : RowsAlike V row row') :
    ∃ password otp accessToken refreshToken updatedAt, V row.password password ∧
      row' = { row with password, otp, accessToken, refreshToken, updatedAt } :=
  ⟨row'.password, row'.otp, row'.accessToken, row'.refreshToken, row'.updatedAt, h.password,
    (congrArg (fun row : UserRow => { row with
      password := row'.password
      otp := row'.otp
      accessToken := row'.accessToken
      refreshToken := row'.refreshToken
      updatedAt := row'.updatedAt }) h.rest.symm :)⟩

theorem ObjectsAlike.exists_eq (h : ObjectsAlike V e e') :
    ∃ password otp accessToken refreshToken updatedAt, Js.Rel V e.password password ∧
      e' = { e with password, otp, accessToken, refreshToken, updatedAt } :=
  ⟨e'.password, e'.otp, e'.accessToken, e'.refreshToken, e'.updatedAt, h.password,
    (congrArg (fun user : UserObject => { user with
      password := e'.password
      otp := e'.otp
      accessToken := e'.accessToken
      refreshToken := e'.refreshToken
      updatedAt := e'.updatedAt }) h.rest.symm :)⟩

theorem RowsAlike.entity (h : RowsAlike V row row') : ObjectsAlike V row.entity row'.entity where
  password := .val h.password
  rest := congrArg (fun row => row.entity.bare) h.rest

theorem writeNotNull_rel {a b : String} {property property' : Js String}
    (h : Js.Rel V property property') (hV : V a b) :
    Option.Rel V (property.writeNotNull a) (property'.writeNotNull b) := by
  cases h with
  | undefined => exact .some hV
  | null => exact .none
  | val hV' => exact .some hV'

theorem required_rel {property property' : Js String} (h : Js.Rel V property property') :
    Option.Rel V property.required property'.required := by
  cases h with
  | undefined => exact .none
  | null => exact .none
  | val hV => exact .some hV

theorem write_alike (hRow : RowsAlike V row row') (he : ObjectsAlike V e e') :
    Option.Rel (RowsAlike V) (row.write e) (row'.write e') := by
  obtain ⟨_, _, _, _, _, hPassword, rfl⟩ := hRow.exists_eq
  obtain ⟨_, _, _, _, _, hProperty, rfl⟩ := he.exists_eq
  apply rel_bind rel_refl
  intro name _ hName
  apply rel_bind rel_refl
  intro email _ hEmail
  apply rel_bind (writeNotNull_rel hProperty hPassword)
  intro password password' hPassword
  apply rel_bind rel_refl
  intro status _ hStatus
  apply rel_bind rel_refl
  intro maintainSession _ hMaintain
  apply rel_bind rel_refl
  intro createdAt _ hCreated
  subst hName hEmail hStatus hMaintain hCreated
  exact .some ⟨hPassword, rfl⟩

theorem ofEntity_alike (id : String) (now : Time) (he : ObjectsAlike V e e') :
    Option.Rel (RowsAlike V) (UserRow.ofEntity id now e) (UserRow.ofEntity id now e') := by
  obtain ⟨_, _, _, _, _, hProperty, rfl⟩ := he.exists_eq
  apply rel_bind rel_refl
  intro name _ hName
  apply rel_bind rel_refl
  intro email _ hEmail
  apply rel_bind (required_rel hProperty)
  intro password password' hPassword
  apply rel_bind rel_refl
  intro status _ hStatus
  apply rel_bind rel_refl
  intro maintainSession _ hMaintain
  subst hName hEmail hStatus hMaintain
  exact .some ⟨hPassword, rfl⟩

theorem returning_alike (hRow : RowsAlike V row row') (he : ObjectsAlike V e e') :
    ObjectsAlike V (row.returning e) (row'.returning e') := by
  obtain ⟨_, _, _, _, _, hPassword, rfl⟩ := hRow.exists_eq
  obtain ⟨_, _, _, _, _, hProperty, rfl⟩ := he.exists_eq
  exact ⟨hProperty, rfl⟩

theorem touch_alike (now : Time) (before before' : UserRow) (h : RowsAlike V row row') :
    RowsAlike V (UserTable.touch now before row) (UserTable.touch now before' row') := by
  obtain ⟨updatedAt, hTouch⟩ := UserTable.touch_eq now before row
  obtain ⟨updatedAt', hTouch'⟩ := UserTable.touch_eq now before' row'
  rw [hTouch, hTouch']
  exact ⟨h.password, congrArg (fun row => row.bare) h.rest⟩

theorem answer_alike (now : Time) (before before' : UserRow) (row row' : UserRow)
    (he : ObjectsAlike V e e') : ObjectsAlike V (UserTable.answer now before row e)
      (UserTable.answer now before' row' e') := by
  obtain ⟨_, _, _, _, _, hProperty, rfl⟩ := he.exists_eq
  exact ⟨hProperty, rfl⟩

end Rows

section Statements
variable {t t' : UserTable} {e e' : UserEntity}

theorem TablesAlike.byId (h : TablesAlike V t t') (id : String) :
    Option.Rel (RowsAlike V) (t.byId id) (t'.byId id) :=
  rel_find? (fun _ _ hRow => by rw [hRow.id]) h

theorem TablesAlike.findOne (h : TablesAlike V t t') (uuid : String → Option String)
    (q : UserWhere) :
    Option.Rel (Option.Rel (RowsAlike V)) (t.findOne uuid q) (t'.findOne uuid q) := by
  have hEmail : ∀ row row', RowsAlike V row row' →
      UserTable.emailCondition q.email row = UserTable.emailCondition q.email row' := by
    intro row row' hRow
    obtain _ | _ | _ | email := q.email <;> simp only [UserTable.emailCondition, hRow.email]
  have hId : ∀ sameId, UserTable.idCondition uuid q.id = some sameId → ∀ row row',
      RowsAlike V row row' → sameId row = sameId row' := by
    intro sameId hSome row row' hRow
    unfold UserTable.idCondition at hSome
    split at hSome
    · obtain ⟨id, _, rfl⟩ := Option.map_eq_some_iff.mp hSome
      simp only [hRow.id]
    · cases hSome
      rfl
  unfold UserTable.findOne
  cases hSome : UserTable.idCondition uuid q.id with
  | none => exact .none
  | some sameId =>
    refine .some (rel_find? (fun row row' hRow => ?_) h)
    rw [hEmail _ _ hRow, hId _ hSome _ _ hRow]

theorem ofRows?_alike {rows rows' : List UserRow} (h : List.Forall₂ (RowsAlike V) rows rows') :
    Option.Rel (TablesAlike V) (UserTable.ofRows? rows) (UserTable.ofRows? rows') := by
  have hIds := map_eq_of_forall₂ UserRow.id UserRow.id (fun _ _ hRow => hRow.id) h
  have hEmails := map_eq_of_forall₂ UserRow.email UserRow.email (fun _ _ hRow => hRow.email) h
  unfold UserTable.ofRows?
  by_cases hNodup : (rows.map (·.id)).Nodup ∧ (rows.map (·.email)).Nodup
  · rw [dif_pos hNodup, dif_pos (by rwa [← hIds, ← hEmails])]
    exact .some h
  · rw [dif_neg hNodup, dif_neg (by rwa [← hIds, ← hEmails])]
    exact .none

theorem insert_alike (h : TablesAlike V t t') (id : String) (now : Time)
    (he : ObjectsAlike V e e') : Option.Rel
      (fun saved saved' => ObjectsAlike V saved.1 saved'.1 ∧ TablesAlike V saved.2 saved'.2)
      (t.insert id now e) (t'.insert id now e') := by
  apply rel_bind (ofEntity_alike id now he)
  intro row row' hRow
  refine rel_bind (ofRows?_alike (List.rel_append h (.cons hRow .nil))) fun rows rows' hRows => ?_
  exact .some ⟨returning_alike hRow he, hRows⟩

/-- What an insert returns is made of what was inserted. -/
theorem insert_same (hRefl : ∀ hash, V hash hash) (h : TablesAlike V t t') (id : String) (now : Time)
    (e : UserEntity) : Option.Rel
      (fun saved saved' => saved.1 = saved'.1 ∧ TablesAlike V saved.2 saved'.2)
      (t.insert id now e) (t'.insert id now e) := by
  apply rel_bind rel_refl
  intro row row' hRow
  cases hRow
  refine rel_bind (ofRows?_alike (List.rel_append h (.cons ⟨hRefl _, rfl⟩ .nil)))
    fun rows rows' hRows => ?_
  exact .some ⟨rfl, hRows⟩

theorem save_alike (h : TablesAlike V t t') (uuid : String → Option String) (fresh : String)
    (now : Time) (he : ObjectsAlike V e e') : Option.Rel
      (fun saved saved' => ObjectsAlike V saved.1 saved'.1 ∧ TablesAlike V saved.2 saved'.2)
      (t.save uuid fresh now e) (t'.save uuid fresh now e') := by
  unfold UserTable.save
  rw [← he.id]
  cases e.id with
  | val id =>
    have hById := h.byId id
    simp only
    generalize t.byId id = found at hById
    generalize t'.byId id = found' at hById
    cases hById with
    | none => exact rel_bind rel_refl fun id' _ hId => hId ▸ insert_alike h id' now he
    | @some row row' hRow =>
      apply rel_bind (write_alike hRow he)
      intro new new' hNew
      have hTouched := touch_alike now row row' hNew
      have hReplaced : List.Forall₂ (RowsAlike V)
          (UserTable.replace (UserTable.touch now row new) t.rows)
          (UserTable.replace (UserTable.touch now row' new') t'.rows) := by
        refine forall₂_map (fun r r' hr => ?_) h
        rw [← hr.id, ← hTouched.id]
        split
        · exact hTouched
        · exact hr
      refine rel_bind (ofRows?_alike hReplaced) fun rows rows' hRows => ?_
      exact .some ⟨answer_alike now row row' new new' he, hRows⟩
  | undefined => exact insert_alike h fresh now he
  | null => exact insert_alike h fresh now he

end Statements

structure OtpsAlike (V : SameHash) (e e' : OtpObject) : Prop where
  user : Js.Rel (ObjectsAlike V) e.user e'.user
  rest : { e with user := .undefined } = { e' with user := .undefined }

structure DatabasesAlike (V : SameHash) (db db' : Database) : Prop where
  users : TablesAlike V db.users db'.users
  otps : db.otps = db'.otps
  roles : db.roles = db'.roles

theorem databasesAlike_refl (hRefl : ∀ hash, V hash hash) (db : Database) :
    DatabasesAlike V db db where
  users := List.forall₂_same.mpr fun _ _ => ⟨hRefl _, rfl⟩
  otps := rfl
  roles := rfl

section Otps
variable {users users' : UserTable} {e e' : OtpObject}

theorem userKey_alike (h : TablesAlike V users users') (current : Option String)
    {user user' : Js UserEntity} (hUser : Js.Rel (ObjectsAlike V) user user') :
    OtpTable.userKey users current user = OtpTable.userKey users' current user' := by
  cases hUser with
  | undefined => rfl
  | null => rfl
  | @val user user' hAlike =>
    simp only [OtpTable.userKey, ← hAlike.id]
    cases user.id with
    | val id =>
      have hById := h.byId id
      simp only
      generalize users.byId id = found at hById
      generalize users'.byId id = found' at hById
      cases hById with
      | none => rfl
      | some hRow => exact congrArg (fun id => some (some id)) hRow.id
    | undefined => rfl
    | null => rfl

/-- A code is stored with the id of its user, and with nothing else of him. -/
theorem saveOtp_alike (h : TablesAlike V users users') (t : OtpTable) (now : Time)
    (he : OtpsAlike V e e') : Option.Rel (fun saved saved' => saved.2 = saved'.2)
      (t.save users now e) (t.save users' now e') := by
  obtain ⟨user, rfl⟩ : ∃ user, e' = { e with user } :=
    ⟨e'.user, (congrArg (fun otp : OtpObject => { otp with user := e'.user }) he.rest.symm :)⟩
  have hKey := fun current => userKey_alike h current he.user
  have hEntity : ∀ id, OtpTable.ofEntity users id now e =
      OtpTable.ofEntity users' id now { e with user } := fun id => by
    simp only [OtpTable.ofEntity, hKey]
  have hWrite : ∀ row, OtpTable.write users now e row =
      OtpTable.write users' now { e with user } row := fun row => by
    simp only [OtpTable.write, hKey]
  have hInsert : ∀ id, Option.Rel (fun saved saved' : OtpObject × OtpTable => saved.2 = saved'.2)
      (do
        let row ← OtpTable.ofEntity users id now e
        let t' ← OtpTable.ofRows? (t.rows ++ [row])
        some ({ row.entity with user := e.user }, t'))
      (do
        let row ← OtpTable.ofEntity users' id now { e with user }
        let t' ← OtpTable.ofRows? (t.rows ++ [row])
        some ({ row.entity with user }, t')) := by
    intro id
    rw [hEntity]
    apply rel_bind rel_refl
    intro row _ hRow
    cases hRow
    exact rel_bind rel_refl fun rows _ hRows => .some hRows
  unfold OtpTable.save
  simp only
  cases e.id with
  | val id =>
    simp only
    cases t.byId id with
    | none => exact hInsert id
    | some row =>
      simp only [hWrite]
      apply rel_bind rel_refl
      intro row' _ hRow
      cases hRow
      exact rel_bind rel_refl fun rows _ hRows => .some hRows
  | undefined => exact hInsert t.nextId
  | null => exact hInsert t.nextId

end Otps

end Manejaplus
