import Manejaplus.Persistence.Tables

/-! # One-time passwords, and the database as a whole -/
namespace Manejaplus
set_option autoImplicit false

inductive TypeOtp where
  | LOGIN_OTP
  | PURCHASE_OTP
  deriving DecidableEq, Repr

def TypeOtp.text : TypeOtp → String
  | .LOGIN_OTP => "LOGIN_OTP"
  | .PURCHASE_OTP => "PURCHASE_OTP"

structure OtpRow where
  id : Nat
  otp : String
  typeOtp : TypeOtp
  user : Option String
  wasUsed : Bool
  createdAt : Time
  updatedAt : Time
  deriving DecidableEq, Repr

/-- `OtpEntity` and `OtpModel` objects. -/
structure OtpObject where
  id : Js Nat := .undefined
  otp : Js String := .undefined
  typeOtp : Js TypeOtp := .undefined
  user : Js UserEntity := .undefined
  wasUsed : Js Bool := .undefined
  createdAt : Js Time := .undefined
  updatedAt : Js Time := .undefined
  deriving DecidableEq, Repr

def OtpRow.entity (row : OtpRow) : OtpObject where
  id := .val row.id
  otp := .val row.otp
  typeOtp := .val row.typeOtp
  wasUsed := .val row.wasUsed
  createdAt := .val row.createdAt
  updatedAt := .val row.updatedAt

structure OtpTable where
  rows : List OtpRow
  nodupId : (rows.map (·.id)).Nodup
  deriving DecidableEq

structure Database where
  users : UserTable
  otps : OtpTable
  roles : List RoleRow
  deriving DecidableEq

namespace OtpTable

def ofRows? (rows : List OtpRow) : Option OtpTable :=
  if h : (rows.map (·.id)).Nodup then some ⟨rows, h⟩ else none

def byId (t : OtpTable) (id : Nat) : Option OtpRow := t.rows.find? (·.id == id)

/-- The identity column counts on past every number it has given out. -/
def nextId (t : OtpTable) : Nat := (t.rows.map (·.id)).foldr max 0 + 1

def ofType (typeOtp : TypeOtp) (userId : Js String) (row : OtpRow) : Bool :=
  row.typeOtp == typeOtp && match userId with
    | .val id => row.user == some id
    | _ => true

/-- `order: { createdAt: 'DESC' }`, of which `findOne` takes the first. -/
def newest (rows : List OtpRow) : Option OtpRow :=
  rows.foldl (fun best row => match best with
    | none => some row
    | some b => if b.createdAt < row.createdAt then some row else some b) none

def findByType (t : OtpTable) (typeOtp : TypeOtp) (userId : Js String) : Option OtpRow :=
  newest (t.rows.filter (ofType typeOtp userId))

def replace (row : OtpRow) (rows : List OtpRow) : List OtpRow :=
  rows.map fun r => if r.id = row.id then row else r

/-- The foreign key: `none` for a user object that names no stored row. -/
def userKey (users : UserTable) (current : Option String) : Js UserEntity → Option (Option String)
  | .undefined => some current
  | .null => some none
  | .val user => match user.id with
    | .val id => (users.byId id).map fun row => some row.id
    | _ => none

def write (users : UserTable) (now : Time) (e : OtpObject) (row : OtpRow) : Option OtpRow := do
  let otp ← e.otp.writeNotNull row.otp
  let typeOtp ← e.typeOtp.writeNotNull row.typeOtp
  let wasUsed ← e.wasUsed.writeNotNull row.wasUsed
  let createdAt ← e.createdAt.writeNotNull row.createdAt
  let user ← userKey users row.user e.user
  let row' := { row with otp, typeOtp, wasUsed, createdAt, user }
  some (if row' = row then row else { row' with updatedAt := now })

def ofEntity (users : UserTable) (id : Nat) (now : Time) (e : OtpObject) : Option OtpRow := do
  let otp ← e.otp.required
  let typeOtp ← e.typeOtp.required
  let wasUsed ← e.wasUsed.writeNotNull false
  let user ← userKey users none e.user
  some { id, otp, typeOtp, user, wasUsed, createdAt := now, updatedAt := now }

/-- `save(OtpEntity, e)`. -/
def save (t : OtpTable) (users : UserTable) (now : Time) (e : OtpObject) :
    Option (OtpObject × OtpTable) :=
  match e.id with
  | .val id =>
    match t.byId id with
    | some row => do
      let row' ← write users now e row
      let t' ← ofRows? (replace row' t.rows)
      some ({ e with updatedAt := .val row'.updatedAt }, t')
    | none => do
      let row ← ofEntity users id now e
      let t' ← ofRows? (t.rows ++ [row])
      some ({ row.entity with user := e.user }, t')
  | _ => do
    let row ← ofEntity users t.nextId now e
    let t' ← ofRows? (t.rows ++ [row])
    some ({ row.entity with user := e.user }, t')

theorem ofRows?_rows {rows : List OtpRow} {t : OtpTable} (h : ofRows? rows = some t) :
    t.rows = rows := by
  unfold ofRows? at h
  split at h <;> cases h
  rfl

theorem id_lt_nextId {t : OtpTable} {row : OtpRow} (h : row ∈ t.rows) : row.id < t.nextId := by
  have hMax : ∀ (ids : List Nat) (n : Nat), n ∈ ids → n ≤ ids.foldr max 0 := by
    intro ids
    induction ids with
    | nil => simp
    | cons m ids ih =>
      intro n hn
      obtain rfl | hn := List.mem_cons.mp hn
      · exact Nat.le_max_left _ _
      · exact Nat.le_trans (ih n hn) (Nat.le_max_right _ _)
  exact Nat.lt_succ_of_le (hMax _ _ (List.mem_map_of_mem h))

theorem ofRows?_append {t : OtpTable} {row : OtpRow} (hId : row.id = t.nextId) :
    ∃ t', ofRows? (t.rows ++ [row]) = some t' ∧ t'.rows = t.rows ++ [row] := by
  have hFresh : ∀ r ∈ t.rows, r.id ≠ row.id := by
    intro r hr
    have := id_lt_nextId hr
    omega
  have hNodup : ((t.rows ++ [row]).map (·.id)).Nodup := by
    rw [List.map_append, List.nodup_append]
    refine ⟨t.nodupId, by simp, ?_⟩
    intro i hi j hj
    obtain ⟨r, hr, rfl⟩ := List.mem_map.mp hi
    simp only [List.map_cons, List.map_nil, List.mem_singleton] at hj
    rw [hj]
    exact hFresh r hr
  unfold ofRows?
  rw [dif_pos hNodup]
  exact ⟨_, rfl, rfl⟩

theorem newest_mem {rows : List OtpRow} {row : OtpRow} (h : newest rows = some row) :
    row ∈ rows := by
  have hFold : ∀ (rows : List OtpRow) (best : Option OtpRow), rows.foldl (fun best row =>
      match best with
      | none => some row
      | some b => if b.createdAt < row.createdAt then some row else some b) best = some row →
      row ∈ rows ∨ best = some row := by
    intro rows
    induction rows with
    | nil => exact fun best h => .inr h
    | cons r rows ih =>
      intro best h
      rw [List.foldl_cons] at h
      obtain hMem | hBest := ih _ h
      · exact .inl (List.mem_cons_of_mem _ hMem)
      · cases best with
        | none => cases hBest; exact .inl List.mem_cons_self
        | some b =>
          simp only at hBest
          split at hBest
          · cases hBest; exact .inl List.mem_cons_self
          · exact .inr hBest
  obtain hMem | hNone := hFold rows none h
  · exact hMem
  · cases hNone

theorem findByType_mem {t : OtpTable} {typeOtp : TypeOtp} {userId : Js String} {row : OtpRow}
    (h : t.findByType typeOtp userId = some row) :
    row ∈ t.rows ∧ ofType typeOtp userId row = true :=
  List.mem_filter.mp (newest_mem h)

theorem byId_of_mem {t : OtpTable} {row : OtpRow} (h : row ∈ t.rows) : t.byId row.id = some row := by
  unfold byId
  cases hFind : t.rows.find? (·.id == row.id) with
  | none => simpa using List.find?_eq_none.mp hFind row h
  | some found =>
    have hKey : found.id = row.id := by simpa using List.find?_some hFind
    rw [List.inj_on_of_nodup_map t.nodupId (List.mem_of_find?_eq_some hFind) h hKey]

theorem ofRows?_replace {t : OtpTable} {row' : OtpRow} :
    ∃ t', ofRows? (replace row' t.rows) = some t' ∧ t'.rows = replace row' t.rows := by
  have hIds : (replace row' t.rows).map (·.id) = t.rows.map (·.id) := by
    rw [replace, List.map_map]
    apply List.map_congr_left
    intro r _
    simp only [Function.comp]
    split
    · rename_i h
      exact h.symm
    · rfl
  unfold ofRows?
  rw [dif_pos (hIds ▸ t.nodupId)]
  exact ⟨_, rfl, rfl⟩

end OtpTable

end Manejaplus
