import Mathlib.Data.List.Nodup
import Manejaplus.Users.UserEntity

/-! # The tables, with the constraints the database enforces

A table carries its unique constraints, so a state that breaks them cannot be
built; a statement that would break one is refused.
-/
namespace Manejaplus
set_option autoImplicit false

structure UserTable where
  rows : List UserRow
  nodupId : (rows.map (·.id)).Nodup
  nodupEmail : (rows.map (·.email)).Nodup
  deriving DecidableEq

/-- The keys of a `where` clause on `mps_user`; `none` is a key that was not given. -/
structure UserWhere where
  email : Option (Js String) := none
  id : Option (Js String) := none
  deriving DecidableEq, Repr

namespace UserTable

/-- The rows as a table, unless a unique constraint refuses them. -/
def ofRows? (rows : List UserRow) : Option UserTable :=
  if h : (rows.map (·.id)).Nodup ∧ (rows.map (·.email)).Nodup then some ⟨rows, h.1, h.2⟩ else none

def byId (t : UserTable) (id : String) : Option UserRow := t.rows.find? (·.id == id)

def byEmail (t : UserTable) (email : String) : Option UserRow := t.rows.find? (·.email == email)

/-- `id = $1`: PostgreSQL reads the parameter as a uuid, or fails. A `null` condition is dropped. -/
def idCondition (uuid : String → Option String) : Option (Js String) → Option (UserRow → Bool)
  | some (.val s) => (uuid s).map fun id row => row.id == id
  | _ => some fun _ => true

def emailCondition : Option (Js String) → UserRow → Bool
  | some (.val s) => fun row => row.email == s
  | _ => fun _ => true

/-- `findOne(UserEntity, { where })`; the outer `none` is a failed query. -/
def findOne (t : UserTable) (uuid : String → Option String) (q : UserWhere) :
    Option (Option UserRow) := do
  let sameId ← idCondition uuid q.id
  some (t.rows.find? fun row => emailCondition q.email row && sameId row)

def replace (row : UserRow) (rows : List UserRow) : List UserRow :=
  rows.map fun r => if r.id = row.id then row else r

def insert (t : UserTable) (id : String) (now : Time) (e : UserEntity) :
    Option (UserEntity × UserTable) := do
  let row ← UserRow.ofEntity id now e
  let t' ← ofRows? (t.rows ++ [row])
  some (row.returning e, t')

/-- The columns that differ are updated, and with them `updatedAt`; the roles are rows of a table of
their own. -/
def touch (now : Time) (row row' : UserRow) : UserRow :=
  if { row' with roles := row.roles } = row then row' else { row' with updatedAt := now }

/-- The object that comes back, with a new `updatedAt` if the row has got one. -/
def answer (now : Time) (row row' : UserRow) (e : UserEntity) : UserEntity := { e.filled with
  updatedAt := if { row' with roles := row.roles } = row then e.updatedAt else .val now }

/-- `save(UserEntity, e)`: an update of the row with this id, or an insert. -/
def save (t : UserTable) (uuid : String → Option String) (fresh : String) (now : Time)
    (e : UserEntity) : Option (UserEntity × UserTable) :=
  match e.id with
  | .val id =>
    match t.byId id with
    | some row => do
      let row' ← row.write e
      let t' ← ofRows? (replace (touch now row row') t.rows)
      some (answer now row row' e, t')
    | none => do t.insert (← uuid id) now e
  | _ => t.insert fresh now e

theorem ofRows?_rows {rows : List UserRow} {t : UserTable} (h : ofRows? rows = some t) :
    t.rows = rows := by
  unfold ofRows? at h
  split at h <;> cases h
  rfl

theorem eq_of_nodup {β : Type} {rows : List UserRow} {key : UserRow → β}
    (h : (rows.map key).Nodup) {a b : UserRow} (ha : a ∈ rows) (hb : b ∈ rows)
    (hKey : key a = key b) : a = b := List.inj_on_of_nodup_map h ha hb hKey

theorem find?_key {key : UserRow → String} {rows : List UserRow} (hNodup : (rows.map key).Nodup)
    {k : String} {row : UserRow} :
    rows.find? (fun r => key r == k) = some row ↔ row ∈ rows ∧ key row = k := by
  constructor
  · intro h
    exact ⟨List.mem_of_find?_eq_some h, by simpa using List.find?_some h⟩
  · rintro ⟨hRow, rfl⟩
    cases hFind : rows.find? (fun r => key r == key row) with
    | none =>
      have hNot := List.find?_eq_none.mp hFind row hRow
      simp at hNot
    | some found =>
      have hKey : key found = key row := by simpa using List.find?_some hFind
      rw [eq_of_nodup hNodup (List.mem_of_find?_eq_some hFind) hRow hKey]

theorem byId_eq_some {t : UserTable} {id : String} {row : UserRow} :
    t.byId id = some row ↔ row ∈ t.rows ∧ row.id = id := find?_key t.nodupId

theorem byEmail_eq_some {t : UserTable} {email : String} {row : UserRow} :
    t.byEmail email = some row ↔ row ∈ t.rows ∧ row.email = email := find?_key t.nodupEmail

theorem findOne_email (t : UserTable) (uuid : String → Option String) (email : String) :
    t.findOne uuid { email := some (.val email) } = some (t.byEmail email) := by
  simp [findOne, idCondition, emailCondition, byEmail]

@[simp] theorem touch_id (now : Time) (row row' : UserRow) (hId : row'.id = row.id) :
    (touch now row row').id = row.id := by
  unfold touch
  split <;> exact hId

@[simp] theorem touch_email (now : Time) (row row' : UserRow) (hEmail : row'.email = row.email) :
    (touch now row row').email = row.email := by
  unfold touch
  split <;> exact hEmail

theorem map_replace {β : Type} {key : UserRow → β} {rows : List UserRow} {row row' : UserRow}
    (hNodup : (rows.map (·.id)).Nodup) (hRow : row ∈ rows) (hId : row'.id = row.id)
    (hKey : key row' = key row) : (replace row' rows).map key = rows.map key := by
  rw [replace, List.map_map]
  apply List.map_congr_left
  intro r hr
  simp only [Function.comp]
  split
  · rename_i h
    rw [hKey, eq_of_nodup hNodup hr hRow (h.trans hId)]
  · rfl

theorem ofRows?_replace {t : UserTable} {row row' : UserRow} (hRow : t.byId row.id = some row)
    (hId : row'.id = row.id) (hEmail : row'.email = row.email) :
    ∃ t', ofRows? (replace row' t.rows) = some t' ∧ t'.rows = replace row' t.rows := by
  have hMem := (byId_eq_some.mp hRow).1
  have hIds := map_replace t.nodupId hMem hId hId
  have hEmails := map_replace t.nodupId hMem hId hEmail
  unfold ofRows?
  rw [dif_pos ⟨hIds ▸ t.nodupId, hEmails ▸ t.nodupEmail⟩]
  exact ⟨_, rfl, rfl⟩

/-- What a save can do: write over the row with the object's id, or append a row. -/
theorem save_eq_some {t t' : UserTable} {uuid : String → Option String} {fresh : String}
    {now : Time} {e e' : UserEntity} (h : t.save uuid fresh now e = some (e', t')) :
    (∃ row row', row ∈ t.rows ∧ e.id = .val row.id ∧ row.write e = some row' ∧
      t'.rows = replace (touch now row row') t.rows) ∨
    (∃ row, (∀ r ∈ t.rows, e.id ≠ .val r.id) ∧ t'.rows = t.rows ++ [row]) := by
  have hInsert : ∀ {id : String}, t.insert id now e = some (e', t') →
      ∃ row, t'.rows = t.rows ++ [row] := by
    intro id h
    simp only [insert, Option.bind_eq_bind, Option.bind_eq_some_iff] at h
    obtain ⟨row, _, t'', hRows, hPair⟩ := h
    cases hPair
    exact ⟨row, ofRows?_rows hRows⟩
  unfold save at h
  split at h
  · rename_i id hId
    split at h
    · rename_i row hRow
      simp only [Option.bind_eq_bind, Option.bind_eq_some_iff] at h
      obtain ⟨row', hWrite, t'', hRows, hPair⟩ := h
      cases hPair
      obtain ⟨hMem, rfl⟩ := byId_eq_some.mp hRow
      exact .inl ⟨row, row', hMem, hId, hWrite, ofRows?_rows hRows⟩
    · rename_i hNone
      simp only [Option.bind_eq_bind, Option.bind_eq_some_iff] at h
      obtain ⟨id', _, h⟩ := h
      obtain ⟨row, hRows⟩ := hInsert h
      refine .inr ⟨row, fun r hr hSame => ?_, hRows⟩
      rw [hId] at hSame
      cases hSame
      rw [byId_eq_some.mpr ⟨hr, rfl⟩] at hNone
      cases hNone
  · rename_i hId
    obtain ⟨row, hRows⟩ := hInsert h
    exact .inr ⟨row, fun r _ hSame => hId r.id hSame, hRows⟩

theorem touch_eq (now : Time) (row row' : UserRow) :
    ∃ updatedAt, touch now row row' = { row' with updatedAt } := by
  unfold touch
  split
  · exact ⟨row'.updatedAt, rfl⟩
  · exact ⟨now, rfl⟩

theorem replace_append {rows : List UserRow} {row row' : UserRow}
    (hNodup : ((rows ++ [row]).map (·.id)).Nodup) (hId : row'.id = row.id) :
    replace row' (rows ++ [row]) = rows ++ [row'] := by
  rw [List.map_append, List.nodup_append] at hNodup
  have hRows : replace row' rows = rows := by
    unfold replace
    nth_rewrite 2 [← List.map_id rows]
    apply List.map_congr_left
    intro r hr
    exact if_neg fun h => hNodup.2.2 _ (List.mem_map_of_mem hr) row.id (by simp) (h.trans hId)
  rw [replace, List.map_append, ← replace, hRows]
  simp [hId]

end UserTable

end Manejaplus
