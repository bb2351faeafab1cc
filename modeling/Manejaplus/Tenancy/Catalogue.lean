import Mathlib.Data.List.Nodup
import Manejaplus.Effect.History
import Manejaplus.Tenancy.SqlTexts

/-! # Tenants, organizations and schemas as the database keeps them

Both tables carry their constraints. A query is read by its text: what is one
statement about one schema does what it says, and any other text is left to the
server.
-/
namespace Manejaplus
open Effect Prog Sql
set_option autoImplicit false

structure TenantRow where
  id : String
  name : String
  owner : String
  deriving DecidableEq, Repr

structure OrganizationRow where
  id : String
  name : String
  owner : String
  image_url : Option String
  tenant : String
  deriving DecidableEq, Repr

/-- `users` are the ids that an `owner` may refer to. -/
structure Catalogue where
  users : List String
  tenants : List TenantRow
  organizations : List OrganizationRow
  schemas : List Text
  searchPath : List Text
  nodupTenant : (tenants.map (·.id)).Nodup
  nodupTenantName : (tenants.map (·.name)).Nodup
  nodupOrganization : (organizations.map (·.id)).Nodup
  nodupOrganizationName : (organizations.map (·.name)).Nodup
  nodupImage : (organizations.filterMap (·.image_url)).Nodup
  tenantOf : ∀ o ∈ organizations, o.tenant ∈ tenants.map (·.id)

/-- PostgreSQL: the texts it takes for a uuid, with their canonical form, and what it makes of any
other statement. -/
structure Server where
  uuid : String → Option String
  other : String → Catalogue → Option Catalogue

inductive SchemaStatement where
  | create (n : Text)
  | select (path : List Text)
  | dropTables (n : Text)
  | drop (n : Text)
  deriving DecidableEq, Repr

/-- The statement a text consists of, if it is one about a schema. -/
def SchemaStatement.read? (sql : String) : Option SchemaStatement :=
  ((createdSchema sql).map .create).or (((selectedPath sql).map .select).or
    (((SqlTexts.droppedTables sql).map .dropTables).or ((droppedSchema sql).map .drop)))

/-- A name, cut to the length of an identifier. -/
def ident (n : String) : Text := clip nameLimit n.toList

theorem ident_eq {n : String} (h : bytes n.toList ≤ nameLimit) : ident n = n.toList :=
  clip_eq_self.mpr h

/-- Put between double quotes, the name is all of a statement's identifier. -/
def Identifies (n : String) (x : Text) : Prop := createdSchema (TenantService.createSchema n) = some x

namespace SchemaStatement
open SqlTexts
variable {n : String}

theorem identifies_enclosed (h : Enclosable n.toList) : Identifies n (ident n) := by
  rw [Identifies, createdSchema_eq]
  exact takes_enclosed (takes_named []) h List.not_mem_nil rfl rfl

theorem identifies_tenantName {name UUID : String}
    (h : '"' ∉ (TenantService.tenantName name UUID).toList) :
    Identifies (TenantService.tenantName name UUID) (ident (TenantService.tenantName name UUID)) := by
  refine identifies_enclosed ⟨?_, h⟩
  simp [SqlTexts.toList_tenantName]

theorem read_createSchema {x : Text} (h : Identifies n x) :
    read? (TenantService.createSchema n) = some (.create x) := by
  rw [read?, show createdSchema _ = some x from h]
  rfl

theorem read_setSearchPath {x : Text} (h : Identifies n x) :
    read? (TenantService.setSearchPath n) = some (.select [x]) := by
  rw [Identifies, createdSchema_eq] at h
  obtain ⟨ts, hRead, hEnd⟩ := takes_token (takes_named []) h
  have hPath : path true (.identifier x :: ts) = some [x] := by
    obtain rfl | rfl := ended_iff.mp hEnd <;> rfl
  rw [read?, createdSchema_setSearchPath, selectedPath_eq, hRead, Option.bind_some, hPath]
  rfl

theorem read_dropTables (h : Quotable n.toList) (hLiteral : '\'' ∉ n.toList)
    (hDollars : ¬ dollars <:+: n.toList) :
    read? (TenantService.dropTables n) = some (.dropTables n.toList) := by
  rw [read?, createdSchema_dropTables, selectedPath_dropTables,
    (droppedTables_iff h).mpr ⟨hLiteral, hDollars⟩]
  rfl

theorem read_dropSchema (h : Quotable n.toList) :
    read? (TenantService.dropSchema n) = some (.drop n.toList) := by
  rw [read?, createdSchema_dropSchema, selectedPath_dropSchema, droppedTables_dropSchema,
    droppedSchema_iff.mpr h]
  rfl

end SchemaStatement

namespace Catalogue

/-- The constraints of `mps_tenant`, for one more row. -/
structure AdmitsTenant (db : Catalogue) (row : TenantRow) : Prop where
  owner : row.owner ∈ db.users
  fresh : row.id ∉ db.tenants.map (·.id)
  name : row.name ∉ db.tenants.map (·.name)

instance (db : Catalogue) (row : TenantRow) : Decidable (db.AdmitsTenant row) :=
  decidable_of_iff (row.owner ∈ db.users ∧ row.id ∉ db.tenants.map (·.id) ∧
      row.name ∉ db.tenants.map (·.name))
    ⟨fun h => ⟨h.1, h.2.1, h.2.2⟩, fun h => ⟨h.owner, h.fresh, h.name⟩⟩

/-- The constraints of `mps_organization`, for one more row. -/
structure AdmitsOrganization (db : Catalogue) (row : OrganizationRow) : Prop where
  owner : row.owner ∈ db.users
  fresh : row.id ∉ db.organizations.map (·.id)
  name : row.name ∉ db.organizations.map (·.name)
  image : ∀ url ∈ row.image_url, url ∉ db.organizations.filterMap (·.image_url)
  tenant : row.tenant ∈ db.tenants.map (·.id)

instance (db : Catalogue) (row : OrganizationRow) : Decidable (db.AdmitsOrganization row) :=
  decidable_of_iff (row.owner ∈ db.users ∧ row.id ∉ db.organizations.map (·.id) ∧
      row.name ∉ db.organizations.map (·.name) ∧
      (∀ url ∈ row.image_url, url ∉ db.organizations.filterMap (·.image_url)) ∧
      row.tenant ∈ db.tenants.map (·.id))
    ⟨fun h => ⟨h.1, h.2.1, h.2.2.1, h.2.2.2.1, h.2.2.2.2⟩,
      fun h => ⟨h.owner, h.fresh, h.name, h.image, h.tenant⟩⟩

theorem nodup_snoc {α β : Type} {key : α → β} {rows : List α} {row : α}
    (h : (rows.map key).Nodup) (hNew : key row ∉ rows.map key) :
    ((rows ++ [row]).map key).Nodup := by
  rw [List.map_append, List.map_singleton]
  exact List.nodup_append.mpr ⟨h, List.nodup_singleton _, fun a ha b hb hEq => by
    rw [List.mem_singleton.mp hb] at hEq
    exact hNew (hEq ▸ ha)⟩

def addTenant (db : Catalogue) (row : TenantRow) (h : db.AdmitsTenant row) : Catalogue :=
  { db with
    tenants := db.tenants ++ [row]
    nodupTenant := nodup_snoc db.nodupTenant h.fresh
    nodupTenantName := nodup_snoc db.nodupTenantName h.name
    tenantOf := fun o ho => by
      rw [List.map_append]
      exact List.mem_append_left _ (db.tenantOf o ho) }

theorem nodup_images {rows : List OrganizationRow} {row : OrganizationRow}
    (h : (rows.filterMap (·.image_url)).Nodup)
    (hNew : ∀ url ∈ row.image_url, url ∉ rows.filterMap (·.image_url)) :
    ((rows ++ [row]).filterMap (·.image_url)).Nodup := by
  rw [List.filterMap_append]
  refine List.nodup_append.mpr ⟨h, ?_, fun a ha b hb hEq => ?_⟩
  · cases hImage : row.image_url <;> simp [hImage]
  · have hb' : row.image_url = some b := by simpa using hb
    exact hNew b hb' (hEq ▸ ha)

def addOrganization (db : Catalogue) (row : OrganizationRow) (h : db.AdmitsOrganization row) :
    Catalogue :=
  { db with
    organizations := db.organizations ++ [row]
    nodupOrganization := nodup_snoc db.nodupOrganization h.fresh
    nodupOrganizationName := nodup_snoc db.nodupOrganizationName h.name
    nodupImage := nodup_images db.nodupImage h.image
    tenantOf := fun o ho => by
      obtain ho | ho := List.mem_append.mp ho
      · exact db.tenantOf o ho
      · rw [List.mem_singleton.mp ho]
        exact h.tenant }

/-- The row of an entity with a fresh id, where no `NOT NULL` column is missing. -/
def tenantRow (server : Server) (id : String) (e : OrganizationObject) : Option TenantRow := do
  let name ← e.name.required
  let owner ← server.uuid (← e.owner.required)
  some { id, name, owner }

def insertTenant (server : Server) (id : String) (e : OrganizationObject) (db : Catalogue) :
    Option (OrganizationObject × Catalogue) :=
  (tenantRow server id e).bind fun row =>
    if h : db.AdmitsTenant row then some ({ e with id := .val id }, db.addTenant row h) else none

def organizationRow (server : Server) (id : String) (e : OrganizationObject) :
    Option OrganizationRow := do
  let name ← e.name.required
  let owner ← server.uuid (← e.owner.required)
  let tenant ← e.tenant.required
  some { id, name, owner, image_url := e.image_url.write none, tenant }

def insertOrganization (server : Server) (id : String) (e : OrganizationObject) (db : Catalogue) :
    Option (OrganizationObject × Catalogue) :=
  (organizationRow server id e).bind fun row =>
    if h : db.AdmitsOrganization row then some ({ e with id := .val id }, db.addOrganization row h)
    else none

/-- A schema's name must not begin like those of the system. -/
def reserved (n : Text) : Prop := "pg_".toList <+: n

instance (n : Text) : Decidable (reserved n) := inferInstanceAs (Decidable (_ <+: _))

def createSchema (n : Text) (db : Catalogue) : Option Catalogue :=
  if reserved n then none
  else if n ∈ db.schemas then some db
  else some { db with schemas := db.schemas ++ [n] }

/-- The schemas once there is one of that name. -/
def schemasWith (db : Catalogue) (n : Text) : List Text :=
  if n ∈ db.schemas then db.schemas else db.schemas ++ [n]

def dropSchema (n : Text) (db : Catalogue) : Option Catalogue :=
  if reserved n then none else some { db with schemas := db.schemas.filter (· ≠ n) }

/-- With the schema `public` the tables of the service would go too. -/
def query (server : Server) (sql : String) (db : Catalogue) : Option Catalogue :=
  match SchemaStatement.read? sql with
  | some (.create n) => db.createSchema n
  | some (.select path) => some { db with searchPath := path }
  | some (.dropTables n) => if n = "public".toList then server.other sql db else some db
  | some (.drop n) => if n = "public".toList then server.other sql db else db.dropSchema n
  | none => server.other sql db

section Queries
variable {server : Server} {db db' : Catalogue} {n : String}

theorem query_createSchema {x : Text} (h : Identifies n x) :
    db.query server (TenantService.createSchema n) = db.createSchema x := by
  rw [query, SchemaStatement.read_createSchema h]

theorem query_setSearchPath {x : Text} (h : Identifies n x) :
    db.query server (TenantService.setSearchPath n) = some { db with searchPath := [x] } := by
  rw [query, SchemaStatement.read_setSearchPath h]

theorem query_dropTables (h : Quotable n.toList) (hLiteral : '\'' ∉ n.toList)
    (hDollars : ¬ dollars <:+: n.toList) (hPublic : n.toList ≠ "public".toList) :
    db.query server (TenantService.dropTables n) = some db := by
  rw [query, SchemaStatement.read_dropTables h hLiteral hDollars]
  exact if_neg hPublic

theorem query_dropSchema (h : Quotable n.toList) (hPublic : n.toList ≠ "public".toList) :
    db.query server (TenantService.dropSchema n) = db.dropSchema n.toList := by
  rw [query, SchemaStatement.read_dropSchema h]
  exact if_neg hPublic

theorem createSchema_eq_some {s : Text} : db.createSchema s = some db' ↔
    ¬ reserved s ∧ db' = { db with schemas := db.schemasWith s } := by
  unfold createSchema schemasWith
  split
  · rename_i hReserved
    simp [hReserved]
  · rename_i hAllowed
    split <;> rw [Option.some.injEq, and_iff_right hAllowed, eq_comm]

theorem mem_schemasWith {s : Text} : s ∈ db.schemasWith s := by
  unfold schemasWith
  split
  · assumption
  · exact List.mem_append_right _ (List.mem_singleton_self s)

theorem subset_schemasWith {s : Text} : db.schemas ⊆ db.schemasWith s := by
  unfold schemasWith
  split
  · exact List.Subset.refl _
  · exact List.subset_append_left _ _

theorem count_pos :
    0 < (db.schemas.filter (· = ident n)).length ↔ ident n ∈ db.schemas := by
  rw [List.length_pos_iff_exists_mem]
  simp

end Queries

end Catalogue

/-- What one operation takes from outside: a failure, and fresh values. -/
structure Draw where
  fault : Bool := false
  uuid : String := ""
  id : String := ""
  deriving DecidableEq, Repr

structure TenancyWorld where
  catalogue : Catalogue
  tape : Nat → Draw

namespace TenancyWorld

def rest (w : TenancyWorld) : TenancyWorld := { w with tape := fun n => w.tape (n + 1) }

/-- What an operation does to the database. The parameter that `schema_name` is compared with is a
name, and cut off like one; the connections of the client data source touch only the tables in its
schema. -/
def effect (server : Server) (draw : Draw) :
    (o : TenancyOp) → Catalogue → Option (o.Res × Catalogue)
  | .randomUuid, db => some (draw.uuid, db)
  | .saveTenant e, db => db.insertTenant server draw.id e
  | .countSchemata schemaName, db =>
    some ((db.schemas.filter (· = ident schemaName)).length, db)
  | .query sql, db => (db.query server sql).map fun db => ((), db)
  | .initializeClient _, db => some ((), db)
  | .synchronize _, db => some ((), db)
  | .destroy _, db => some ((), db)
  | .saveOrganization e, db => db.insertOrganization server draw.id e

/-- A statement that fails has no effect of its own. -/
def exec (server : Server) (o : TenancyOp) (w : TenancyWorld) :
    Except Exception o.Res × TenancyWorld :=
  match if (w.tape 0).fault then none else effect server (w.tape 0) o w.catalogue with
  | some (answer, db) => (.ok answer, { w.rest with catalogue := db })
  | none => (.error .external, w.rest)

variable {server : Server} {db : Catalogue} {tape : Nat → Draw} {o : TenancyOp} {w' : TenancyWorld}

theorem exec_cases {r : Except Exception o.Res} (h : exec server o ⟨db, tape⟩ = (r, w')) :
    (∃ answer db', (tape 0).fault = false ∧ effect server (tape 0) o db = some (answer, db') ∧
      r = .ok answer ∧ w' = ⟨db', fun n => tape (n + 1)⟩) ∨
    (((tape 0).fault = true ∨ effect server (tape 0) o db = none) ∧ r = .error .external ∧
      w' = ⟨db, fun n => tape (n + 1)⟩) := by
  unfold exec at h
  split at h
  · rename_i hSome
    cases h
    split at hSome
    · cases hSome
    · rename_i hFault
      exact .inl ⟨_, _, by simpa using hFault, hSome, rfl, rfl⟩
  · rename_i hNone
    cases h
    refine .inr ⟨?_, rfl, rfl⟩
    split at hNone
    · rename_i hFault
      exact .inl hFault
    · exact .inr hNone

theorem exec_ok {answer : o.Res} : exec server o ⟨db, tape⟩ = (.ok answer, w') ↔
    (tape 0).fault = false ∧ ∃ db', effect server (tape 0) o db = some (answer, db') ∧
      w' = ⟨db', fun n => tape (n + 1)⟩ := by
  constructor
  · intro h
    obtain ⟨_, db', hFault, hEffect, hAnswer, rfl⟩ | ⟨_, hError, _⟩ := exec_cases h
    · cases hAnswer
      exact ⟨hFault, db', hEffect, rfl⟩
    · cases hError
  · rintro ⟨hFault, db', hEffect, rfl⟩
    simp only [exec, hFault, hEffect]
    rfl

end TenancyWorld

namespace Sample

def server : Server where
  uuid := some
  other _ _ := none

def ownerId : String := "9b2f2c52-7a3e-4f0e-8d8b-0a4c5d6e7f80"

/-- One user, no tenant yet. -/
def catalogue : Catalogue where
  users := [ownerId]
  tenants := []
  organizations := []
  schemas := ["public".toList]
  searchPath := ["public".toList]
  nodupTenant := List.nodup_nil
  nodupTenantName := List.nodup_nil
  nodupOrganization := List.nodup_nil
  nodupOrganizationName := List.nodup_nil
  nodupImage := List.nodup_nil
  tenantOf := fun _ ho => absurd ho List.not_mem_nil

/-- The operation of one number fails. -/
def tenancyWorld (failing : Nat) : TenancyWorld where
  catalogue := catalogue
  tape n := {
    fault := n == failing
    uuid := "123e4567-e89b-42d3-a456-426614174000"
    id := "5f64a1de-27b9-4cc0-9a51-3d1f0b7c8e92" }

/-- From one operation on, fresh values are others than before it. -/
def twoTenants (second : Nat) : TenancyWorld where
  catalogue := catalogue
  tape n := {
    uuid := if n < second then "123e4567-e89b-42d3-a456-426614174000"
      else "0b1c2d3e-4f50-4617-8293-a4b5c6d7e8f9"
    id := if n < second then "5f64a1de-27b9-4cc0-9a51-3d1f0b7c8e92"
      else "7c1b4a52-93de-4f08-b6a1-2e5d8f907c34" }

def organizationDto : CreateOrganizationDto where
  name := "acme"
  owner := ownerId

end Sample

end Manejaplus
