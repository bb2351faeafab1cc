import Mathlib.Tactic.IntervalCases
import Manejaplus.Tenancy.Catalogue

/-! # A request that creates an organization, run alone

Its steps are separate statements. What a failure leaves behind depends on
whether the row of the tenant had been inserted before it.
-/
namespace Manejaplus
open Effect Prog Sql
set_option autoImplicit false

namespace Provisioning
open TenancyWorld
variable {server : Server} {db : Catalogue} {tape : Nat → Draw} {w' : TenancyWorld} {α : Type}

theorem run_op (o : TenancyOp) (w : TenancyWorld) :
    run (exec server) (Tenancy.perform o) w = exec server o w :=
  run_perform (S := tenancy) (exec server) o w

theorem exec_of_run {o : TenancyOp} {w : TenancyWorld} {r : Except Exception o.Res}
    (hRun : run (exec server) (Tenancy.perform o) w = (r, w')) : exec server o w = (r, w') :=
  (run_op o w).symm.trans hRun

theorem run_op_ok {o : TenancyOp} {f : o.Res → Tenancy α} {a : α} :
    run (exec server) ((Tenancy.perform o).bind f) ⟨db, tape⟩ = (.ok a, w') ↔
      (tape 0).fault = false ∧ ∃ answer db', effect server (tape 0) o db = some (answer, db') ∧
        run (exec server) (f answer) ⟨db', fun n => tape (n + 1)⟩ = (.ok a, w') := by
  rw [run_bind_ok]
  constructor
  · rintro ⟨answer, w₁, hExec, hRun⟩
    rw [run_op] at hExec
    obtain ⟨hFault, db', hEffect, rfl⟩ := exec_ok.mp hExec
    exact ⟨hFault, answer, db', hEffect, hRun⟩
  · rintro ⟨hFault, answer, db', hEffect, hRun⟩
    refine ⟨answer, _, ?_, hRun⟩
    rw [run_op]
    exact exec_ok.mpr ⟨hFault, db', hEffect, rfl⟩

theorem run_query_ok {sql : String} {f : Unit → Tenancy α} {a : α} :
    run (exec server) ((Tenancy.perform (.query sql)).bind f) ⟨db, tape⟩ = (.ok a, w') ↔
      (tape 0).fault = false ∧ ∃ db', db.query server sql = some db' ∧
        run (exec server) (f ()) ⟨db', fun n => tape (n + 1)⟩ = (.ok a, w') := by
  rw [run_op_ok]
  apply and_congr_right
  intro _
  constructor
  · rintro ⟨_, _, hEffect, hRun⟩
    obtain ⟨db', hQuery, hNext⟩ := Option.map_eq_some_iff.mp hEffect
    cases hNext
    exact ⟨_, hQuery, hRun⟩
  · rintro ⟨db', hQuery, hRun⟩
    exact ⟨(), db', Option.map_eq_some_iff.mpr ⟨db', hQuery, rfl⟩, hRun⟩

/-- The client data source leaves the database as it is. -/
theorem run_client_ok {o : TenancyOp} {answer : o.Res} {f : o.Res → Tenancy α} {a : α}
    (hEffect : effect server (tape 0) o db = some (answer, db)) :
    run (exec server) ((Tenancy.perform o).bind f) ⟨db, tape⟩ = (.ok a, w') ↔
      (tape 0).fault = false ∧
        run (exec server) (f answer) ⟨db, fun n => tape (n + 1)⟩ = (.ok a, w') := by
  rw [run_op_ok]
  simp [hEffect]

/-- The database and the connection once the schema of a new tenant is set up. -/
def provisioned (db : Catalogue) (row : TenantRow) (h : db.AdmitsTenant row) (x : Text) :
    Catalogue :=
  { db.addTenant row h with
    schemas := db.schemasWith x
    searchPath := ["public".toList] }

theorem insertTenant_eq_some {id : String} {e created : OrganizationObject} {db' : Catalogue} :
    db.insertTenant server id e = some (created, db') ↔
      ∃ row, Catalogue.tenantRow server id e = some row ∧ ∃ h : db.AdmitsTenant row,
        created = { e with id := .val id } ∧ db' = db.addTenant row h := by
  rw [Catalogue.insertTenant, Option.bind_eq_some_iff]
  refine exists_congr fun row => and_congr_right fun _ => ?_
  constructor
  · intro h
    split at h
    · rename_i hAdmits
      cases h
      exact ⟨hAdmits, rfl, rfl⟩
    · cases h
  · rintro ⟨hAdmits, rfl, rfl⟩
    rw [dif_pos hAdmits]

theorem tenantRow_name {id name : String} {e : OrganizationObject} {row : TenantRow}
    (hName : e.name = .val name) (h : Catalogue.tenantRow server id e = some row) :
    row.id = id ∧ row.name = name := by
  simp only [Catalogue.tenantRow, hName, Js.required, Option.bind_eq_bind, Option.bind_some,
    Option.bind_eq_some_iff, Option.some.injEq] at h
  obtain ⟨_, _, _, _, rfl⟩ := h
  exact ⟨rfl, rfl⟩

theorem identifies_public : Identifies "public" "public".toList :=
  SqlTexts.createdSchema_iff.mpr (by decide)

/-- What the steps after the insertion of the tenant take to reach their end. -/
theorem setUpSchema_ok {name id : String} {created : OrganizationObject} {tenant : Option String}
    {x : Text} (hId : created.id = .val id) (h : Identifies name x) :
    run (exec server) (TenantService.setUpSchema name created) ⟨db, tape⟩ = (.ok tenant, w') ↔
      (∀ i < 7, (tape i).fault = false) ∧ ident name ∉ db.schemas ∧
        ¬ Catalogue.reserved x ∧ tenant = some id ∧
        w' = ⟨{ db with
          schemas := db.schemasWith x
          searchPath := ["public".toList] }, fun i => tape (i + 7)⟩ := by
  have hCount := @Catalogue.count_pos db name
  rw [TenantService.setUpSchema, TenantService.checkSchemaToCreateExists]
  simp only [bind_eq]
  rw [run_bind_ok]
  constructor
  · rintro ⟨schemaExists, w₁, hCheck, hRun⟩
    obtain ⟨h0, hCheck⟩ := (run_client_ok rfl).mp hCheck
    cases hCheck
    split at hRun
    · cases hRun
    · rename_i hNone
      have hNew : ident name ∉ db.schemas := fun hIn => hNone (decide_eq_true (hCount.mpr hIn))
      obtain ⟨h1, db₁, hCreated, hRun⟩ := run_query_ok.mp hRun
      rw [Catalogue.query_createSchema h, Catalogue.createSchema_eq_some] at hCreated
      obtain ⟨hAllowed, rfl⟩ := hCreated
      obtain ⟨h2, db₂, hSelected, hRun⟩ := run_query_ok.mp hRun
      rw [Catalogue.query_setSearchPath h] at hSelected
      cases hSelected
      obtain ⟨h3, hRun⟩ := (run_client_ok rfl).mp hRun
      obtain ⟨h4, hRun⟩ := (run_client_ok rfl).mp hRun
      obtain ⟨h5, hRun⟩ := (run_client_ok rfl).mp hRun
      obtain ⟨h6, db₃, hReset, hRun⟩ := run_query_ok.mp hRun
      rw [Catalogue.query_setSearchPath identifies_public] at hReset
      cases hReset
      rw [hId] at hRun
      cases hRun
      refine ⟨?_, hNew, hAllowed, rfl, rfl⟩
      intro i hi
      interval_cases i <;> assumption
  · rintro ⟨hCalm, hNew, hAllowed, rfl, rfl⟩
    have hNone : ¬ 0 < (db.schemas.filter (· = ident name)).length :=
      fun hSome => hNew (hCount.mp hSome)
    refine ⟨false, ⟨db, fun i => tape (i + 1)⟩, (run_client_ok rfl).mpr ⟨hCalm 0 (by decide), ?_⟩, ?_⟩
    · rw [pure_eq, run_pure, decide_eq_false hNone]
    · rw [if_neg Bool.false_ne_true]
      have hCreated : db.query server (TenantService.createSchema name) = some _ :=
        (Catalogue.query_createSchema h).trans
          (Catalogue.createSchema_eq_some.mpr ⟨hAllowed, rfl⟩)
      refine run_query_ok.mpr ⟨hCalm 1 (by decide), _, hCreated, ?_⟩
      refine run_query_ok.mpr ⟨hCalm 2 (by decide), _, Catalogue.query_setSearchPath h, ?_⟩
      refine (run_client_ok rfl).mpr ⟨hCalm 3 (by decide), ?_⟩
      refine (run_client_ok rfl).mpr ⟨hCalm 4 (by decide), ?_⟩
      refine (run_client_ok rfl).mpr ⟨hCalm 5 (by decide), ?_⟩
      refine run_query_ok.mpr
        ⟨hCalm 6 (by decide), _, Catalogue.query_setSearchPath identifies_public, ?_⟩
      rw [hId]
      rfl

/-- The name that a request gives the tenant and the organization. -/
def nameOf (tape : Nat → Draw) (dto : CreateOrganizationDto) : String :=
  TenantService.tenantName dto.name (tape 0).uuid

/-- The model as the tenant service leaves it behind. -/
def modelOf (tape : Nat → Draw) (dto : CreateOrganizationDto) : OrganizationModel :=
  { dto.model with name := .val (nameOf tape dto) }

/-- No row for the tenant comes about. -/
def TenantRefused (server : Server) (db : Catalogue) (tape : Nat → Draw)
    (dto : CreateOrganizationDto) : Prop :=
  (tape 0).fault = true ∨ (tape 1).fault = true ∨
    ∀ row, Catalogue.tenantRow server (tape 1).id (modelOf tape dto) = some row → ¬ db.AdmitsTenant row

variable {dto : CreateOrganizationDto}

theorem run_UUIDEncoder {r : Except Exception String}
    (hRun : run (exec server) UUIDEncoder ⟨db, tape⟩ = (r, w')) :
    w' = ⟨db, fun n => tape (n + 1)⟩ ∧ ((tape 0).fault = false ∧ r = .ok (tape 0).uuid ∨
      (tape 0).fault = true ∧ ∃ e, r = .error e) := by
  obtain ⟨UUID, rfl, hRandom⟩ | ⟨e, w₁, hRandom, hThrow⟩ := run_catching_cases _ hRun
  · obtain ⟨_, _, hFault, hEffect, hAnswer, rfl⟩ | ⟨_, hError, _⟩ := exec_cases (exec_of_run hRandom)
    · cases hAnswer
      cases hEffect
      exact ⟨rfl, .inl ⟨hFault, rfl⟩⟩
    · cases hError
  · obtain ⟨_, _, _, _, hAnswer, _⟩ | ⟨hFault, _, rfl⟩ := exec_cases (exec_of_run hRandom)
    · cases hAnswer
    · cases hThrow
      exact ⟨rfl, .inr ⟨hFault.resolve_right nofun, _, rfl⟩⟩

theorem saveTenant_cases {e : OrganizationObject} {r : Except Exception OrganizationObject}
    (hExec : exec server (.saveTenant e) ⟨db, tape⟩ = (r, w')) :
    (((tape 0).fault = true ∨ ∀ row, Catalogue.tenantRow server (tape 0).id e = some row →
        ¬ db.AdmitsTenant row) ∧ (∃ err, r = .error err) ∧ w' = ⟨db, fun n => tape (n + 1)⟩) ∨
    ((tape 0).fault = false ∧ ∃ row, ∃ h : db.AdmitsTenant row,
      Catalogue.tenantRow server (tape 0).id e = some row ∧
        r = .ok { e with id := .val (tape 0).id } ∧
          w' = ⟨db.addTenant row h, fun n => tape (n + 1)⟩) := by
  obtain ⟨_, _, hFault, hInserted, rfl, rfl⟩ | ⟨hRefused, rfl, rfl⟩ := exec_cases hExec
  · obtain ⟨row, hRow, hAdmits, rfl, rfl⟩ := insertTenant_eq_some.mp hInserted
    exact .inr ⟨hFault, row, hAdmits, hRow, rfl, rfl⟩
  · refine .inl ⟨hRefused.imp_right fun hNone row hRow hAdmits => ?_, ⟨_, rfl⟩, rfl⟩
    cases hNone.symm.trans (insertTenant_eq_some.mpr ⟨row, hRow, hAdmits, rfl, rfl⟩)

/-- The client is `null` with nothing done, or the row of the tenant is there and the rest of the
steps has been tried. -/
theorem createTenantClient_cases {r : Except Exception (Option String × TenantModel)}
    (hRun : run (exec server) (TenantService.createTenantClient dto.model) ⟨db, tape⟩ = (r, w')) :
    (TenantRefused server db tape dto ∧ w'.catalogue = db ∧ ∃ m, r = .ok (none, m)) ∨
    (¬ TenantRefused server db tape dto ∧ ∃ row, ∃ h : db.AdmitsTenant row,
      Catalogue.tenantRow server (tape 1).id (modelOf tape dto) = some row ∧ ∃ r',
        run (exec server) (TenantService.setUpSchema (nameOf tape dto)
            { modelOf tape dto with id := .val row.id })
          ⟨db.addTenant row h, fun n => tape (n + 2)⟩ = (r', w') ∧
        r = .ok (r'.toOption.getD none, modelOf tape dto)) := by
  obtain ⟨_, _, hUUID, hRun⟩ := run_attempt_cases _ hRun
  obtain ⟨rfl, ⟨h0, rfl⟩ | ⟨h0, e, rfl⟩⟩ := run_UUIDEncoder hUUID
  · obtain ⟨_, hCaught, rfl⟩ := run_map_cases _ hRun
    obtain ⟨r', hSchema, rfl⟩ := run_default_cases _ hCaught
    obtain ⟨e, rfl, hInsert⟩ | ⟨created, w₁, hInsert, hSetUp⟩ := run_bind_cases _ hSchema
    · obtain ⟨hRefused, _, rfl⟩ | ⟨_, _, _, _, hOk, _⟩ := saveTenant_cases (exec_of_run hInsert)
      · exact .inl ⟨.inr hRefused, rfl, _, rfl⟩
      · cases hOk
    · obtain ⟨_, ⟨_, hError⟩, _⟩ | ⟨hFault, row, hAdmits, hRow, hCreated, rfl⟩ :=
        saveTenant_cases (exec_of_run hInsert)
      · cases hError
      · cases hCreated
        obtain ⟨hId, _⟩ := tenantRow_name rfl hRow
        refine .inr ⟨?_, row, hAdmits, hRow, r', ?_, rfl⟩
        · rintro (hRefused | hRefused | hRefused)
          · cases h0.symm.trans hRefused
          · cases hFault.symm.trans hRefused
          · exact hRefused row hRow hAdmits
        · rw [hId]
          exact hSetUp
  · cases hRun
    exact .inl ⟨.inl h0, rfl, _, rfl⟩

/-- The entity that is inserted in the end; without a client it has no tenant. -/
def entityOf (model : OrganizationModel) (tenant : Option String) : OrganizationObject :=
  { model with tenant := match tenant with
    | some id => .val id
    | none => .null }

/-- The insertion at the end of a request. -/
def insertion (model : OrganizationModel) (tenant : Option String) : Tenancy OrganizationModel :=
  (Tenancy.perform (.saveOrganization (entityOf model tenant))).bind fun created =>
    .pure (created.mapClass (some ["name"]))

theorem insertOrganization_eq_some {id : String} {e created : OrganizationObject} {db' : Catalogue} :
    db.insertOrganization server id e = some (created, db') ↔
      ∃ row, Catalogue.organizationRow server id e = some row ∧ ∃ h : db.AdmitsOrganization row,
        created = { e with id := .val id } ∧ db' = db.addOrganization row h := by
  rw [Catalogue.insertOrganization, Option.bind_eq_some_iff]
  refine exists_congr fun row => and_congr_right fun _ => ?_
  constructor
  · intro h
    split at h
    · rename_i hAdmits
      cases h
      exact ⟨hAdmits, rfl, rfl⟩
    · cases h
  · rintro ⟨hAdmits, rfl, rfl⟩
    rw [dif_pos hAdmits]

theorem insertion_cases {model : OrganizationModel} {tenant : Option String}
    {r : Except Exception OrganizationModel}
    (hRun : run (exec server) (insertion model tenant) ⟨db, tape⟩ = (r, w')) :
    (∃ row, Catalogue.organizationRow server (tape 0).id (entityOf model tenant) = some row ∧
      ∃ h : db.AdmitsOrganization row, (tape 0).fault = false ∧ (∃ answer, r = .ok answer) ∧
        w' = ⟨db.addOrganization row h, fun n => tape (n + 1)⟩) ∨
    (((tape 0).fault = true ∨ ∀ row, Catalogue.organizationRow server (tape 0).id
        (entityOf model tenant) = some row → ¬ db.AdmitsOrganization row) ∧
      (∃ e, r = .error e) ∧ w' = ⟨db, fun n => tape (n + 1)⟩) := by
  obtain ⟨_, hSave, rfl⟩ := run_map_cases _ hRun
  obtain ⟨_, _, hFault, hSome, rfl, rfl⟩ | ⟨hRefused, rfl, rfl⟩ := exec_cases (exec_of_run hSave)
  · obtain ⟨row, hRow, hAdmits, rfl, rfl⟩ := insertOrganization_eq_some.mp hSome
    exact .inl ⟨row, hRow, hAdmits, hFault, ⟨_, rfl⟩, rfl⟩
  · refine .inr ⟨hRefused.imp_right fun hNone row hRow hAdmits => ?_, ⟨_, rfl⟩, rfl⟩
    cases hNone.symm.trans (insertOrganization_eq_some.mpr ⟨row, hRow, hAdmits, rfl, rfl⟩)

/-- An organization without a tenant is refused. -/
theorem insertion_null {model : OrganizationModel} {r : Except Exception OrganizationModel}
    (hRun : run (exec server) (insertion model none) ⟨db, tape⟩ = (r, w')) :
    w'.catalogue = db ∧ ∃ e, r = .error e := by
  obtain ⟨row, hRow, _⟩ | ⟨_, hError, rfl⟩ := insertion_cases hRun
  · simp [Catalogue.organizationRow, entityOf, Js.required] at hRow
  · exact ⟨rfl, hError⟩

theorem createOrganization_cases {r : Except Exception OrganizationModel}
    (hRun : run (exec server) (OrganizationService.createOrganization dto) ⟨db, tape⟩ = (r, w')) :
    (TenantRefused server db tape dto ∧ w'.catalogue = db ∧ ∃ e, r = .error e) ∨
    (¬ TenantRefused server db tape dto ∧ ∃ row, ∃ h : db.AdmitsTenant row,
      Catalogue.tenantRow server (tape 1).id (modelOf tape dto) = some row ∧ ∃ r' w₁,
        run (exec server) (TenantService.setUpSchema (nameOf tape dto)
            { modelOf tape dto with id := .val row.id })
          ⟨db.addTenant row h, fun n => tape (n + 2)⟩ = (r', w₁) ∧
        run (exec server) (insertion (modelOf tape dto) (r'.toOption.getD none)) w₁ = (r, w')) := by
  obtain ⟨e, rfl, hClient⟩ | ⟨⟨tenant, model⟩, w₁, hClient, hInsert⟩ := run_bind_cases _ hRun
  · obtain ⟨_, _, _, hOk⟩ | ⟨_, _, _, _, _, _, hOk⟩ := createTenantClient_cases hClient <;> cases hOk
  · obtain ⟨hRefused, hDb, _, hOk⟩ | ⟨hInserted, row, hAdmits, hRow, r', hSetUp, hOk⟩ :=
      createTenantClient_cases hClient
    · cases hOk
      obtain ⟨hDb', hError⟩ := insertion_null hInsert
      exact .inl ⟨hRefused, hDb'.trans hDb, hError⟩
    · cases hOk
      exact .inr ⟨hInserted, row, hAdmits, hRow, r', w₁, hSetUp, hInsert⟩

/-- The operation leaves the table of tenants as it is. -/
def KeepsTenants (server : Server) (o : TenancyOp) : Prop :=
  ∀ w : TenancyWorld, (exec server o w).2.catalogue.tenants = w.catalogue.tenants

theorem keepsTenants_of_effect {o : TenancyOp} (h : ∀ draw db answer db',
    effect server draw o db = some (answer, db') → db'.tenants = db.tenants) :
    KeepsTenants server o := by
  rintro ⟨db, tape⟩
  generalize hExec : exec server o ⟨db, tape⟩ = next
  obtain ⟨r, w'⟩ := next
  obtain ⟨_, _, _, hEffect, _, rfl⟩ | ⟨_, _, rfl⟩ := exec_cases hExec
  · exact h _ _ _ _ hEffect
  · rfl

theorem keepsTenants_query {sql : String}
    (h : ∀ db db', Catalogue.query server sql db = some db' → db'.tenants = db.tenants) :
    KeepsTenants server (.query sql) :=
  keepsTenants_of_effect fun _ db _ _ hEffect => by
    obtain ⟨db', hQuery, hNext⟩ := Option.map_eq_some_iff.mp hEffect
    cases hNext
    exact h db _ hQuery

theorem tenants_createSchema {s : Text} {db' : Catalogue} (h : db.createSchema s = some db') :
    db'.tenants = db.tenants := by
  unfold Catalogue.createSchema at h
  split at h
  · cases h
  · split at h <;> cases h <;> rfl

theorem keepsTenants_select {n : String} {x : Text} (h : Identifies n x) :
    KeepsTenants server (.query (TenantService.setSearchPath n)) :=
  keepsTenants_query fun db db' hQuery => by
    rw [Catalogue.query_setSearchPath h] at hQuery
    cases hQuery
    rfl

theorem keepsTenants_setUpSchema {name : String} {x : Text} (h : Identifies name x)
    (created : OrganizationObject) :
    (TenantService.setUpSchema name created).Uses (KeepsTenants server) := by
  have hSame : ∀ o : TenancyOp, (∀ draw db answer db',
      effect server draw o db = some (answer, db') → db' = db) → KeepsTenants server o :=
    fun o hEffect => keepsTenants_of_effect fun draw db answer db' hSome => by
      rw [hEffect draw db answer db' hSome]
  refine SqlTexts.uses_setUpSchema (hSame _ ?_) ?_ (keepsTenants_select h) ?_
    (keepsTenants_select identifies_public)
  · rintro _ _ _ _ ⟨⟩
    rfl
  · exact keepsTenants_query fun db db' hQuery =>
      tenants_createSchema ((Catalogue.query_createSchema h).symm.trans hQuery)
  · simp only [List.mem_cons, List.not_mem_nil, or_false]
    rintro o (rfl | rfl | rfl)
    all_goals
      apply hSame _
      rintro _ _ _ _ ⟨⟩
      rfl

theorem tenants_setUpSchema {name : String} {created : OrganizationObject} {x : Text}
    (h : Identifies name x) {r : Except Exception (Option String)}
    (hRun : run (exec server) (TenantService.setUpSchema name created) ⟨db, tape⟩ = (r, w')) :
    w'.catalogue.tenants = db.tenants := by
  have hKeeps : ∀ o, KeepsTenants server o → ∀ w : TenancyWorld,
      (exec server o w).2.catalogue.tenants = w.catalogue.tenants := fun _ ho => ho
  have hRunKeeps := run_keeps (exec server)
    (R := fun w w' : TenancyWorld => w'.catalogue.tenants = w.catalogue.tenants)
    (fun _ => rfl) (fun _ _ _ h h' => h'.trans h) hKeeps
    (keepsTenants_setUpSchema h created) ⟨db, tape⟩
  rw [hRun] at hRunKeeps
  exact hRunKeeps

/-- Every step after the insertion of the tenant does its work, up to the organization's row; the
name that has been given stands for `x` between double quotes. -/
structure GoesThrough (db : Catalogue) (tape : Nat → Draw) (dto : CreateOrganizationDto) (x : Text) :
    Prop where
  calm : ∀ i, 2 ≤ i → i < 10 → (tape i).fault = false
  newSchema : ident (nameOf tape dto) ∉ db.schemas
  allowed : ¬ Catalogue.reserved x
  newId : (tape 9).id ∉ db.organizations.map (·.id)
  newName : nameOf tape dto ∉ db.organizations.map (·.name)
  newImage : ∀ url ∈ dto.image_url.write none, url ∉ db.organizations.filterMap (·.image_url)

theorem tenantRow_eq (id : String) : Catalogue.tenantRow server id (modelOf tape dto) =
    (server.uuid dto.owner).map fun owner => ⟨id, nameOf tape dto, owner⟩ := by
  cases h : server.uuid dto.owner <;>
    simp [Catalogue.tenantRow, modelOf, CreateOrganizationDto.model, Js.required, h]

theorem organizationRow_eq (id tenant : String) :
    Catalogue.organizationRow server id (entityOf (modelOf tape dto) (some tenant)) =
      (server.uuid dto.owner).map fun owner =>
        ⟨id, nameOf tape dto, owner, dto.image_url.write none, tenant⟩ := by
  cases h : server.uuid dto.owner <;>
    simp [Catalogue.organizationRow, entityOf, modelOf, CreateOrganizationDto.model, Js.required, h]

theorem admitsOrganization_iff {row : TenantRow} (h : db.AdmitsTenant row) (x : Text)
    (id : String) : (provisioned db row h x).AdmitsOrganization
        ⟨id, nameOf tape dto, row.owner, dto.image_url.write none, row.id⟩ ↔
      id ∉ db.organizations.map (·.id) ∧ nameOf tape dto ∉ db.organizations.map (·.name) ∧
        ∀ url ∈ dto.image_url.write none, url ∉ db.organizations.filterMap (·.image_url) := by
  constructor
  · exact fun hAdmits => ⟨hAdmits.fresh, hAdmits.name, hAdmits.image⟩
  · rintro ⟨hId, hName, hImage⟩
    refine ⟨h.owner, hId, hName, hImage, ?_⟩
    exact List.mem_map_of_mem (List.mem_append_right _ (List.mem_singleton_self row))

theorem setUp_of_goesThrough {row : TenantRow} (h : db.AdmitsTenant row) {x : Text}
    (hName : Identifies (nameOf tape dto) x) (hGoes : GoesThrough db tape dto x)
    {r' : Except Exception (Option String)} {w₁ : TenancyWorld}
    (hSetUp : run (exec server) (TenantService.setUpSchema (nameOf tape dto)
        { modelOf tape dto with id := .val row.id })
      ⟨db.addTenant row h, fun n => tape (n + 2)⟩ = (r', w₁)) :
    r' = .ok (some row.id) ∧ w₁ = ⟨provisioned db row h x, fun i => tape (i + 9)⟩ := by
  have hSteps := @setUpSchema_ok server (db.addTenant _ h) (fun n => tape (n + 2))
    ⟨provisioned db _ h x, fun i => tape (i + 9)⟩ (nameOf tape dto) row.id
    { modelOf tape dto with id := .val row.id } (some row.id) x rfl hName
  have hDone := hSteps.mpr ⟨fun i hi => hGoes.calm (i + 2) (by omega) (by omega),
    hGoes.newSchema, hGoes.allowed, rfl, rfl⟩
  cases hSetUp.symm.trans hDone
  exact ⟨rfl, rfl⟩

/-- A request whose tenant is there succeeds exactly if it goes through, with these rows. -/
theorem request_ok {row : TenantRow} (h : db.AdmitsTenant row) {x : Text}
    (hRow : Catalogue.tenantRow server (tape 1).id (modelOf tape dto) = some row)
    (hName : Identifies (nameOf tape dto) x) {r' : Except Exception (Option String)}
    {w₁ : TenancyWorld} {r : Except Exception OrganizationModel}
    (hSetUp : run (exec server) (TenantService.setUpSchema (nameOf tape dto)
        { modelOf tape dto with id := .val row.id })
      ⟨db.addTenant row h, fun n => tape (n + 2)⟩ = (r', w₁))
    (hInsert : run (exec server) (insertion (modelOf tape dto) (r'.toOption.getD none)) w₁ = (r, w')) :
    (∃ answer, r = .ok answer) ↔ GoesThrough db tape dto x := by
  obtain ⟨owner, hOwner, rfl⟩ := Option.map_eq_some_iff.mp ((tenantRow_eq _).symm.trans hRow)
  have hRows : ∀ row, Catalogue.organizationRow server (tape 9).id
      (entityOf (modelOf tape dto) (some (tape 1).id)) = some row ↔
        ⟨(tape 9).id, nameOf tape dto, owner, dto.image_url.write none, (tape 1).id⟩ = row := by
    intro row
    rw [organizationRow_eq, hOwner, Option.map_some, Option.some.injEq]
  constructor
  · rintro ⟨answer, rfl⟩
    cases r' with
    | error e =>
      obtain ⟨_, e, hError⟩ := insertion_null hInsert
      cases hError
    | ok tenant =>
      obtain ⟨hCalm, hNew, hAllowed, rfl, rfl⟩ := (setUpSchema_ok rfl hName).mp hSetUp
      obtain ⟨_, hOrganization, hAdmits, hFault, _⟩ | ⟨_, ⟨e, hError⟩, _⟩ := insertion_cases hInsert
      · cases (hRows _).mp hOrganization
        obtain ⟨hId, hNewName, hImage⟩ := (admitsOrganization_iff h x _).mp hAdmits
        refine ⟨?_, hNew, hAllowed, hId, hNewName, hImage⟩
        intro i hFrom hTo
        obtain rfl | hBefore := Nat.eq_or_lt_of_le (Nat.le_of_lt_succ hTo)
        · exact hFault
        · have hStep := hCalm (i - 2) (by omega)
          rwa [Nat.sub_add_cancel hFrom] at hStep
      · cases hError
  · intro hGoes
    obtain ⟨rfl, rfl⟩ := setUp_of_goesThrough h hName hGoes hSetUp
    obtain ⟨_, _, _, _, hAnswer, _⟩ | ⟨hRefused, _, _⟩ := insertion_cases hInsert
    · exact hAnswer
    · obtain hFault | hRefused := hRefused
      · cases (hGoes.calm 9 (by decide) (by decide)).symm.trans hFault
      · exact absurd ((admitsOrganization_iff h x _).mpr ⟨hGoes.newId, hGoes.newName, hGoes.newImage⟩)
          (hRefused _ ((hRows _).mpr rfl))

/-- The client was `null`, or the request threw. -/
def Fails (server : Server) (w : TenancyWorld) (dto : CreateOrganizationDto) : Prop :=
  (∃ model, (run (exec server) (TenantService.createTenantClient dto.model) w).1 = .ok (none, model)) ∨
    ∃ e, (run (exec server) (OrganizationService.createOrganization dto) w).1 = .error e

structure Unchanged (db db' : Catalogue) : Prop where
  tenants : db'.tenants = db.tenants
  organizations : db'.organizations = db.organizations
  schemas : db'.schemas = db.schemas
  searchPath : db'.searchPath = db.searchPath

/-- A request that fails leaves nothing behind. -/
def FailsCleanly (server : Server) (w : TenancyWorld) (dto : CreateOrganizationDto) : Prop :=
  Fails server w dto → Unchanged w.catalogue
    (run (exec server) (OrganizationService.createOrganization dto) w).2.catalogue

/-- The caller carries on after a `null`, only to be refused the organization's row. -/
theorem fails_iff {w : TenancyWorld} : Fails server w dto ↔
    ∃ e, (run (exec server) (OrganizationService.createOrganization dto) w).1 = .error e := by
  refine ⟨fun hFails => hFails.elim ?_ id, .inr⟩
  rintro ⟨model, hNull⟩
  generalize hRun : run (exec server) (OrganizationService.createOrganization dto) w = next
  obtain ⟨r, w'⟩ := next
  obtain ⟨e, rfl, _⟩ | ⟨⟨tenant, m⟩, w₁, hClient, hInsert⟩ := run_bind_cases _ hRun
  · exact ⟨e, rfl⟩
  · rw [hClient] at hNull
    cases hNull
    exact (insertion_null hInsert).2

end Provisioning

open Provisioning in
/-- A failed creation leaves nothing behind if the row of the tenant was refused. Where the name is
one identifier between double quotes, be it cut off or not, it leaves nothing in no other case than
that nothing could fail after the row. -/
theorem failed_creation_leaves_nothing (server : Server) (w : TenancyWorld)
    (dto : CreateOrganizationDto) :
    (TenantRefused server w.catalogue w.tape dto → FailsCleanly server w dto) ∧
    ∀ x, Identifies (nameOf w.tape dto) x → (FailsCleanly server w dto ↔
      TenantRefused server w.catalogue w.tape dto ∨ GoesThrough w.catalogue w.tape dto x) := by
  obtain ⟨db, tape⟩ := w
  rw [FailsCleanly, fails_iff]
  generalize hRun :
    run (TenancyWorld.exec server) (OrganizationService.createOrganization dto) ⟨db, tape⟩ = next
  obtain ⟨r, w'⟩ := next
  obtain ⟨hRefused, rfl, _⟩ | ⟨hInserted, row, hAdmits, hRow, r', w₁, hSetUp, hInsert⟩ :=
    createOrganization_cases hRun
  · exact ⟨fun _ _ => ⟨rfl, rfl, rfl, rfl⟩,
      fun x _ => iff_of_true (fun _ => ⟨rfl, rfl, rfl, rfl⟩) (.inl hRefused)⟩
  refine ⟨fun hRefused => absurd hRefused hInserted, fun x hName => ?_⟩
  have hOk := request_ok hAdmits hRow hName hSetUp hInsert
  rw [or_iff_right hInserted, ← hOk]
  cases r with
  | ok answer => exact iff_of_true (fun ⟨e, hError⟩ => by cases hError) ⟨answer, rfl⟩
  | error e =>
    refine iff_of_false (fun hClean => ?_) fun ⟨answer, hAnswer⟩ => by cases hAnswer
    have hLeft : w'.catalogue.tenants = db.tenants ++ [row] := by
      refine Eq.trans ?_ (tenants_setUpSchema hName hSetUp)
      obtain ⟨_, _, _, _, _, rfl⟩ | ⟨_, _, rfl⟩ := insertion_cases hInsert <;> rfl
    have hLength := congrArg List.length (hLeft.symm.trans (hClean ⟨e, rfl⟩).tenants)
    simp at hLength

theorem failed_creation_leaves_nothing_sample :
    Provisioning.FailsCleanly Sample.server (Sample.tenancyWorld 1) Sample.organizationDto :=
  (failed_creation_leaves_nothing Sample.server (Sample.tenancyWorld 1) Sample.organizationDto).1
    (.inr (.inl rfl))

/-- The client data source cannot be opened: the tenant's row and schema stay, and the connection
stays on the tenant's search path. -/
theorem failed_creation_leaves_search_path : ¬ ∀ (server : Server) (w : TenancyWorld)
    (dto : CreateOrganizationDto), Provisioning.FailsCleanly server w dto := by
  intro h
  have hClean := h Sample.server (Sample.tenancyWorld 5) Sample.organizationDto
    (.inr ⟨.external, by decide +kernel⟩)
  exact absurd hClean.searchPath (by decide +kernel)

end Manejaplus
