import Manejaplus.Effect.Guarantee
import Manejaplus.Tenancy.Consistency

/-! # Organizations and their tenants under any interleaving

Creations and deletions run side by side, one statement at a time, and any
statement may fail. An organization that comes about is the one its own request
asked for, in a tenant of its own.
-/
namespace Manejaplus
open Effect Prog Sql
set_option autoImplicit false

inductive TenancyAnswer where
  | organization (organizationModel : OrganizationModel)
  | message (text : String)

def TenancyRequest.answer (cases : CaseMapping) : TenancyRequest → Tenancy TenancyAnswer
  | .createOrganization dto => do return .organization (← OrganizationService.createOrganization dto)
  | .deleteSchema schemaName => do return .message (← PersistenceController.deleteSchema cases schemaName)

namespace Housing
open TenantService

/-- How far a request has come: the name it has given, the id of its tenant's row, the statements
that have gone through, and whether its organization is in. -/
structure Progress where
  request : TenancyRequest
  name : Option String := none
  tenant : Js String := .undefined
  sent : List String := []
  placed : Bool := false

namespace Progress

def named (γ : Progress) (UUID : String) : Option String :=
  match γ.request with
  | .createOrganization dto => some (tenantName dto.name UUID)
  | .deleteSchema _ => none

def Sends (cases : CaseMapping) (γ : Progress) (sql : String) : Prop :=
  (∃ name ∈ γ.name, sql = createSchema name ∨ sql = setSearchPath name) ∨
    sql = setSearchPath "public" ∨
    ∃ n, γ.request = .deleteSchema n ∧ cases.toLowerCase n ≠ "public" ∧
      (sql = dropTables n ∨ sql = dropSchema n)

def SavesTenant (γ : Progress) (e : OrganizationObject) : Prop :=
  ∃ dto, γ.request = .createOrganization dto ∧ ∃ name ∈ γ.name, e = { dto.model with name := .val name }

/-- An organization goes in with the tenant of its own request, or with none. -/
def SavesOrganization (γ : Progress) (e : OrganizationObject) : Prop :=
  ∃ dto, γ.request = .createOrganization dto ∧ e.owner = .val dto.owner ∧
    ∀ id, e.tenant = .val id → γ.tenant = .val id ∧
      ∃ name ∈ γ.name, e.name = .val name ∧ createSchema name ∈ γ.sent

end Progress

def protocol (cases : CaseMapping) : Protocol tenancy Exception TenancyWorld Progress where
  next γ _ o r := match o, r with
    | .randomUuid, .ok UUID => { γ with name := γ.named UUID }
    | .saveTenant _, .ok created => { γ with tenant := created.id }
    | .query sql, .ok _ => { γ with sent := sql :: γ.sent }
    | .saveOrganization _, .ok _ => { γ with placed := true }
    | _, _ => γ
  allows γ o := match o with
    | .randomUuid => γ = { request := γ.request }
    | .saveTenant e => γ.SavesTenant e
    | .query sql => γ.Sends cases sql
    | .saveOrganization e => γ.SavesOrganization e
    | _ => True

/-- What a deletion may name: nothing that is cut off or taken for more than one name, and not
`public`. -/
def Deletable (cases : CaseMapping) (n : String) : Prop :=
  cases.toLowerCase n = "public" ∨
    (Quotable n.toList ∧ '\'' ∉ n.toList ∧ ¬ dollars <:+: n.toList ∧ n ≠ "public")

/-- No deletion names what is the same identifier. -/
def Spared (asked : TenancyRequest → Prop) (name : String) : Prop :=
  ∀ n, asked (.deleteSchema n) → ident n ≠ ident name

/-- Each organization has a tenant of its own name and owner, and its schema unless a deletion
names it. -/
def Housed (asked : TenancyRequest → Prop) (db : Catalogue) : Prop :=
  ∀ o ∈ db.organizations, ∃ t ∈ db.tenants, t.id = o.tenant ∧ t.name = o.name ∧ t.owner = o.owner ∧
    (Spared asked o.name → ident o.name ∈ db.schemas)

structure Plain (cases : CaseMapping) (asked : TenancyRequest → Prop) (w : TenancyWorld) : Prop where
  names : ∀ dto, asked (.createOrganization dto) → ∀ n,
    '"' ∉ (tenantName dto.name (w.tape n).uuid).toList
  deletions : ∀ n, asked (.deleteSchema n) → Deletable cases n

/-- What is known of a request that has come so far. -/
structure Accounted (server : Server) (asked : TenancyRequest → Prop) (db : Catalogue) (γ : Progress) :
    Prop where
  request : asked γ.request
  named : ∀ name ∈ γ.name, Identifies name (ident name) ∧ ∃ UUID, γ.named UUID = some name
  saved : ∀ id, γ.tenant = .val id → ∃ t ∈ db.tenants, t.id = id ∧ t.name ∈ γ.name ∧
    ∃ dto, γ.request = .createOrganization dto ∧ server.uuid dto.owner = some t.owner
  created : ∀ name ∈ γ.name, createSchema name ∈ γ.sent → Spared asked name →
    ident name ∈ db.schemas
  placed : γ.placed = true → ∃ o ∈ db.organizations, o.name ∈ γ.name ∧
    ∃ dto, γ.request = .createOrganization dto ∧ server.uuid dto.owner = some o.owner

/-- Rows stay; only the schemas that deletions name can go. -/
structure Extends (asked : TenancyRequest → Prop) (db db' : Catalogue) : Prop where
  tenants : ∀ t ∈ db.tenants, t ∈ db'.tenants
  organizations : ∀ o ∈ db.organizations, o ∈ db'.organizations
  schemas : ∀ n : String, Spared asked n → ident n ∈ db.schemas → ident n ∈ db'.schemas

theorem Extends.refl (asked : TenancyRequest → Prop) (db : Catalogue) : Extends asked db db :=
  ⟨fun _ h => h, fun _ h => h, fun _ _ h => h⟩

section Steps
variable {server : Server} {cases : CaseMapping} {asked : TenancyRequest → Prop}
  {db db' : Catalogue} {γ γ' : Progress} {w : TenancyWorld}

theorem extends_schemas {schemas searchPath : List Text} (hKept : ∀ n : String,
    Spared asked n → ident n ∈ db.schemas → ident n ∈ schemas) :
    Extends asked db { db with schemas, searchPath } :=
  ⟨fun _ h => h, fun _ h => h, hKept⟩

theorem Housed.extends (hHoused : Housed asked db) (hExtends : Extends asked db db')
    (hSame : db'.organizations = db.organizations) : Housed asked db' := by
  intro o ho
  obtain ⟨t, ht, hId, hName, hOwner, hSchema⟩ := hHoused o (hSame ▸ ho)
  exact ⟨t, hExtends.tenants t ht, hId, hName, hOwner,
    fun hSpared => hExtends.schemas _ hSpared (hSchema hSpared)⟩

theorem Accounted.extends (hAccounted : Accounted server asked db γ)
    (hExtends : Extends asked db db') : Accounted server asked db' γ where
  request := hAccounted.request
  named := hAccounted.named
  saved id hId := by
    obtain ⟨t, ht, hSaved⟩ := hAccounted.saved id hId
    exact ⟨t, hExtends.tenants t ht, hSaved⟩
  created name hName hSent hSpared :=
    hExtends.schemas _ hSpared (hAccounted.created name hName hSent hSpared)
  placed hPlaced := by
    obtain ⟨o, ho, hSaved⟩ := hAccounted.placed hPlaced
    exact ⟨o, hExtends.organizations o ho, hSaved⟩

theorem createSchema_cases {s : Text} (h : db.createSchema s = some db') :
    (∃ schemas, db' = { db with schemas } ∧ ∀ n ∈ db.schemas, n ∈ schemas) ∧ s ∈ db'.schemas := by
  unfold Catalogue.createSchema at h
  split at h
  · cases h
  split at h
  · rename_i hThere
    cases h
    exact ⟨⟨_, rfl, fun _ hn => hn⟩, hThere⟩
  · cases h
    exact ⟨⟨_, rfl, fun _ hn => List.mem_append_left _ hn⟩,
      List.mem_append_right _ (List.mem_singleton_self s)⟩

/-- A statement that the protocol permits touches no table, and only schemas that it may. -/
theorem query_cases {sql : String} (hDeletions : ∀ n, asked (.deleteSchema n) → Deletable cases n)
    (hAccounted : Accounted server asked db γ) (hSends : γ.Sends cases sql)
    (h : db.query server sql = some db') : ∃ schemas searchPath,
      db' = { db with schemas, searchPath } ∧
        ∀ n : String, Spared asked n → ident n ∈ db.schemas → ident n ∈ schemas := by
  obtain ⟨name, hName, rfl | rfl⟩ | rfl | ⟨n, hRequest, hOther, hSql⟩ := hSends
  · rw [Catalogue.query_createSchema (hAccounted.named name hName).1] at h
    obtain ⟨⟨schemas, rfl, hKept⟩, _⟩ := createSchema_cases h
    exact ⟨_, _, rfl, fun n _ hn => hKept _ hn⟩
  · rw [Catalogue.query_setSearchPath (hAccounted.named name hName).1] at h
    cases h
    exact ⟨_, _, rfl, fun n _ hn => hn⟩
  · rw [Catalogue.query_setSearchPath Provisioning.identifies_public] at h
    cases h
    exact ⟨_, _, rfl, fun n _ hn => hn⟩
  have hAsked : asked (.deleteSchema n) := hRequest ▸ hAccounted.request
  obtain hLower | ⟨hQuotable, hLiteral, hDollars, hPublic⟩ := hDeletions n hAsked
  · exact absurd hLower hOther
  have hPublic' : n.toList ≠ "public".toList := fun h => hPublic (String.toList_inj.mp h)
  obtain rfl | rfl := hSql
  · rw [Catalogue.query_dropTables hQuotable hLiteral hDollars hPublic'] at h
    cases h
    exact ⟨_, _, rfl, fun n _ hn => hn⟩
  · rw [Catalogue.query_dropSchema hQuotable hPublic'] at h
    obtain rfl := Consistency.dropSchema_cases h
    refine ⟨_, _, rfl, fun n' hSpared hn => List.mem_filter.mpr ⟨hn, decide_eq_true fun hSame => ?_⟩⟩
    exact hSpared n hAsked ((ident_eq hQuotable.short).trans hSame.symm)

theorem tenantRow_ok {id : String} {e : OrganizationObject} {row : TenantRow}
    (h : Catalogue.tenantRow server id e = some row) :
    row.id = id ∧ e.name = .val row.name ∧
      ∃ owner, e.owner = .val owner ∧ server.uuid owner = some row.owner := by
  obtain ⟨name, hName, h⟩ := Option.bind_eq_some_iff.mp h
  obtain ⟨owner, hOwner, h⟩ := Option.bind_eq_some_iff.mp h
  obtain ⟨canonical, hCanonical, h⟩ := Option.bind_eq_some_iff.mp h
  cases h
  exact ⟨rfl, Js.required_iff.mp hName, owner, Js.required_iff.mp hOwner, hCanonical⟩

theorem organizationRow_ok {id : String} {e : OrganizationObject} {row : OrganizationRow}
    (h : Catalogue.organizationRow server id e = some row) :
    e.name = .val row.name ∧ e.tenant = .val row.tenant ∧
      ∃ owner, e.owner = .val owner ∧ server.uuid owner = some row.owner := by
  obtain ⟨name, hName, h⟩ := Option.bind_eq_some_iff.mp h
  obtain ⟨owner, hOwner, h⟩ := Option.bind_eq_some_iff.mp h
  obtain ⟨canonical, hCanonical, h⟩ := Option.bind_eq_some_iff.mp h
  obtain ⟨tenant, hTenant, h⟩ := Option.bind_eq_some_iff.mp h
  cases h
  exact ⟨Js.required_iff.mp hName, Js.required_iff.mp hTenant, owner,
    Js.required_iff.mp hOwner, hCanonical⟩

theorem tenant_saved {draw : Draw} {e created : OrganizationObject} (hHoused : Housed asked db)
    (hAccounted : Accounted server asked db γ) (hSaves : γ.SavesTenant e)
    (h : db.insertTenant server draw.id e = some (created, db')) :
    Extends asked db db' ∧ Housed asked db' ∧
      Accounted server asked db' { γ with tenant := created.id } := by
  obtain ⟨row, hRow, hAdmits, rfl, rfl⟩ := Provisioning.insertTenant_eq_some.mp h
  have hExtends : Extends asked db (db.addTenant row hAdmits) :=
    ⟨fun t ht => List.mem_append_left _ ht, fun _ ho => ho, fun _ _ hn => hn⟩
  obtain ⟨hId, hName, owner, hOwner, hCanonical⟩ := tenantRow_ok hRow
  obtain ⟨dto, hRequest, name, hGiven, rfl⟩ := hSaves
  cases hName
  cases hOwner
  refine ⟨hExtends, hHoused.extends hExtends rfl,
    { hAccounted.extends hExtends with saved := fun id hSame => ?_ }⟩
  cases hSame
  exact ⟨row, List.mem_append_right _ (List.mem_singleton_self row), hId, hGiven, dto, hRequest,
    hCanonical⟩

theorem organization_saved {draw : Draw} {e created : OrganizationObject}
    (hHoused : Housed asked db) (hAccounted : Accounted server asked db γ)
    (hSaves : γ.SavesOrganization e)
    (h : db.insertOrganization server draw.id e = some (created, db')) :
    Extends asked db db' ∧ Housed asked db' ∧
      Accounted server asked db' { γ with placed := true } := by
  obtain ⟨row, hRow, hAdmits, rfl, rfl⟩ := Provisioning.insertOrganization_eq_some.mp h
  have hExtends : Extends asked db (db.addOrganization row hAdmits) :=
    ⟨fun t ht => ht, fun _ ho => List.mem_append_left _ ho, fun _ _ hn => hn⟩
  obtain ⟨hName, hTenant, owner, hOwner, hCanonical⟩ := organizationRow_ok hRow
  obtain ⟨dto, hRequest, hSame, hOwn⟩ := hSaves
  cases hSame.symm.trans hOwner
  obtain ⟨hSaved, name, hGiven, hSameName, hSent⟩ := hOwn _ hTenant
  cases hSameName.symm.trans hName
  have hAccounted' := hAccounted.extends hExtends
  refine ⟨hExtends, ?_, { hAccounted' with placed := fun _ => ?_ }⟩
  · intro o ho
    obtain ho | ho := List.mem_append.mp ho
    · exact hHoused o ho
    rw [List.mem_singleton.mp ho]
    obtain ⟨t, ht, hId, hNamed, dto', hRequest', hOwned⟩ := hAccounted.saved _ hSaved
    cases hRequest.symm.trans hRequest'
    exact ⟨t, ht, hId, Option.mem_unique hNamed hGiven,
      Option.some.inj (hOwned.symm.trans hCanonical), hAccounted.created _ hGiven hSent⟩
  · exact ⟨row, List.mem_append_right _ (List.mem_singleton_self row), hGiven, dto, hRequest,
      hCanonical⟩

theorem effect_kept {o : TenancyOp} {answer : o.Res} (hPlain : Plain cases asked w)
    (hHoused : Housed asked w.catalogue) (hAccounted : Accounted server asked w.catalogue γ)
    (hAllows : (protocol cases).allows γ o)
    (h : TenancyWorld.effect server (w.tape 0) o w.catalogue = some (answer, db')) :
    Extends asked w.catalogue db' ∧ Housed asked db' ∧
      Accounted server asked db' ((protocol cases).next γ w o (.ok answer)) := by
  have hSame := Extends.refl asked w.catalogue
  cases o with
  | randomUuid =>
    cases h
    have hBegun : γ = { request := γ.request } := hAllows
    refine ⟨hSame, hHoused, ?_, ?_, ?_, ?_, ?_⟩
    · exact hAccounted.request
    · intro name hName
      refine ⟨?_, _, hName⟩
      change γ.named _ = some name at hName
      unfold Progress.named at hName
      split at hName
      · rename_i dto hRequest
        cases hName
        exact SchemaStatement.identifies_tenantName
          (hPlain.names dto (hRequest ▸ hAccounted.request) 0)
      · cases hName
    · intro id hId
      rw [hBegun] at hId
      cases hId
    · intro name _ hSent
      rw [hBegun] at hSent
      cases hSent
    · intro hPlaced
      rw [hBegun] at hPlaced
      cases hPlaced
  | saveTenant e => exact tenant_saved hHoused hAccounted hAllows h
  | countSchemata schemaName =>
    cases h
    exact ⟨hSame, hHoused, hAccounted⟩
  | query sql =>
    obtain ⟨_, hQuery, hNext⟩ := Option.map_eq_some_iff.mp h
    cases hNext
    obtain ⟨schemas, searchPath, rfl, hKept⟩ := query_cases hPlain.deletions hAccounted hAllows hQuery
    have hExtends : Extends asked w.catalogue { w.catalogue with schemas, searchPath } :=
      extends_schemas hKept
    have hAccounted' := hAccounted.extends hExtends
    refine ⟨hExtends, hHoused.extends hExtends rfl, { hAccounted' with created := ?_ }⟩
    intro name hName hSent hSpared
    obtain rfl | hSent := List.mem_cons.mp hSent
    · rw [Catalogue.query_createSchema (hAccounted.named name hName).1] at hQuery
      exact (createSchema_cases hQuery).2
    · exact hAccounted'.created name hName hSent hSpared
  | initializeClient schema =>
    cases h
    exact ⟨hSame, hHoused, hAccounted⟩
  | synchronize schema =>
    cases h
    exact ⟨hSame, hHoused, hAccounted⟩
  | destroy schema =>
    cases h
    exact ⟨hSame, hHoused, hAccounted⟩
  | saveOrganization e => exact organization_saved hHoused hAccounted hAllows h

theorem exec_kept {o : TenancyOp} (hPlain : Plain cases asked w)
    (hHoused : Housed asked w.catalogue) (hAccounted : Accounted server asked w.catalogue γ)
    (hAllows : (protocol cases).allows γ o) :
    Plain cases asked (TenancyWorld.exec server o w).2 ∧
      Extends asked w.catalogue (TenancyWorld.exec server o w).2.catalogue ∧
      Housed asked (TenancyWorld.exec server o w).2.catalogue ∧
      Accounted server asked (TenancyWorld.exec server o w).2.catalogue
        ((protocol cases).next γ w o (TenancyWorld.exec server o w).1) := by
  rcases hExec : TenancyWorld.exec server o w with ⟨r, w'⟩
  obtain ⟨answer, db', _, hEffect, rfl, rfl⟩ | ⟨_, rfl, rfl⟩ := TenancyWorld.exec_cases hExec
  · exact ⟨⟨fun dto hAsked n => hPlain.names dto hAsked (n + 1), hPlain.deletions⟩,
      effect_kept hPlain hHoused hAccounted hAllows hEffect⟩
  · refine ⟨⟨fun dto hAsked n => hPlain.names dto hAsked (n + 1), hPlain.deletions⟩,
      .refl asked _, hHoused, ?_⟩
    cases o <;> exact hAccounted

theorem maintains (server : Server) (cases : CaseMapping) (asked : TenancyRequest → Prop) :
    Maintains (TenancyWorld.exec server) (protocol cases)
      (fun w => Plain cases asked w ∧ Housed asked w.catalogue)
      (fun w γ => Accounted server asked w.catalogue γ) where
  world _ _ _ hWorld hAccounted hAllows :=
    have hKept := exec_kept hWorld.1 hWorld.2 hAccounted hAllows
    ⟨hKept.1, hKept.2.2.1⟩
  own _ _ _ hWorld hAccounted hAllows :=
    (exec_kept hWorld.1 hWorld.2 hAccounted hAllows).2.2.2
  others _ _ _ _ hWorld hAccounted hAllows hOther :=
    hOther.extends (exec_kept hWorld.1 hWorld.2 hAccounted hAllows).2.1

end Steps

section Requests
variable {server : Server} {cases : CaseMapping} {γ : Progress} {dto : CreateOrganizationDto}

abbrev Keeps {α : Type} (server : Server) (cases : CaseMapping) (γ : Progress) (p : Tenancy α)
    (Q : Progress → Except Exception α → Prop) : Prop :=
  Obeys (TenancyWorld.exec server) (protocol cases) (fun _ => True) γ p Q

/-- What the answer `tenant` of the steps after the insertion of the tenant stands for. -/
def SetUp (γ : Progress) (name : String) (γ' : Progress) (r : Except Exception (Option String)) : Prop :=
  γ'.request = γ.request ∧ γ'.placed = γ.placed ∧ γ'.name = γ.name ∧
    ∀ id, r = .ok (some id) → γ'.tenant = .val id ∧ createSchema name ∈ γ'.sent

theorem setUp_failed {name : String} {sent : List String} {e : Exception} :
    SetUp γ name { γ with sent } (.error e) := ⟨rfl, rfl, rfl, fun _ h => by cases h⟩

theorem keeps_checkSchema {schemaName : String} :
    Keeps server cases γ (checkSchemaToCreateExists schemaName) fun γ' _ => γ' = γ :=
  Obeys.perform_cases trivial (fun _ _ _ => rfl) fun _ _ => rfl

theorem keeps_setUpSchema {name : String} {created : OrganizationObject}
    (hName : name ∈ γ.name) (hTenant : γ.tenant = created.id) :
    Keeps server cases γ (setUpSchema name created) (SetUp γ name) := by
  refine Obeys.seq keeps_checkSchema ?_ fun _ e h => h ▸ setUp_failed
  rintro γ' schemaExists rfl
  split
  · exact setUp_failed
  refine Obeys.perform_cases (.inl ⟨name, hName, .inl rfl⟩) (fun _ _ _ => ?_) fun _ _ => setUp_failed
  refine Obeys.perform_cases (.inl ⟨name, hName, .inr rfl⟩) (fun _ _ _ => ?_) fun _ _ => setUp_failed
  refine Obeys.perform_cases trivial (fun _ _ _ => ?_) fun _ _ => setUp_failed
  refine Obeys.perform_cases trivial (fun _ _ _ => ?_) fun _ _ => setUp_failed
  refine Obeys.perform_cases trivial (fun _ _ _ => ?_) fun _ _ => setUp_failed
  refine Obeys.perform_cases (.inr (.inl rfl)) (fun _ _ _ => ?_) fun _ _ => setUp_failed
  cases hId : created.id with
  | val id =>
    refine ⟨rfl, rfl, rfl, fun id' h => ?_⟩
    cases h
    exact ⟨hTenant.trans hId, by simp [protocol]⟩
  | undefined => exact ⟨rfl, rfl, rfl, fun _ h => by cases h⟩
  | null => exact ⟨rfl, rfl, rfl, fun _ h => by cases h⟩

theorem keeps_UUIDEncoder (hBegun : γ = { request := .createOrganization dto }) :
    Keeps server cases γ UUIDEncoder fun γ' r => (∃ e, r = .error e ∧ γ' = γ) ∨
      ∃ UUID, r = .ok UUID ∧ γ' = { γ with name := some (tenantName dto.name UUID) } := by
  subst hBegun
  refine Obeys.catching.mpr ⟨rfl, fun w _ => ?_⟩
  cases (TenancyWorld.exec server .randomUuid w).1 with
  | ok UUID => exact .inr ⟨UUID, rfl, rfl⟩
  | error e => exact .inl ⟨_, rfl, rfl⟩

/-- Where a request stands once the tenant service has answered. -/
structure Ready (dto : CreateOrganizationDto) (γ : Progress) (tenant : Option String)
    (model : OrganizationModel) : Prop where
  request : γ.request = .createOrganization dto
  owner : model.owner = .val dto.owner
  own : ∀ id ∈ tenant, γ.tenant = .val id ∧
    ∃ name ∈ γ.name, model.name = .val name ∧ createSchema name ∈ γ.sent

theorem keeps_createSchemaOf {name : String} (hRequest : γ.request = .createOrganization dto)
    (hName : name ∈ γ.name) :
    Keeps server cases γ (createSchemaOf { dto.model with name := .val name }) fun γ' r =>
      γ'.request = γ.request ∧ γ'.name = γ.name ∧
        ∀ id, r = .ok (some id) → γ'.tenant = .val id ∧ createSchema name ∈ γ'.sent := by
  refine Obeys.perform_cases ⟨dto, hRequest, name, hName, rfl⟩ (fun w created _ => ?_) fun w e => ?_
  · refine Obeys.mono (fun γ' r h => ?_) (keeps_setUpSchema hName rfl)
    exact ⟨h.1, h.2.2⟩
  · exact ⟨rfl, rfl, fun _ h => by cases h⟩

theorem keeps_createTenantClient (hBegun : γ = { request := .createOrganization dto }) :
    Keeps server cases γ (createTenantClient dto.model) fun γ' r =>
      ∃ tenant model, r = .ok (tenant, model) ∧ Ready dto γ' tenant model := by
  have hRequest := congrArg Progress.request hBegun
  refine Obeys.attempt_then (keeps_UUIDEncoder hBegun) ?_
  rintro γ' r (⟨e, rfl, rfl⟩ | ⟨UUID, rfl, rfl⟩)
  · exact ⟨none, dto.model, rfl, hRequest, rfl, fun _ h => by cases h⟩
  refine Obeys.bind.mpr (Obeys.catching.mpr (Obeys.mono ?_ (keeps_createSchemaOf hRequest rfl)))
  rintro γ' (e | tenant) ⟨hRequest', hName, hOwn⟩
  · exact ⟨none, _, rfl, hRequest'.trans hRequest, rfl, fun _ h => by cases h⟩
  · refine ⟨tenant, _, rfl, hRequest'.trans hRequest, rfl, ?_⟩
    rintro id rfl
    obtain ⟨hTenant, hSent⟩ := hOwn id rfl
    exact ⟨hTenant, _, hName, rfl, hSent⟩

theorem next_request (γ : Progress) {w : TenancyWorld} (o : TenancyOp) (r : Except Exception o.Res) :
    ((protocol cases).next γ w o r).request = γ.request := by
  cases o <;> cases r <;> rfl

theorem accounted_begun {asked : TenancyRequest → Prop} {db : Catalogue} {q : TenancyRequest}
    (hAsked : asked q) : Accounted server asked db { request := q } where
  request := hAsked
  named _ h := by cases h
  saved _ h := by cases h
  created _ h := by cases h
  placed h := by cases h

/-- How a request has ended: a creation that has succeeded answers with the name it has given. -/
def Ended (γ : Progress) (r : Except Exception TenancyAnswer) : Prop :=
  ∀ answer, r = .ok answer → ∀ dto, γ.request = .createOrganization dto →
    γ.placed = true ∧ ∃ name ∈ γ.name, answer = .organization { name := .val name }

theorem keeps_createOrganization (hBegun : γ = { request := .createOrganization dto }) :
    Keeps server cases γ (OrganizationService.createOrganization dto) fun γ' r =>
      ∀ model, r = .ok model → γ'.placed = true ∧ ∃ name ∈ γ'.name, model = { name := .val name } := by
  refine Obeys.seq (keeps_createTenantClient hBegun) ?_ fun _ _ _ _ h => by cases h
  rintro γ' pair ⟨tenant, model, hAnswer, hReady⟩
  cases hAnswer
  have hSaves : γ'.SavesOrganization (Provisioning.entityOf model tenant) := by
    refine ⟨dto, hReady.request, hReady.owner, fun id hId => ?_⟩
    cases tenant with
    | none => cases hId
    | some id' =>
      cases hId
      exact hReady.own _ rfl
  refine Obeys.perform_cases hSaves (fun w created hInserted => ?_) fun _ _ _ h => by cases h
  rintro _ ⟨rfl⟩
  refine ⟨rfl, ?_⟩
  obtain ⟨_, _, _, hEffect, hOk, _⟩ | ⟨_, hError, _⟩ := TenancyWorld.exec_cases
    (Prod.ext hInserted rfl : TenancyWorld.exec server
      (.saveOrganization (Provisioning.entityOf model tenant)) w = (.ok created, _))
  · cases hOk
    obtain ⟨row, hRow, _, rfl, _⟩ := Provisioning.insertOrganization_eq_some.mp hEffect
    obtain ⟨_, hTenant, _⟩ := organizationRow_ok hRow
    obtain ⟨_, _, _, hOwn⟩ := hSaves
    obtain ⟨_, name, hName, hSame, _⟩ := hOwn _ hTenant
    exact ⟨name, hName, by simp [OrganizationObject.mapClass, hSame]⟩
  · cases hError

theorem keeps_deleteSchema {n : String} (hRequest : γ.request = .deleteSchema n) :
    Keeps server cases γ (PersistenceController.deleteSchema cases n) fun γ' _ =>
      γ'.request = .deleteSchema n := by
  suffices hClient : Keeps server cases γ (deleteSchemaClient cases n) fun γ' _ =>
      γ'.request = .deleteSchema n from Obeys.seq hClient (fun _ _ h => h) fun _ _ h => h
  refine Obeys.catching.mpr ?_
  split
  · exact hRequest
  rename_i hOther
  refine Obeys.perform_cases (.inr (.inr ⟨n, hRequest, hOther, .inl rfl⟩)) (fun _ _ _ => ?_)
    fun _ _ => hRequest
  exact Obeys.perform_cases (.inr (.inr ⟨n, hRequest, hOther, .inr rfl⟩)) (fun _ _ _ => hRequest)
    fun _ _ => hRequest

theorem keeps_answer (q : TenancyRequest) :
    Keeps server cases { request := q } (q.answer cases) Ended := by
  cases q with
  | createOrganization dto =>
    refine Obeys.seq (keeps_createOrganization rfl) ?_ fun _ _ _ _ h => by cases h
    rintro γ' model hModel _ ⟨rfl⟩ _ _
    obtain ⟨hPlaced, name, hName, rfl⟩ := hModel model rfl
    exact ⟨hPlaced, name, hName, rfl⟩
  | deleteSchema n =>
    refine Obeys.seq (keeps_deleteSchema rfl) ?_ fun _ _ _ _ h => by cases h
    intro γ' _ hRequest _ _ dto hOther
    cases hRequest.symm.trans hOther

end Requests

abbrev Requests (ι : Type) := Pool tenancy Exception TenancyWorld TenancyAnswer Progress ι

def requested {ι : Type} (cases : CaseMapping) (requests : ι → TenancyRequest) (start : TenancyWorld) :
    Requests ι where
  world := start
  threads i := ⟨(requests i).answer cases, { request := requests i }⟩

theorem Housed.apart {asked : TenancyRequest → Prop} {db : Catalogue} (h : Housed asked db)
    {o o' : OrganizationRow} (ho : o ∈ db.organizations) (ho' : o' ∈ db.organizations)
    (hTenant : o.tenant = o'.tenant) : o = o' := by
  obtain ⟨t, ht, hId, hName, _⟩ := h o ho
  obtain ⟨t', ht', hId', hName', _⟩ := h o' ho'
  have hSame : t = t' := List.inj_on_of_nodup_map db.nodupTenant ht ht'
    (hId.trans (hTenant.trans hId'.symm))
  subst hSame
  exact List.inj_on_of_nodup_map db.nodupOrganizationName ho ho' (hName.symm.trans hName')

end Housing

open Housing TenantService in
/-- However creations and deletions are interleaved and whatever fails, each organization is in a
tenant of its own, with its name and its owner, and in the schema of that name unless a deletion
names it; and what a creation answers is the name of one that has come about for it. -/
theorem organizations_housed {ι : Type} [DecidableEq ι] (server : Server) (cases : CaseMapping)
    (requests : ι → TenancyRequest) (start : TenancyWorld)
    (hPlain : Plain cases (fun q => ∃ i, requests i = q) start)
    (hStart : Housed (fun q => ∃ i, requests i = q) start.catalogue) (schedule : List ι) :
    let p := (requested cases requests start).run (TenancyWorld.exec server) (protocol cases) schedule
    Housed (fun q => ∃ i, requests i = q) p.world.catalogue ∧
    (∀ o ∈ p.world.catalogue.organizations, ∀ o' ∈ p.world.catalogue.organizations,
      o.tenant = o'.tenant → o = o') ∧
    ∀ i dto answer, requests i = .createOrganization dto →
      (p.threads i).prog.result = some (.ok answer) →
      ∃ o ∈ p.world.catalogue.organizations, server.uuid dto.owner = some o.owner ∧
        (∃ UUID, o.name = tenantName dto.name UUID) ∧
          answer = .organization { name := .val o.name } := by
  intro p
  have hBegun : Maintained (TenancyWorld.exec server) (protocol cases)
      (fun i γ r => γ.request = requests i ∧ Ended γ r)
      (fun w => Plain cases (fun q => ∃ i, requests i = q) w ∧
        Housed (fun q => ∃ i, requests i = q) w.catalogue)
      (fun w γ => Accounted server (fun q => ∃ i, requests i = q) w.catalogue γ)
      (requested cases requests start) := by
    refine ⟨fun i => ?_, ⟨hPlain, hStart⟩, fun i => accounted_begun ⟨i, rfl⟩⟩
    exact Obeys.carrying (fun γ _ o r h => (next_request γ o r).trans h) rfl (keeps_answer _)
  have hp := hBegun.run (maintains server cases _) schedule
  refine ⟨hp.world.2, fun o ho o' ho' => hp.world.2.apart ho ho', ?_⟩
  intro i dto answer hRequest hDone
  obtain ⟨⟨hSame, hEnded⟩, hAccounted⟩ := hp.ended hDone
  rw [hRequest] at hSame
  obtain ⟨hPlaced, name, hName, rfl⟩ := hEnded answer rfl dto hSame
  obtain ⟨o, ho, hNamed, dto', hRequest', hOwner⟩ := hAccounted.placed hPlaced
  cases hSame.symm.trans hRequest'
  cases Option.mem_unique hNamed hName
  obtain ⟨_, UUID, hUUID⟩ := hAccounted.named _ hName
  refine ⟨o, ho, hOwner, ⟨UUID, ?_⟩, rfl⟩
  rw [Progress.named, hSame] at hUUID
  exact (Option.some.inj hUUID).symm

namespace Sample

/-- A creation beside the deletion of a schema that does not exist. -/
def sideBySide : Fin 2 → TenancyRequest
  | 0 => creation
  | 1 => .deleteSchema "globex"

theorem sideBySide_plain :
    Housing.Plain ⟨id, id⟩ (fun q => ∃ i, sideBySide i = q) (tenancyWorld 100) where
  names dto hAsked n := by
    obtain ⟨i, hi⟩ := hAsked
    match i with
    | 0 =>
      cases hi
      change '"' ∉ (TenantService.tenantName "acme" "123e4567-e89b-42d3-a456-426614174000").toList
      decide +kernel
    | 1 => cases hi
  deletions n hAsked := by
    obtain ⟨i, hi⟩ := hAsked
    match i with
    | 0 => cases hi
    | 1 =>
      cases hi
      exact .inr ⟨by decide +kernel, by decide +kernel, by decide +kernel, by decide⟩

end Sample

open Housing in
theorem organizations_housed_sample :
    Housed (fun q => ∃ i, Sample.sideBySide i = q)
      ((requested ⟨id, id⟩ Sample.sideBySide (Sample.tenancyWorld 100)).run
        (TenancyWorld.exec Sample.server) (protocol ⟨id, id⟩)
        [0, 1, 0, 0, 1, 0, 0, 0, 0, 0, 0, 0]).world.catalogue :=
  (organizations_housed Sample.server ⟨id, id⟩ Sample.sideBySide (Sample.tenancyWorld 100)
    Sample.sideBySide_plain (fun _ ho => by cases ho) _).1

end Manejaplus
