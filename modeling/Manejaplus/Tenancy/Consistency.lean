import Manejaplus.Tenancy.Provisioning

/-! # Tenants and their schemas over a run of requests

A creation adds a row and a schema, a deletion takes the schema alone. What one
request does to the two tables and the schemas is said once, and the run lemma
follows from it.
-/
namespace Manejaplus
open Effect Prog Sql
set_option autoImplicit false

inductive TenancyRequest where
  | createOrganization (dto : CreateOrganizationDto)
  | deleteSchema (schemaName : String)
  deriving DecidableEq, Repr

namespace TenancyRequest

def prog (cases : CaseMapping) : TenancyRequest → Tenancy Unit
  | .createOrganization dto => do
    let _ ← OrganizationService.createOrganization dto
    return ()
  | .deleteSchema schemaName => do
    let _ ← PersistenceController.deleteSchema cases schemaName
    return ()

def serve (server : Server) (cases : CaseMapping) (q : TenancyRequest) (w : TenancyWorld) :
    Except Exception Unit × TenancyWorld := run (TenancyWorld.exec server) (q.prog cases) w

end TenancyRequest

namespace Consistency
open Provisioning TenancyRequest

abbrev TenancyEvent := Event TenancyWorld TenancyRequest (Except Exception Unit)

/-- The schema is one that a creation has brought about. -/
def Created (ev : TenancyEvent) (s : Text) : Prop :=
  (∃ dto, ev.request = .createOrganization dto) ∧ s ∈ ev.after.catalogue.schemas ∧
    s ∉ ev.before.catalogue.schemas

/-- Rows and schemas belong together. -/
structure Consistent (past : List TenancyEvent) (w : TenancyWorld) : Prop where
  named : ∀ t ∈ w.catalogue.tenants, t.name.toList ∈ w.catalogue.schemas
  once : ∀ ev ∈ past, ∀ s, Created ev s → s ∈ w.catalogue.schemas →
    ∃! t, t ∈ w.catalogue.tenants ∧ t.name.toList = s
  placed : ∀ o ∈ w.catalogue.organizations, ∃ t ∈ w.catalogue.tenants, t.id = o.tenant ∧
    t.name.toList ∈ w.catalogue.schemas

/-- The requests of a run: every creation among them succeeds. -/
def Succeeds (server : Server) (cases : CaseMapping) (w : TenancyWorld) : TenancyRequest → Prop
  | .createOrganization dto => (serve server cases (.createOrganization dto) w).1 = .ok ()
  | .deleteSchema _ => True

/-- A creation whose name stands for itself between quotes, or a deletion that is refused, fails, or
names the schema of no tenant. -/
def Harmless (cases : CaseMapping) (w : TenancyWorld) : TenancyRequest → Prop
  | .createOrganization dto => Quotable (nameOf w.tape dto).toList
  | .deleteSchema n => cases.toLowerCase n = "public" ∨ (w.tape 0).fault = true ∨
      (Quotable n.toList ∧ '\'' ∉ n.toList ∧ ¬ dollars <:+: n.toList ∧ n ≠ "public" ∧
        ((w.tape 1).fault = true ∨ n ∉ w.catalogue.tenants.map (·.name)))

variable {server : Server} {cases : CaseMapping} {db : Catalogue} {tape : Nat → Draw}
  {w' : TenancyWorld}

theorem serve_createOrganization {dto : CreateOrganizationDto}
    (hName : Quotable (nameOf tape dto).toList)
    (hServe : serve server cases (.createOrganization dto) ⟨db, tape⟩ = (.ok (), w')) :
    ∃ row o, (nameOf tape dto).toList ∉ db.schemas ∧ row.name = nameOf tape dto ∧
      o.tenant = row.id ∧ w'.catalogue.tenants = db.tenants ++ [row] ∧
      w'.catalogue.organizations = db.organizations ++ [o] ∧
      w'.catalogue.schemas = db.schemas ++ [row.name.toList] := by
  obtain ⟨r, hRun, hOk⟩ := run_map_cases _ hServe
  have hAnswer : ∃ answer, r = .ok answer := by
    cases r with
    | error e => cases hOk
    | ok answer => exact ⟨answer, rfl⟩
  obtain ⟨_, _, e, rfl⟩ | ⟨_, row, hAdmits, hRow, r', w₁, hSetUp, hInsert⟩ :=
    createOrganization_cases hRun
  · obtain ⟨_, hAnswer⟩ := hAnswer
    cases hAnswer
  have hIdentifies : Identifies (nameOf tape dto) (nameOf tape dto).toList :=
    SqlTexts.createdSchema_iff.mpr hName
  have hGoes := (request_ok hAdmits hRow hIdentifies hSetUp hInsert).mp hAnswer
  have hNew : (nameOf tape dto).toList ∉ db.schemas := ident_eq hName.short ▸ hGoes.newSchema
  obtain ⟨_, hRowName⟩ := tenantRow_name rfl hRow
  obtain ⟨rfl, rfl⟩ := setUp_of_goesThrough hAdmits hIdentifies hGoes hSetUp
  obtain ⟨o, hOrganization, _, _, _, rfl⟩ | ⟨_, ⟨e, rfl⟩, _⟩ := insertion_cases hInsert
  · obtain ⟨_, _, rfl⟩ := Option.map_eq_some_iff.mp ((organizationRow_eq _ _).symm.trans hOrganization)
    have hSchemas : db.schemasWith (nameOf tape dto).toList = db.schemas ++ [row.name.toList] := by
      rw [Catalogue.schemasWith, if_neg hNew, hRowName]
    exact ⟨row, _, hNew, hRowName, rfl, rfl, rfl, hSchemas⟩
  · obtain ⟨_, hAnswer⟩ := hAnswer
    cases hAnswer

theorem dropSchema_cases {s : Text} {db' : Catalogue} (h : db.dropSchema s = some db') :
    db' = { db with schemas := db.schemas.filter (· ≠ s) } := by
  unfold Catalogue.dropSchema at h
  split at h <;> cases h
  rfl

/-- What a deletion that keeps to its schema can do. -/
theorem deleteSchemaClient_cases {n : String} {r : Except Exception (Option String)}
    (hNames : cases.toLowerCase n = "public" ∨ (tape 0).fault = true ∨
      (Quotable n.toList ∧ '\'' ∉ n.toList ∧ ¬ dollars <:+: n.toList ∧ n ≠ "public"))
    (hRun : run (TenancyWorld.exec server) (TenantService.deleteSchemaClient cases n) ⟨db, tape⟩ =
      (r, w')) :
    w'.catalogue = db ∨ ((tape 1).fault = false ∧ cases.toLowerCase n ≠ "public" ∧
      (tape 0).fault = false ∧
        w'.catalogue = { db with schemas := db.schemas.filter (· ≠ n.toList) }) := by
  obtain ⟨r', hTry, rfl⟩ := run_default_cases _ hRun
  split at hTry
  · cases hTry
    exact .inl rfl
  rename_i hRefused
  obtain ⟨e, rfl, hTables⟩ | ⟨_, _, hTables, hTry⟩ := run_bind_cases _ hTry
  · obtain ⟨_, _, _, _, hOk, _⟩ | ⟨_, _, rfl⟩ := TenancyWorld.exec_cases (exec_of_run hTables)
    · cases hOk
    · exact .inl rfl
  obtain ⟨_, _, h0, hEffect, _, rfl⟩ | ⟨_, hError, _⟩ :=
    TenancyWorld.exec_cases (exec_of_run hTables)
  · obtain hLower | hFault | ⟨hQuotable, hLiteral, hDollars, hPublic⟩ := hNames
    · exact absurd hLower hRefused
    · cases h0.symm.trans hFault
    have hPublic' : n.toList ≠ "public".toList := fun h => hPublic (String.toList_inj.mp h)
    obtain ⟨_, hQuery, hNext⟩ := Option.map_eq_some_iff.mp hEffect
    rw [Catalogue.query_dropTables hQuotable hLiteral hDollars hPublic'] at hQuery
    cases hQuery
    cases hNext
    obtain ⟨e, rfl, hSchema⟩ | ⟨_, _, hSchema, hPure⟩ := run_bind_cases _ hTry
    · obtain ⟨_, _, _, _, hOk, _⟩ | ⟨_, _, rfl⟩ := TenancyWorld.exec_cases (exec_of_run hSchema)
      · cases hOk
      · exact .inl rfl
    · cases hPure
      obtain ⟨_, _, h1, hEffect, _, rfl⟩ | ⟨_, hError, _⟩ :=
        TenancyWorld.exec_cases (exec_of_run hSchema)
      · obtain ⟨_, hQuery, hNext⟩ := Option.map_eq_some_iff.mp hEffect
        rw [Catalogue.query_dropSchema hQuotable hPublic'] at hQuery
        cases hNext
        exact .inr ⟨h1, hRefused, h0, dropSchema_cases hQuery⟩
      · cases hError
  · cases hError

/-- A harmless deletion takes no schema of a tenant. -/
theorem serve_deleteSchema {n : String} {r : Except Exception Unit}
    (hHarmless : Harmless cases ⟨db, tape⟩ (.deleteSchema n))
    (hServe : serve server cases (.deleteSchema n) ⟨db, tape⟩ = (r, w')) :
    w'.catalogue.tenants = db.tenants ∧ w'.catalogue.organizations = db.organizations ∧
      (∀ s ∈ w'.catalogue.schemas, s ∈ db.schemas) ∧
      ∀ t ∈ db.tenants, t.name.toList ∈ db.schemas → t.name.toList ∈ w'.catalogue.schemas := by
  obtain ⟨_, hController, _⟩ := run_map_cases _ hServe
  obtain ⟨_, hClient, _⟩ := run_map_cases _ hController
  have hNames := hHarmless.imp_right (Or.imp_right fun h => (⟨h.1, h.2.1, h.2.2.1, h.2.2.2.1⟩ :
    Quotable n.toList ∧ '\'' ∉ n.toList ∧ ¬ dollars <:+: n.toList ∧ n ≠ "public"))
  obtain hSame | ⟨h1, hRefused, h0, hDropped⟩ := deleteSchemaClient_cases hNames hClient
  · rw [hSame]
    exact ⟨rfl, rfl, fun _ hs => hs, fun _ _ hs => hs⟩
  · have hOther : n ∉ db.tenants.map (·.name) := by
      obtain hLower | hFault | ⟨_, _, _, _, hFault | hOther⟩ := hHarmless
      · exact absurd hLower hRefused
      · cases h0.symm.trans hFault
      · cases h1.symm.trans hFault
      · exact hOther
    rw [hDropped]
    refine ⟨rfl, rfl, fun s hs => (List.mem_filter.mp hs).1, fun t ht hs => ?_⟩
    refine List.mem_filter.mpr ⟨hs, decide_eq_true fun h => hOther ?_⟩
    rw [← String.toList_inj.mp h]
    exact List.mem_map_of_mem ht

/-- A deletion that nothing stops takes the schema, and no row. -/
theorem serve_deleteSchema_ok {n : String} (hRefused : cases.toLowerCase n ≠ "public")
    (hQuotable : Quotable n.toList) (hLiteral : '\'' ∉ n.toList) (hDollars : ¬ dollars <:+: n.toList)
    (hPublic : n.toList ≠ "public".toList) (hAllowed : ¬ Catalogue.reserved n.toList)
    (h0 : (tape 0).fault = false) (h1 : (tape 1).fault = false) :
    serve server cases (.deleteSchema n) ⟨db, tape⟩ = (.ok (),
      ⟨{ db with schemas := db.schemas.filter (· ≠ n.toList) }, fun i => tape (i + 2)⟩) := by
  refine (run_bind_ok _).mpr ⟨_, _, (run_bind_ok _).mpr ⟨some n, _, ?_, rfl⟩, rfl⟩
  apply run_catching_of_ok _
  rw [if_neg hRefused]
  have hDrop : db.query server (TenantService.dropSchema n) = some _ :=
    (Catalogue.query_dropSchema hQuotable hPublic).trans (if_neg hAllowed)
  refine run_query_ok.mpr ⟨h0, db, Catalogue.query_dropTables hQuotable hLiteral hDollars hPublic, ?_⟩
  exact run_query_ok.mpr ⟨h1, _, hDrop, rfl⟩

theorem once_of_exists {s : Text} (h : ∃ t ∈ db.tenants, t.name.toList = s) :
    ∃! t, t ∈ db.tenants ∧ t.name.toList = s := by
  obtain ⟨t, ht, rfl⟩ := h
  refine ⟨t, ⟨ht, rfl⟩, fun t' ht' => ?_⟩
  exact List.inj_on_of_nodup_map db.nodupTenantName ht'.1 ht (String.toList_inj.mp ht'.2)

/-- The organization's tenant is a row, whose schema exists if every row's does. -/
theorem placed_of_named (h : ∀ t ∈ db.tenants, t.name.toList ∈ db.schemas) :
    ∀ o ∈ db.organizations, ∃ t ∈ db.tenants, t.id = o.tenant ∧ t.name.toList ∈ db.schemas := by
  intro o ho
  obtain ⟨t, ht, hId⟩ := List.mem_map.mp (db.tenantOf o ho)
  exact ⟨t, ht, hId, h t ht⟩

theorem consistent_create {past : List TenancyEvent} {dto : CreateOrganizationDto} {w : TenancyWorld}
    (hPast : Consistent past w)
    (hName : Quotable (nameOf w.tape dto).toList)
    (hOk : (serve server cases (.createOrganization dto) w).1 = .ok ()) :
    Consistent (serveEvent (serve server cases) (.createOrganization dto) w :: past)
      (serve server cases (.createOrganization dto) w).2 := by
  obtain ⟨db, tape⟩ := w
  obtain ⟨row, o, hNew, _, _, hTenants, _, hSchemas⟩ :=
    @serve_createOrganization server cases db tape _ dto hName (Prod.ext hOk rfl)
  have hNamed : ∀ t ∈ (serve server cases (.createOrganization dto) ⟨db, tape⟩).2.catalogue.tenants,
      t.name.toList ∈ (serve server cases (.createOrganization dto) ⟨db, tape⟩).2.catalogue.schemas := by
    rw [hTenants, hSchemas]
    intro t ht
    obtain ht | ht := List.mem_append.mp ht
    · exact List.mem_append_left _ (hPast.named t ht)
    · rw [List.mem_singleton.mp ht]
      exact List.mem_append_right _ (List.mem_singleton_self _)
  refine ⟨hNamed, ?_, placed_of_named hNamed⟩
  intro ev hEv s hCreated hStill
  apply once_of_exists
  rw [hSchemas] at hStill
  rw [hTenants]
  obtain hOld | hRow := List.mem_append.mp hStill
  · obtain rfl | hEv := List.mem_cons.mp hEv
    · exact absurd hOld hCreated.2.2
    · obtain ⟨t, ⟨ht, hName⟩, _⟩ := hPast.once ev hEv s hCreated hOld
      exact ⟨t, List.mem_append_left _ ht, hName⟩
  · exact ⟨row, List.mem_append_right _ (List.mem_singleton_self _), (List.mem_singleton.mp hRow).symm⟩

theorem consistent_delete {past : List TenancyEvent} {n : String} {w : TenancyWorld}
    (hPast : Consistent past w) (hHarmless : Harmless cases w (.deleteSchema n)) :
    Consistent (serveEvent (serve server cases) (.deleteSchema n) w :: past)
      (serve server cases (.deleteSchema n) w).2 := by
  obtain ⟨db, tape⟩ := w
  generalize hServe : serve server cases (.deleteSchema n) ⟨db, tape⟩ = next
  obtain ⟨r, w'⟩ := next
  obtain ⟨hTenants, hOrganizations, hSchemas, hKept⟩ := serve_deleteSchema hHarmless hServe
  have hNamed : ∀ t ∈ w'.catalogue.tenants, t.name.toList ∈ w'.catalogue.schemas := by
    rw [hTenants]
    exact fun t ht => hKept t ht (hPast.named t ht)
  refine ⟨hNamed, ?_, placed_of_named hNamed⟩
  intro ev hEv s hCreated hStill
  apply once_of_exists
  obtain rfl | hEv := List.mem_cons.mp hEv
  · obtain ⟨⟨_, hRequest⟩, _⟩ := hCreated
    cases hRequest
  · obtain ⟨t, ⟨ht, hName⟩, _⟩ := hPast.once ev hEv s hCreated (hSchemas s hStill)
    rw [hTenants]
    exact ⟨t, ht, hName⟩

/-- Once the schema of a tenant is gone its row names nothing. -/
theorem not_consistent_of_deletion {past : List TenancyEvent} {n : String} {w : TenancyWorld}
    (hRefused : cases.toLowerCase n ≠ "public") (hQuotable : Quotable n.toList)
    (hLiteral : '\'' ∉ n.toList) (hDollars : ¬ dollars <:+: n.toList)
    (hPublic : n.toList ≠ "public".toList) (hAllowed : ¬ Catalogue.reserved n.toList)
    (h0 : (w.tape 0).fault = false) (h1 : (w.tape 1).fault = false)
    (hTenant : n ∈ w.catalogue.tenants.map (·.name)) :
    ¬ Consistent past (serve server cases (.deleteSchema n) w).2 := by
  intro hConsistent
  obtain ⟨t, ht, rfl⟩ := List.mem_map.mp hTenant
  obtain ⟨db, tape⟩ := w
  have hNamed := hConsistent.named
  rw [serve_deleteSchema_ok hRefused hQuotable hLiteral hDollars hPublic hAllowed h0 h1] at hNamed
  simpa using (List.mem_filter.mp (hNamed t ht)).2

end Consistency

open Consistency TenancyRequest in
/-- Rows and schemas belong together after every request of a run of harmless ones. -/
theorem tenants_consistent (server : Server) (cases : CaseMapping) {start : TenancyWorld}
    (hStart : Consistent [] start) {rs : List TenancyRequest}
    (hSteps : Steps (serve server cases) start
      (fun _ w q => Succeeds server cases w q ∧ Harmless cases w q) rs) :
    Consistent (history (serve server cases) start rs) (reach (serve server cases) start rs) := by
  refine history_induction hStart ?_ hSteps
  rintro past w (dto | n) hPast ⟨hSucceeds, hHarmless⟩
  · exact consistent_create hPast hHarmless hSucceeds
  · exact consistent_delete hPast hHarmless

namespace Sample

theorem consistent_start (tape : Nat → Draw) : Consistency.Consistent [] ⟨catalogue, tape⟩ where
  named := fun _ ht => absurd ht List.not_mem_nil
  once := fun _ hev => absurd hev List.not_mem_nil
  placed := fun _ ho => absurd ho List.not_mem_nil

def creation : TenancyRequest := .createOrganization organizationDto

def schemaName : String := "acme_123e4567-e89b-42d3-a456-426614174000"

open TenancyRequest in
theorem creation_succeeds : (serve server ⟨id, id⟩ creation (tenancyWorld 100)).1 = .ok () := by
  decide +kernel

end Sample

/-- Two creations, and between them the deletion of a schema that is no tenant's. -/
def Sample.harmlessRequests : List TenancyRequest :=
  [.createOrganization { Sample.organizationDto with name := "globex" }, .deleteSchema "old",
    Sample.creation]

open Consistency TenancyRequest in
theorem tenants_consistent_sample :
    Consistent (history (serve Sample.server ⟨id, id⟩) (Sample.twoTenants 10) Sample.harmlessRequests)
      (reach (serve Sample.server ⟨id, id⟩) (Sample.twoTenants 10) Sample.harmlessRequests) := by
  have hSecond : Succeeds Sample.server ⟨id, id⟩
      (reach (serve Sample.server ⟨id, id⟩) (Sample.twoTenants 10) [.deleteSchema "old", Sample.creation])
      (.createOrganization { Sample.organizationDto with name := "globex" }) := by
    unfold Succeeds
    decide +kernel
  have hFirst : Succeeds Sample.server ⟨id, id⟩ (Sample.twoTenants 10) Sample.creation := by
    unfold Sample.creation Succeeds
    decide +kernel
  refine tenants_consistent Sample.server ⟨id, id⟩ (Sample.consistent_start _)
    ⟨⟨hSecond, ?_⟩, ⟨trivial, .inr (.inr ?_)⟩, ⟨hFirst, ?_⟩, trivial⟩
  · unfold Harmless
    decide +kernel
  · decide +kernel
  · unfold Sample.creation Harmless
    decide +kernel

open Consistency TenancyRequest in
/-- A tenant's schema is deleted; its row stays. -/
theorem tenants_not_consistent : ¬ ∀ (server : Server) (cases : CaseMapping) (start : TenancyWorld)
    (rs : List TenancyRequest), Consistent [] start →
    Steps (serve server cases) start (fun _ w q => Succeeds server cases w q) rs →
    Consistent (history (serve server cases) start rs) (reach (serve server cases) start rs) := by
  intro h
  have hConsistent := h Sample.server ⟨id, id⟩ (Sample.tenancyWorld 100)
    [.deleteSchema Sample.schemaName, Sample.creation]
    (Sample.consistent_start _) ⟨trivial, Sample.creation_succeeds, trivial⟩
  rw [reach, reach, reach] at hConsistent
  have hAfter : Sample.schemaName ∈
      (serve Sample.server ⟨id, id⟩ Sample.creation (Sample.tenancyWorld 100)).2.catalogue.tenants.map
        (·.name) ∧
      ∀ n < 2, ((serve Sample.server ⟨id, id⟩ Sample.creation (Sample.tenancyWorld 100)).2.tape
        n).fault = false := by
    decide +kernel
  generalize (serve Sample.server ⟨id, id⟩ Sample.creation (Sample.tenancyWorld 100)).2 = w
    at hConsistent hAfter
  obtain ⟨hTenant, hCalm⟩ := hAfter
  have hName : Quotable Sample.schemaName.toList ∧ '\'' ∉ Sample.schemaName.toList ∧
      ¬ dollars <:+: Sample.schemaName.toList ∧ Sample.schemaName.toList ≠ "public".toList := by
    decide +kernel
  exact not_consistent_of_deletion (by decide +kernel) hName.1 hName.2.1 hName.2.2.1 hName.2.2.2
    (by decide +kernel) (hCalm 0 (by decide)) (hCalm 1 (by decide)) hTenant hConsistent

end Manejaplus
