import Manejaplus.Effect.Performed
import Manejaplus.Tenancy.Provisioning

/-! # Names that are cut off, and the check in front of their creation

The tenant's name ends in a UUID. A long name loses it when the schema is
created, and so it does as the parameter of the check before.
-/
namespace Manejaplus
open Effect Prog Sql
set_option autoImplicit false

namespace LongNames
open Provisioning TenancyWorld

def serve (server : Server) (dto : CreateOrganizationDto) (w : TenancyWorld) :
    Except Exception (Option String × TenantModel) × TenancyWorld :=
  run (exec server) (TenantService.createTenantClient dto.model) w

abbrev CreationEvent :=
  Event TenancyWorld CreateOrganizationDto (Except Exception (Option String × TenantModel))

abbrev Past := List (Performed tenancy Exception TenancyWorld)

def operations (server : Server) (ev : CreationEvent) : Past :=
  performed (exec server) (TenantService.createTenantClient ev.request.model) ev.before

/-- The check finds nothing only where there is nothing, and entities are synchronized only into a
schema that has just been created. -/
structure Guarded (past : Past) : Prop where
  checked : ∀ before n after, ⟨before, .countSchemata n, .ok 0, after⟩ ∈ past →
    ident n ∉ before.catalogue.schemas
  created : ∀ s ∈ past, ∀ n, s.op = .synchronize n → ∃ c, [c, s].Sublist past ∧
    c.op = .query (TenantService.createSchema n) ∧ ident n ∉ c.before.catalogue.schemas ∧
      ident n ∈ c.after.catalogue.schemas

def Synchronizes (server : Server) (ev : CreationEvent) (x : Text) : Prop :=
  ∃ s ∈ operations server ev, ∃ n, s.op = .synchronize n ∧ x = ident n

def storedName (ev : CreationEvent) : String := nameOf ev.before.tape ev.request

/-- No two calls synchronize into one schema, and none into a schema that was there before. -/
structure OwnSchemas (server : Server) (past : List CreationEvent) : Prop where
  guarded : ∀ ev ∈ past, Guarded (operations server ev)
  apart : past.Pairwise fun ev ev' => ∀ x, Synchronizes server ev x → ¬ Synchronizes server ev' x

section Steps
variable {server : Server} {db : Catalogue} {tape : Nat → Draw} {name : String}
  {created : OrganizationObject}

/-- The operations behind a `CREATE SCHEMA` that has not failed. -/
def Follows (name : String) (o : TenancyOp) : Prop :=
  o ∈ [.query (TenantService.setSearchPath name), .initializeClient name, .synchronize name,
    .destroy name, .query (TenantService.setSearchPath "public")]

theorem setUpSchema_eq (name : String) (created : OrganizationObject) :
    ∃ rest : Tenancy (Option String), rest.Uses (Follows name) ∧
      TenantService.setUpSchema name created =
        (TenantService.checkSchemaToCreateExists name).bind fun schemaExists =>
          if schemaExists then
            Tenancy.throw (.error ("The schema \"" ++ name ++ "\" already exists"))
          else (Tenancy.perform (.query (TenantService.createSchema name))).bind fun _ => rest := by
  refine ⟨_, ?_, rfl⟩
  apply uses_bind (uses_perform (by simp [Follows]))
  intro _
  apply uses_bind (uses_perform (by simp [Follows]))
  intro _
  apply uses_bind (uses_perform (by simp [Follows]))
  intro _
  apply uses_bind (uses_perform (by simp [Follows]))
  intro _
  apply uses_bind (uses_perform (by simp [Follows]))
  intro _
  cases created.id <;> trivial

theorem performed_check (h : Handler tenancy Exception TenancyWorld) (w : TenancyWorld) :
    performed h (TenantService.checkSchemaToCreateExists name) w = [once h (.countSchemata name) w] :=
  (performed_map h _ _ w).trans (performed_perform h _ w)

theorem run_check {h : Handler tenancy Exception TenancyWorld} {w w₁ : TenancyWorld}
    {r : Except Exception Nat} (hCount : h (.countSchemata name) w = (r, w₁)) :
    run h (TenantService.checkSchemaToCreateExists name) w =
      (r.map fun count => decide (count > 0), w₁) := by
  rw [TenantService.checkSchemaToCreateExists, bind_eq, run_bind, Tenancy.perform, run_perform, hCount]
  cases r <;> rfl

/-- What comes after a statement is performed only if the statement succeeds. -/
theorem performed_query (h : Handler tenancy Exception TenancyWorld) {rest : Tenancy (Option String)}
    (hUses : rest.Uses (Follows name)) (sql : String) (w : TenancyWorld) : ∃ later,
      performed h ((Tenancy.perform (.query sql)).bind fun _ => rest) w =
        once h (.query sql) w :: later ∧
      (later ≠ [] → (h (.query sql) w).1 = .ok ()) ∧ ∀ s ∈ later, Follows name s.op := by
  have hOnce := performed_perform (S := tenancy) h (.query sql) w
  have hRun := run_perform (S := tenancy) h (.query sql) w
  match hQuery : h (.query sql) w with
  | (.error e, w₁) =>
    have hStop := performed_bind_of_error h (f := fun _ => rest) (hRun.trans hQuery)
    exact ⟨[], hStop.trans hOnce, fun hNe => absurd rfl hNe, List.forall_mem_nil _⟩
  | (.ok a, w₁) =>
    have hGo := performed_bind_of_ok h (f := fun _ => rest) (hRun.trans hQuery)
    rw [hOnce] at hGo
    exact ⟨performed h rest w₁, hGo, fun _ => rfl, op_of_performed h hUses w₁⟩

/-- The schema is created once the check has found nothing, and the rest comes after that. -/
theorem performed_setUpSchema (h : Handler tenancy Exception TenancyWorld) (w : TenancyWorld) :
    performed h (TenantService.setUpSchema name created) w = [once h (.countSchemata name) w] ∧
        (h (.countSchemata name) w).1 ≠ .ok 0 ∨
      (h (.countSchemata name) w).1 = .ok 0 ∧ ∃ later,
        performed h (TenantService.setUpSchema name created) w = once h (.countSchemata name) w ::
          once h (.query (TenantService.createSchema name)) (h (.countSchemata name) w).2 :: later ∧
        (later ≠ [] → (h (.query (TenantService.createSchema name))
          (h (.countSchemata name) w).2).1 = .ok ()) ∧
        ∀ s ∈ later, Follows name s.op := by
  obtain ⟨rest, hUses, hProgram⟩ := setUpSchema_eq name created
  rw [hProgram, ← performed_check]
  match hCount : h (.countSchemata name) w with
  | (.error e, w₁) => exact .inl ⟨performed_bind_of_error h (run_check hCount), nofun⟩
  | (.ok (count + 1), w₁) =>
    exact .inl ⟨(performed_bind_of_ok h (run_check hCount)).trans (List.append_nil _), nofun⟩
  | (.ok 0, w₁) =>
    obtain ⟨later, hLater, hCreated, hFollows⟩ := performed_query h hUses _ w₁
    refine .inr ⟨rfl, later, ?_, hCreated, hFollows⟩
    rw [performed_bind_of_ok h (run_check hCount), performed_check]
    exact congrArg (List.cons _) hLater

theorem finds_nothing (h : (exec server (.countSchemata name) ⟨db, tape⟩).1 = .ok 0) :
    ident name ∉ db.schemas := by
  generalize hExec : exec server (.countSchemata name) ⟨db, tape⟩ = next at h
  obtain ⟨r, w'⟩ := next
  cases h
  obtain ⟨_, _, hEffect, _⟩ := exec_ok.mp hExec
  have hNone : (db.schemas.filter (· = ident name)).length = 0 :=
    congrArg Prod.fst (Option.some.inj hEffect)
  exact fun hIn => absurd hNone (Catalogue.count_pos.mpr hIn).ne'

/-- The check leaves the database as it is. -/
theorem catalogue_check : (exec server (.countSchemata name) ⟨db, tape⟩).2.catalogue = db := by
  rw [exec]
  cases (tape 0).fault <;> rfl

/-- A `CREATE SCHEMA` that has not failed leaves the schema there. -/
theorem schema_created {w : TenancyWorld} {x : Text} (hName : Identifies name x)
    (h : (exec server (.query (TenantService.createSchema name)) w).1 = .ok ()) :
    x ∈ (exec server (.query (TenantService.createSchema name)) w).2.catalogue.schemas := by
  obtain ⟨db, tape⟩ := w
  generalize hExec : exec server (.query (TenantService.createSchema name)) ⟨db, tape⟩ = next at h ⊢
  obtain ⟨r, w'⟩ := next
  cases h
  obtain ⟨_, db', hEffect, rfl⟩ := exec_ok.mp hExec
  obtain ⟨db₁, hQuery, hNext⟩ := Option.map_eq_some_iff.mp hEffect
  cases hNext
  rw [Catalogue.query_createSchema hName] at hQuery
  obtain ⟨_, rfl⟩ := Catalogue.createSchema_eq_some.mp hQuery
  exact Catalogue.mem_schemasWith

theorem not_follows_count (n : String) : ¬ Follows name (.countSchemata n) := by
  simp [Follows]

theorem follows_synchronize {n : String} (h : Follows name (.synchronize n)) : n = name := by
  simpa [Follows] using h

theorem checks_once {h : Handler tenancy Exception TenancyWorld} {w before after : TenancyWorld}
    {n : String} (hSame : ⟨before, .countSchemata n, .ok 0, after⟩ = once h (.countSchemata name) w) :
    n = name ∧ before = w ∧ (h (.countSchemata name) w).1 = .ok 0 := by
  rw [once, Performed.mk.injEq] at hSame
  obtain ⟨rfl, hOp, hAnswer, _⟩ := hSame
  cases hOp
  exact ⟨rfl, rfl, (eq_of_heq hAnswer).symm⟩

theorem guarded_setUpSchema (hName : Identifies name (ident name)) :
    Guarded (performed (exec server) (TenantService.setUpSchema name created) ⟨db, tape⟩) := by
  obtain ⟨hPast, hFound⟩ | ⟨hFound, later, hPast, hCreated, hFollows⟩ :=
    @performed_setUpSchema name created (exec server) ⟨db, tape⟩ <;> rw [hPast]
  · constructor
    · intro before n after hIn
      obtain ⟨_, _, hOk⟩ := checks_once (List.mem_singleton.mp hIn)
      exact absurd hOk hFound
    · intro s hs n hOp
      rw [List.mem_singleton.mp hs] at hOp
      cases hOp
  · have hNew : ident name ∉ db.schemas := finds_nothing hFound
    constructor
    · intro before n after hIn
      obtain hCheck | hIn := List.mem_cons.mp hIn
      · obtain ⟨rfl, rfl, _⟩ := checks_once hCheck
        exact hNew
      · obtain hCreate | hLater := List.mem_cons.mp hIn
        · cases congrArg Performed.op hCreate
        · exact absurd (hFollows _ hLater) (not_follows_count n)
    · intro s hs n hOp
      obtain rfl | hs := List.mem_cons.mp hs
      · cases hOp
      obtain rfl | hLater := List.mem_cons.mp hs
      · cases hOp
      obtain rfl := follows_synchronize (hOp ▸ hFollows s hLater)
      refine ⟨_, ((List.singleton_sublist.mpr hLater).cons_cons _).cons _, rfl, ?_, ?_⟩
      · rw [once, catalogue_check]
        exact hNew
      · exact schema_created hName (hCreated (List.ne_nil_of_mem hLater))

end Steps

section Calls
variable {server : Server} {db : Catalogue} {tape : Nat → Draw} {dto : CreateOrganizationDto}

/-- The operations before the schema is looked for. -/
def First (o : TenancyOp) : Prop := o = .randomUuid ∨ ∃ e, o = .saveTenant e

/-- The row of the tenant is refused, or the schema is set up after its insertion. -/
theorem createSchemaOf_performed (hUUID : (tape 0).fault = false) :
    ∃ first : Past, (∀ s ∈ first, First s.op) ∧
      (TenantRefused server db tape dto ∧
          performed (exec server) (TenantService.createSchemaOf (modelOf tape dto))
            ⟨db, fun n => tape (n + 1)⟩ = first ∧
          (run (S := tenancy) (exec server) (TenantService.createSchemaOf (modelOf tape dto))
            ⟨db, fun n => tape (n + 1)⟩).2.catalogue = db ∨
        ¬ TenantRefused server db tape dto ∧ ∃ row, ∃ h : db.AdmitsTenant row, ∃ created,
          performed (exec server) (TenantService.createSchemaOf (modelOf tape dto))
            ⟨db, fun n => tape (n + 1)⟩ = first ++ performed (exec server)
              (TenantService.setUpSchema (nameOf tape dto) created)
              ⟨db.addTenant row h, fun n => tape (n + 2)⟩ ∧
          (run (S := tenancy) (exec server) (TenantService.createSchemaOf (modelOf tape dto))
            ⟨db, fun n => tape (n + 1)⟩).2 = (run (S := tenancy) (exec server)
              (TenantService.setUpSchema (nameOf tape dto) created)
              ⟨db.addTenant row h, fun n => tape (n + 2)⟩).2) := by
  have hUses : (TenantRepositoryImpl.createTenant (modelOf tape dto)).Uses First :=
    uses_perform (.inr ⟨_, rfl⟩)
  generalize hInsert : run (S := tenancy) (exec server)
    (TenantRepositoryImpl.createTenant (modelOf tape dto)) ⟨db, fun n => tape (n + 1)⟩ = next
  obtain ⟨r, w₁⟩ := next
  refine ⟨_, op_of_performed (exec server) hUses ⟨db, fun n => tape (n + 1)⟩, ?_⟩
  obtain ⟨hRefused, ⟨e, rfl⟩, rfl⟩ | ⟨hFault, row, hAdmits, hRow, rfl, rfl⟩ :=
    saveTenant_cases (exec_of_run hInsert)
  · refine .inl ⟨.inr hRefused, performed_bind_of_error _ hInsert, ?_⟩
    rw [TenantService.createSchemaOf, bind_eq, run_bind, OrganizationObject.mapClass_default, hInsert]
  · refine .inr ⟨?_, row, hAdmits, _, performed_bind_of_ok _ hInsert, ?_⟩
    · rintro (hRefused | hRefused | hRefused)
      · cases hUUID.symm.trans hRefused
      · cases hFault.symm.trans hRefused
      · exact hRefused row hRow hAdmits
    · rw [TenantService.createSchemaOf, bind_eq, run_bind, OrganizationObject.mapClass_default, hInsert]
      rfl

/-- The tenant service looks for the schema once it has inserted the row of the tenant. -/
theorem createTenantClient_performed (server : Server) (db : Catalogue) (tape : Nat → Draw)
    (dto : CreateOrganizationDto) : ∃ first : Past, (∀ s ∈ first, First s.op) ∧
      (TenantRefused server db tape dto ∧
          performed (exec server) (TenantService.createTenantClient dto.model) ⟨db, tape⟩ =
            first ∧ (serve server dto ⟨db, tape⟩).2.catalogue = db ∨
        ¬ TenantRefused server db tape dto ∧ ∃ row, ∃ h : db.AdmitsTenant row, ∃ created,
          performed (exec server) (TenantService.createTenantClient dto.model) ⟨db, tape⟩ =
              first ++ performed (exec server)
                (TenantService.setUpSchema (nameOf tape dto) created)
                ⟨db.addTenant row h, fun n => tape (n + 2)⟩ ∧
            (serve server dto ⟨db, tape⟩).2 = (run (S := tenancy) (exec server)
              (TenantService.setUpSchema (nameOf tape dto) created)
              ⟨db.addTenant row h, fun n => tape (n + 2)⟩).2) := by
  have hUses : UUIDEncoder.Uses First :=
    uses_catching (uses_perform (.inl rfl)) fun _ => trivial
  have hFirst := op_of_performed (exec server) hUses ⟨db, tape⟩
  generalize hRun : run (exec server) UUIDEncoder ⟨db, tape⟩ = next
  obtain ⟨r, w₁⟩ := next
  have hAttempt : run (exec server) UUIDEncoder.attempt ⟨db, tape⟩ = (.ok r, w₁) := by
    rw [run_attempt, hRun]
  rw [serve, TenantService.createTenantClient, bind_eq, performed_bind_of_ok _ hAttempt,
    performed_attempt, run_bind, hAttempt]
  obtain ⟨rfl, ⟨h0, rfl⟩ | ⟨h0, e, rfl⟩⟩ := run_UUIDEncoder hRun
  · obtain ⟨first, hInsert, hCases⟩ := @createSchemaOf_performed server db tape dto h0
    refine ⟨_, List.forall_mem_append.mpr ⟨hFirst, hInsert⟩, ?_⟩
    let client := (TenantService.createSchemaOf (modelOf tape dto)).catching fun _ => .pure none
    have hPast : performed (exec server)
        (client.bind fun tenant => .pure (tenant, modelOf tape dto)) ⟨db, fun n => tape (n + 1)⟩ =
        performed (exec server) (TenantService.createSchemaOf (modelOf tape dto))
          ⟨db, fun n => tape (n + 1)⟩ :=
      (performed_map _ _ _ _).trans (performed_catching _ (fun _ _ => rfl) _)
    have hAfter : (run (exec server)
        (client.bind fun tenant => .pure (tenant, modelOf tape dto)) ⟨db, fun n => tape (n + 1)⟩).2 =
        (run (exec server) (TenantService.createSchemaOf (modelOf tape dto))
          ⟨db, fun n => tape (n + 1)⟩).2 :=
      (run_map_snd _ _ _ _).trans (run_default_snd _ _ _ _)
    obtain ⟨hRefused, hNone, hSame⟩ | ⟨hInserted, row, hAdmits, created, hSome, hEnd⟩ := hCases
    · refine .inl ⟨hRefused, congrArg _ (hPast.trans hNone), ?_⟩
      exact (congrArg TenancyWorld.catalogue hAfter).trans hSame
    · refine .inr ⟨hInserted, row, hAdmits, created, ?_, hAfter.trans hEnd⟩
      rw [List.append_assoc]
      exact congrArg _ (hPast.trans hSome)
  · exact ⟨_, hFirst, .inl ⟨.inl h0, List.append_nil _, rfl⟩⟩

theorem guarded_append {first past : Past} (hFirst : ∀ s ∈ first, First s.op) :
    Guarded (first ++ past) ↔ Guarded past := by
  have hOther : ∀ s ∈ first, ∀ sql, s.op ≠ .query sql := by
    intro s hs sql hOp
    obtain hOp' | ⟨e, hOp'⟩ := hFirst s hs <;> cases hOp'.symm.trans hOp
  constructor
  · intro hGuarded
    refine ⟨fun before n after hIn =>
      hGuarded.checked before n after (List.mem_append_right first hIn), fun s hs n hOp => ?_⟩
    obtain ⟨c, hBefore, hCreate, hNew⟩ := hGuarded.created s (List.mem_append_right first hs) n hOp
    refine ⟨c, ?_, hCreate, hNew⟩
    obtain ⟨l₁, l₂, hSplit, hl₁, hl₂⟩ := List.sublist_append_iff.mp hBefore
    cases l₁ with
    | nil => rwa [hSplit]
    | cons c' l₁ =>
      obtain ⟨rfl, _⟩ := List.cons.inj hSplit
      exact absurd hCreate (hOther _ (hl₁.subset List.mem_cons_self) _)
  · intro hGuarded
    constructor
    · intro before n after hIn
      obtain hIn | hIn := List.mem_append.mp hIn
      · obtain hOp | ⟨e, hOp⟩ := hFirst _ hIn <;> cases hOp
      · exact hGuarded.checked before n after hIn
    · intro s hs n hOp
      obtain hs | hs := List.mem_append.mp hs
      · obtain hOp' | ⟨e, hOp'⟩ := hFirst s hs <;> cases hOp'.symm.trans hOp
      · obtain ⟨c, hBefore, hCreate, hNew⟩ := hGuarded.created s hs n hOp
        exact ⟨c, hBefore.trans (List.sublist_append_right first past), hCreate, hNew⟩

theorem identifies_nameOf (hPlain : '"' ∉ (nameOf tape dto).toList) :
    Identifies (nameOf tape dto) (ident (nameOf tape dto)) :=
  SchemaStatement.identifies_tenantName hPlain

theorem guarded_serve {w : TenancyWorld} (hPlain : '"' ∉ (nameOf w.tape dto).toList) :
    Guarded (operations server (serveEvent (serve server) dto w)) := by
  obtain ⟨db, tape⟩ := w
  obtain ⟨first, hFirst, ⟨_, hPast, _⟩ | ⟨_, row, hAdmits, created, hPast, _⟩⟩ :=
    createTenantClient_performed server db tape dto
  · rw [operations, serveEvent, hPast, ← List.append_nil first, guarded_append hFirst]
    exact ⟨fun _ _ _ hIn => absurd hIn List.not_mem_nil, fun _ hs => absurd hs List.not_mem_nil⟩
  · rw [operations, serveEvent, hPast, guarded_append hFirst]
    exact guarded_setUpSchema (identifies_nameOf hPlain)

def Grows (server : Server) (o : TenancyOp) : Prop :=
  ∀ w : TenancyWorld, w.catalogue.schemas ⊆ (exec server o w).2.catalogue.schemas

theorem grows_of_effect {o : TenancyOp} (h : ∀ draw db answer db',
    effect server draw o db = some (answer, db') → db.schemas ⊆ db'.schemas) : Grows server o := by
  rintro ⟨db, tape⟩
  generalize hNext : exec server o ⟨db, tape⟩ = next
  obtain ⟨r, w'⟩ := next
  obtain ⟨_, _, _, hEffect, _, rfl⟩ | ⟨_, _, rfl⟩ := exec_cases hNext
  · exact h _ _ _ _ hEffect
  · exact List.Subset.refl _

theorem grows_setUpSchema {name : String} {x : Text} (hName : Identifies name x)
    (created : OrganizationObject) :
    (TenantService.setUpSchema name created).Uses (Grows server) := by
  have hQuery : ∀ sql, (∀ db db' : Catalogue, db.query server sql = some db' →
      db.schemas ⊆ db'.schemas) → Grows server (.query sql) := by
    refine fun sql h => grows_of_effect fun _ db _ _ hEffect => ?_
    obtain ⟨db', hSome, hNext⟩ := Option.map_eq_some_iff.mp hEffect
    cases hNext
    exact h db _ hSome
  have hSelect : ∀ {n : String} {y : Text}, Identifies n y →
      Grows server (.query (TenantService.setSearchPath n)) := by
    refine fun hn => hQuery _ fun db db' hSome => ?_
    rw [Catalogue.query_setSearchPath hn] at hSome
    cases hSome
    exact List.Subset.refl _
  have hOther : ∀ o ∈ [TenancyOp.countSchemata name, .initializeClient name, .synchronize name,
      .destroy name], Grows server o := by
    simp only [List.mem_cons, List.not_mem_nil, or_false]
    rintro o (rfl | rfl | rfl | rfl)
    all_goals
      refine grows_of_effect ?_
      rintro _ _ _ _ ⟨⟩
      exact List.Subset.refl _
  refine SqlTexts.uses_setUpSchema (hOther _ List.mem_cons_self) ?_ (hSelect hName)
    (fun o ho => hOther o (List.mem_cons_of_mem _ ho)) (hSelect identifies_public)
  refine hQuery _ fun db db' hSome => ?_
  rw [Catalogue.query_createSchema hName] at hSome
  obtain ⟨_, rfl⟩ := Catalogue.createSchema_eq_some.mp hSome
  exact Catalogue.subset_schemasWith

/-- A request takes no schema away, and synchronizes into one that it adds. -/
theorem schemas_serve {w : TenancyWorld} (hPlain : '"' ∉ (nameOf w.tape dto).toList) :
    w.catalogue.schemas ⊆ (serve server dto w).2.catalogue.schemas ∧
      ∀ x, Synchronizes server (serveEvent (serve server) dto w) x →
        x ∉ w.catalogue.schemas ∧ x ∈ (serve server dto w).2.catalogue.schemas := by
  have hGuarded := @guarded_serve server dto w hPlain
  obtain ⟨db, tape⟩ := w
  obtain ⟨first, hFirst, ⟨_, hPast, hSame⟩ | ⟨_, row, hAdmits, created, hPast, hEnd⟩⟩ :=
    createTenantClient_performed server db tape dto
  · rw [hSame]
    refine ⟨List.Subset.refl _, ?_⟩
    rintro x ⟨s, hs, n, hOp, _⟩
    rw [operations, serveEvent, hPast] at hs
    obtain hOp' | ⟨e, hOp'⟩ := hFirst s hs <;> cases hOp'.symm.trans hOp
  · have hUses := @grows_setUpSchema server (nameOf tape dto) _ (identifies_nameOf hPlain) created
    have hRefl : ∀ w : TenancyWorld, w.catalogue.schemas ⊆ w.catalogue.schemas :=
      fun w => List.Subset.refl _
    have hTrans : ∀ u v w : TenancyWorld, u.catalogue.schemas ⊆ v.catalogue.schemas →
        v.catalogue.schemas ⊆ w.catalogue.schemas → u.catalogue.schemas ⊆ w.catalogue.schemas :=
      fun u v w h h' => List.Subset.trans h h'
    rw [hEnd]
    refine ⟨run_keeps (S := tenancy) (exec server) hRefl hTrans (fun _ h => h) hUses
      ⟨db.addTenant row hAdmits, fun n => tape (n + 2)⟩, ?_⟩
    rintro x ⟨s, hs, n, hOp, rfl⟩
    rw [operations, serveEvent, hPast] at hs hGuarded
    obtain hs | hs := List.mem_append.mp hs
    · obtain hOp' | ⟨e, hOp'⟩ := hFirst s hs <;> cases hOp'.symm.trans hOp
    obtain ⟨c, hBefore, _, hNew, hThere⟩ := ((guarded_append hFirst).mp hGuarded).created s hs n hOp
    obtain ⟨hFrom, hTo⟩ := performed_between (S := tenancy) (exec server) hRefl hTrans (fun _ h => h) hUses _ c
      (hBefore.subset List.mem_cons_self)
    exact ⟨fun hIn => hNew (hFrom hIn), hTo hThere⟩

/-- What was synchronized before is there, and what is synchronized next is not. -/
theorem apart_of_plain {start : TenancyWorld} {rs : List CreateOrganizationDto}
    (h : Steps (serve server) start (fun _ w dto => '"' ∉ (nameOf w.tape dto).toList) rs) :
    (history (serve server) start rs).Pairwise (fun ev ev' =>
      ∀ x, Synchronizes server ev x → ¬ Synchronizes server ev' x) := by
  have hRun := history_induction (J := fun past w =>
    past.Pairwise (fun ev ev' => ∀ x, Synchronizes server ev x → ¬ Synchronizes server ev' x) ∧
      ∀ ev ∈ past, ∀ x, Synchronizes server ev x → x ∈ w.catalogue.schemas)
    ⟨.nil, fun _ hIn => absurd hIn List.not_mem_nil⟩ ?_ h
  · exact hRun.1
  rintro past w dto ⟨hApart, hThere⟩ hPlain
  obtain ⟨hKept, hNew⟩ := schemas_serve hPlain
  refine ⟨List.pairwise_cons.mpr ⟨fun ev hEv x hNext hBefore => ?_, hApart⟩, ?_⟩
  · exact (hNew x hNext).1 (hThere ev hEv x hBefore)
  · refine List.forall_mem_cons.mpr ⟨fun x hNext => (hNew x hNext).2, fun ev hEv x hBefore => ?_⟩
    exact hKept (hThere ev hEv x hBefore)

end Calls

end LongNames

open LongNames in
/-- Over a run of requests whose names have no double quotes in them. -/
theorem ownSchemas (server : Server) (start : TenancyWorld) (rs : List CreateOrganizationDto)
    (hPlain : ∀ ev ∈ history (serve server) start rs, '"' ∉ (storedName ev).toList) :
    OwnSchemas server (history (serve server) start rs) where
  guarded := by
    intro ev hEv
    have hName := hPlain ev hEv
    obtain ⟨dto, w, rfl⟩ := mem_history hEv
    exact guarded_serve hName
  apart := apart_of_plain (forall_history_iff.mp hPlain)

namespace Sample

/-- A name as long as an identifier may be. -/
def cutDto : CreateOrganizationDto :=
  { organizationDto with name := String.ofList (List.replicate nameLimit 'a') }

end Sample

open LongNames in
/-- The second request meets the schema of the first one. -/
theorem ownSchemas_sample : OwnSchemas Sample.server
    (history (serve Sample.server) (Sample.twoTenants 9) [Sample.cutDto, Sample.cutDto]) :=
  ownSchemas Sample.server (Sample.twoTenants 9) [Sample.cutDto, Sample.cutDto]
    (List.forall_mem_cons.mpr ⟨by decide +kernel, List.forall_mem_singleton.mpr (by decide +kernel)⟩)

end Manejaplus
