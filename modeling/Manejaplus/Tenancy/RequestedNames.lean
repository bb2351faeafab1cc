import Manejaplus.Tenancy.Provisioning

/-! # The name that was asked for, and the name of the organization

The tenant service writes the UUID into the object that is saved afterwards as
the organization.
-/
namespace Manejaplus
open Effect Prog
set_option autoImplicit false

namespace RequestedNames
open Provisioning TenancyWorld

def serve (server : Server) (dto : CreateOrganizationDto) (w : TenancyWorld) :
    Except Exception OrganizationModel × TenancyWorld :=
  run (exec server) (OrganizationService.createOrganization dto) w

abbrev CreationEvent := Event TenancyWorld CreateOrganizationDto (Except Exception OrganizationModel)

def Succeeded (ev : CreationEvent) : Prop := ∃ answer, ev.outcome = .ok answer

/-- The row inserted last and the answer have the name that was asked for. -/
def KeepsName (ev : CreationEvent) : Prop :=
  (ev.after.catalogue.organizations.getLast?.map (·.name)) = some ev.request.name ∧
    ∀ answer, ev.outcome = .ok answer → answer.name = .val ev.request.name

/-- The successful requests of a run keep their names, and no two of them have the same. -/
structure Unique (past : List CreationEvent) : Prop where
  kept : ∀ ev ∈ past, Succeeded ev → KeepsName ev
  apart : past.Pairwise fun ev ev' =>
    Succeeded ev → Succeeded ev' → ev.request.name ≠ ev'.request.name

variable {server : Server} {db : Catalogue} {tape : Nat → Draw} {w' : TenancyWorld}
  {dto : CreateOrganizationDto}

theorem organizationRow_name {id name : String} {e : OrganizationObject} {row : OrganizationRow}
    (hName : e.name = .val name) (h : Catalogue.organizationRow server id e = some row) :
    row.name = name := by
  simp only [Catalogue.organizationRow, hName, Js.required, Option.bind_eq_bind, Option.bind_some,
    Option.bind_eq_some_iff, Option.some.injEq] at h
  obtain ⟨_, _, _, _, _, _, rfl⟩ := h
  rfl

theorem insertion_name {model answer : OrganizationModel} {tenant : Option String} {name : String}
    (hName : model.name = .val name)
    (hRun : run (exec server) (insertion model tenant) ⟨db, tape⟩ = (.ok answer, w')) :
    answer.name = .val name ∧
      w'.catalogue.organizations.getLast?.map (·.name) = some name := by
  obtain ⟨r, hSave, hAnswer⟩ := run_map_cases _ hRun
  obtain ⟨_, _, _, hSome, rfl, rfl⟩ | ⟨_, rfl, _⟩ := exec_cases (exec_of_run hSave)
  · obtain ⟨row, hRow, hAdmits, rfl, rfl⟩ := insertOrganization_eq_some.mp hSome
    cases hAnswer
    have hEntity : (entityOf model tenant).name = .val name := hName
    refine ⟨hName, ?_⟩
    rw [Catalogue.addOrganization, List.getLast?_concat, Option.map_some,
      organizationRow_name hEntity hRow]
  · cases hAnswer

theorem nameOf_ne (tape : Nat → Draw) (dto : CreateOrganizationDto) : nameOf tape dto ≠ dto.name := by
  intro h
  have hLength := congrArg (fun s : String => s.toList.length) h
  simp only [nameOf, TenantService.tenantName, toList_append₃, List.length_append] at hLength
  have hUnderscore : "_".toList.length = 1 := rfl
  omega

/-- A successful request saves and answers the name with the UUID behind it. -/
theorem name_of_succeeded {w : TenancyWorld} {answer : OrganizationModel}
    (hServe : serve server dto w = (.ok answer, w')) :
    answer.name = .val (nameOf w.tape dto) ∧
      w'.catalogue.organizations.getLast?.map (·.name) = some (nameOf w.tape dto) := by
  obtain ⟨db, tape⟩ := w
  obtain ⟨_, _, e, hError⟩ | ⟨_, _, _, _, _, ⟨db₁, tape₁⟩, _, hInsert⟩ :=
    createOrganization_cases hServe
  · cases hError
  · exact insertion_name rfl hInsert

theorem not_keepsName {w : TenancyWorld} (h : Succeeded (serveEvent (serve server) dto w)) :
    ¬ KeepsName (serveEvent (serve server) dto w) := by
  obtain ⟨answer, hAnswer⟩ := h
  rintro ⟨_, hKept⟩
  have hName := (name_of_succeeded (Prod.ext hAnswer rfl)).1
  rw [hKept answer hAnswer] at hName
  exact nameOf_ne _ _ (Js.val.inj hName).symm

end RequestedNames

open RequestedNames in
/-- A run keeps the names that were asked for only if none of its requests succeeds. -/
theorem requestedNames_iff (server : Server) (start : TenancyWorld) (rs : List CreateOrganizationDto) :
    Unique (history (serve server) start rs) ↔
      ∀ ev ∈ history (serve server) start rs, ¬ Succeeded ev := by
  constructor
  · intro h ev hEv hSucceeded
    obtain ⟨dto, w, rfl⟩ := mem_history hEv
    exact not_keepsName hSucceeded (h.kept _ hEv hSucceeded)
  · intro h
    refine ⟨fun ev hEv hSucceeded => absurd hSucceeded (h ev hEv), ?_⟩
    exact List.pairwise_of_forall_mem_list fun ev hEv _ _ hSucceeded => absurd hSucceeded (h ev hEv)

namespace Sample

def drawingWorld : TenancyWorld where
  catalogue := catalogue
  tape n := { uuid := "u" ++ n.repr, id := "i" ++ n.repr }

end Sample

open RequestedNames in
/-- Two requests for one name succeed. -/
theorem not_requestedNames : ¬ ∀ (server : Server) (start : TenancyWorld)
    (rs : List CreateOrganizationDto), Unique (history (serve server) start rs) := by
  intro h
  have hUnique := h Sample.server Sample.drawingWorld [Sample.organizationDto, Sample.organizationDto]
  obtain ⟨hApart, _⟩ := List.pairwise_cons.mp hUnique.apart
  have hSucceeds : ∀ ev ∈ history (serve Sample.server) Sample.drawingWorld
      [Sample.organizationDto, Sample.organizationDto], ev.outcome.toOption.isSome := by
    decide +kernel
  have hOk : ∀ ev : CreationEvent, ev.outcome.toOption.isSome → Succeeded ev := by
    intro ev hSome
    cases hOutcome : ev.outcome with
    | ok answer => exact ⟨answer, hOutcome⟩
    | error e =>
      rw [hOutcome] at hSome
      cases hSome
  obtain ⟨hSecond, hRest⟩ := List.forall_mem_cons.mp hSucceeds
  exact hApart _ List.mem_cons_self (hOk _ hSecond) (hOk _ (hRest _ List.mem_cons_self)) rfl

end Manejaplus
