import Manejaplus.Authentication.AuthService
import Manejaplus.Shared.Strings

/-! # Organizations, tenants and their schemas

The statements that `dataSource.query` sends are texts, with the name of the
tenant written into them.
-/
namespace Manejaplus
open Effect
set_option autoImplicit false

/-- Organization and tenant objects: the organization service hands its own model over as the
tenant's. -/
structure OrganizationObject where
  id : Js String := .undefined
  name : Js String := .undefined
  owner : Js String := .undefined
  image_url : Js String := .undefined
  tenant : Js String := .undefined
  deriving DecidableEq, Repr

abbrev OrganizationModel := OrganizationObject

abbrev TenantModel := OrganizationObject

inductive TenancyOp where
  | randomUuid
  | saveTenant (e : OrganizationObject)
  | countSchemata (schemaName : String)
  | query (sql : String)
  | initializeClient (schema : String)
  | synchronize (schema : String)
  | destroy (schema : String)
  | saveOrganization (e : OrganizationObject)
  deriving DecidableEq

abbrev TenancyOp.Res : TenancyOp → Type
  | .randomUuid => String
  | .saveTenant _ => OrganizationObject
  | .countSchemata _ => Nat
  | .saveOrganization _ => OrganizationObject
  | _ => Unit

abbrev tenancy : Signature where
  Op := TenancyOp
  Res := TenancyOp.Res

abbrev Tenancy (α : Type) := Prog tenancy Exception α

namespace Tenancy

def perform (o : TenancyOp) : Tenancy o.Res := Prog.perform (S := tenancy) o

def throw {α : Type} (e : Exception) : Tenancy α := Prog.throw e

end Tenancy

/-- `UUIDEncoder` -/
def UUIDEncoder : Tenancy String :=
  Prog.catching (Tenancy.perform .randomUuid)
    fun _ => Tenancy.throw (.error "Error al generar el UUID")

namespace TenantRepositoryImpl

def createTenant (tenantEntity : OrganizationObject) : Tenancy OrganizationObject :=
  Tenancy.perform (.saveTenant tenantEntity)

end TenantRepositoryImpl

namespace OrganizationRepositoryImpl

def createOrganization (organizationEntity : OrganizationObject) : Tenancy OrganizationObject :=
  Tenancy.perform (.saveOrganization organizationEntity)

end OrganizationRepositoryImpl

namespace OrganizationObject

/-- `SqlGlobalMapper.mapClass(source, { get })` -/
def mapClass (source : OrganizationObject) (get : Option (List String) := none) :
    OrganizationObject :=
  let copy (key : String) (value : Js String) : Js String :=
    if (get.map (·.contains key)).getD true then value else .undefined
  { id := copy "id" source.id
    name := copy "name" source.name
    owner := copy "owner" source.owner
    image_url := copy "image_url" source.image_url
    tenant := copy "tenant" source.tenant }

@[simp] theorem mapClass_default (source : OrganizationObject) : source.mapClass = source := rfl

end OrganizationObject

namespace TenantService

def tenantName (name UUID : String) : String := name ++ "_" ++ UUID

def createSchema (schemaName : String) : String :=
  "CREATE SCHEMA IF NOT EXISTS \"" ++ schemaName ++ "\""

def setSearchPath (schemaName : String) : String := "SET search_path TO \"" ++ schemaName ++ "\""

/-- The body of the `DO` statement, between its two `$$`. -/
def dropTablesBody (schemaName : String) : String :=
  " DECLARE\n          r RECORD;\n        BEGIN\n          FOR r IN (SELECT tablename FROM pg_tables " ++
  "WHERE schemaname = '" ++ schemaName ++ "') LOOP\n            EXECUTE 'DROP TABLE IF EXISTS \"" ++
  schemaName ++ "\".\"' || r.tablename || '\" CASCADE';\n          END LOOP;\n        END "

def dropTables (schemaName : String) : String :=
  "\n        DO $$" ++ dropTablesBody schemaName ++ "$$;\n      "

def dropSchema (schemaName : String) : String :=
  "DROP SCHEMA IF EXISTS \"" ++ schemaName ++ "\" CASCADE"

def checkSchemaToCreateExists (schemaName : String) : Tenancy Bool := do
  let count ← Tenancy.perform (.countSchemata schemaName)
  return decide (count > 0)

/-- `createTenantClient` from the existence check to the end of its `try` block. -/
def setUpSchema (name : String) (tenantCreated : OrganizationObject) : Tenancy (Option String) := do
  let schemaExists ← checkSchemaToCreateExists name
  if schemaExists then
    Tenancy.throw (.error ("The schema \"" ++ name ++ "\" already exists"))
  else do
    Tenancy.perform (.query (createSchema name))
    Tenancy.perform (.query (setSearchPath name))
    Tenancy.perform (.initializeClient name)
    Tenancy.perform (.synchronize name)
    Tenancy.perform (.destroy name)
    Tenancy.perform (.query (setSearchPath "public"))
    match tenantCreated.id with
    | .val id => return some id
    | _ => return none

/-- The `try` block of `createTenantClient`, once the name has been set. -/
def createSchemaOf (tenantModel : TenantModel) : Tenancy (Option String) := do
  let tenantCreated ← TenantRepositoryImpl.createTenant tenantModel.mapClass
  setUpSchema tenantModel.name.template tenantCreated

/-- `createTenantClient`, with the model it leaves behind: its name has got the UUID. -/
def createTenantClient (tenantModel : TenantModel) : Tenancy (Option String × TenantModel) := do
  match ← UUIDEncoder.attempt with
  | .error _ => return (none, tenantModel)
  | .ok UUID =>
    let tenantModel := { tenantModel with
      name := .val (tenantName tenantModel.name.template UUID) }
    let tenant ← (createSchemaOf tenantModel).catching fun _ => return none
    return (tenant, tenantModel)

def deleteSchemaClient (cases : CaseMapping) (schemaName : String) : Tenancy (Option String) :=
  Prog.catching
    (do
      if cases.toLowerCase schemaName = "public" then
        Tenancy.throw (.error "No se puede eliminar el esquema public")
      else do
        Tenancy.perform (.query (dropTables schemaName))
        Tenancy.perform (.query (dropSchema schemaName))
        return some schemaName)
    fun _ => return none

end TenantService

structure CreateOrganizationDto where
  name : String
  owner : String
  image_url : Js String := .undefined
  deriving DecidableEq, Repr

namespace CreateOrganizationDto

/-- `IsNotEmpty` and `MaxLength(100)`; the length does not count variation selectors. -/
def admitsName (name : String) : Bool :=
  name != "" && (name.toList.filter fun c => c != '\uFE0E' && c != '\uFE0F').length ≤ 100

def model (dto : CreateOrganizationDto) : OrganizationModel where
  name := .val dto.name
  owner := .val dto.owner
  image_url := dto.image_url

end CreateOrganizationDto

namespace OrganizationService

def createOrganization (dto : CreateOrganizationDto) : Tenancy OrganizationModel := do
  let (tenant, organizationModel) ← TenantService.createTenantClient dto.model
  let organizationModel := { organizationModel with tenant := match tenant with
    | some id => .val id
    | none => .null }
  let created ← OrganizationRepositoryImpl.createOrganization organizationModel.mapClass
  return created.mapClass (some ["name"])

end OrganizationService

namespace PersistenceController

/-- The `null` of a deletion that failed goes unnoticed. -/
def deleteSchema (cases : CaseMapping) (schemaName : String) : Tenancy String := do
  let _ ← TenantService.deleteSchemaClient cases schemaName
  return "Schema " ++ schemaName ++ " deleted successfully"

end PersistenceController

end Manejaplus
