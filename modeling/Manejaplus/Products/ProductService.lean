import Manejaplus.Effect.Program
import Manejaplus.Shared.Js

/-! # Products, selected by the search path of a connection -/
namespace Manejaplus
open Effect
set_option autoImplicit false

/-- A row of `mps_product`; a `decimal` comes back as text. -/
structure ProductRow where
  id : Int
  name : String
  description : String
  price : String
  stock : Int
  image : Option String
  status : Bool
  createdAt : Time
  updatedAt : Time
  deriving DecidableEq, Repr

/-- `ProductEntity` objects, and `Partial<ProductEntity>`. -/
structure ProductObject where
  id : Js Int := .undefined
  name : Js String := .undefined
  description : Js String := .undefined
  price : Js String := .undefined
  stock : Js Int := .undefined
  image : Js String := .undefined
  status : Js Bool := .undefined
  createdAt : Js Time := .undefined
  updatedAt : Js Time := .undefined
  deriving DecidableEq, Repr

def ProductRow.entity (row : ProductRow) : ProductObject where
  id := .val row.id
  name := .val row.name
  description := .val row.description
  price := .val row.price
  stock := .val row.stock
  image := .ofOption row.image
  status := .val row.status
  createdAt := .val row.createdAt
  updatedAt := .val row.updatedAt

/-- The columns of `e` that differ from those of the stored object; an absent one is no change. -/
def ProductObject.changes (e stored : ProductObject) : ProductObject where
  name := e.name.changeFrom stored.name
  description := e.description.changeFrom stored.description
  price := e.price.changeFrom stored.price
  stock := e.stock.changeFrom stored.stock
  image := e.image.changeFrom stored.image
  status := e.status.changeFrom stored.status
  createdAt := e.createdAt.changeFrom stored.createdAt
  updatedAt := e.updatedAt.changeFrom stored.updatedAt

/-- What `save` makes of its argument after an `INSERT`: the generated columns come back, and a
nullable column without a value is `null`. -/
def ProductObject.inserted (e : ProductObject) (row : ProductRow) : ProductObject :=
  { e with
    id := .val row.id
    image := e.image.orNull
    status := .val row.status
    createdAt := .val row.createdAt
    updatedAt := .val row.updatedAt }

def ProductObject.updated (e : ProductObject) (row : Option ProductRow) : ProductObject :=
  { e with
    image := e.image.orNull
    updatedAt := (row.map fun row => Js.val row.updatedAt).getD e.updatedAt }

/-- The statements on `mps_product`, none of which names a schema. -/
inductive EntityQuery where
  | find
  | findOne (id : Int)
  | insert (product : ProductObject)
  | update (id : Int) (changes : ProductObject)
  deriving DecidableEq

inductive ManagerOp where
  | query (sql : String)
  | entity (o : EntityQuery)
  deriving DecidableEq

abbrev EntityQuery.Res : EntityQuery → Type
  | .find => List ProductObject
  | .findOne _ => Option ProductObject
  | .insert _ => ProductRow
  | .update _ _ => Option ProductRow

inductive QueryFailedError where
  | failed
  deriving DecidableEq, Repr

abbrev entityManager : Signature where
  Op := ManagerOp
  Res
    | .query _ => Unit
    | .entity o => o.Res

abbrev Queries (α : Type) := Prog entityManager QueryFailedError α

namespace EntityManager

def query (sql : String) : Queries Unit := Prog.perform (S := entityManager) (.query sql)

def perform (o : EntityQuery) : Queries o.Res := Prog.perform (S := entityManager) (.entity o)

def find : Queries (List ProductObject) := perform .find

def findOne (id : Int) : Queries (Option ProductObject) := perform (.findOne id)

def insert (product : ProductObject) : Queries ProductObject := do
  return product.inserted (← perform (.insert product))

/-- `save(ProductEntity, product)`: without an id an `INSERT`, otherwise a `SELECT` first and then the
statement that its answer calls for. -/
def save (product : ProductObject) : Queries ProductObject :=
  product.id.required.elim (insert product) fun id =>
    (findOne id).bind fun stored => stored.elim (insert product) fun stored =>
      if product.changes stored = {} then return product
      else do return product.updated (← perform (.update id (product.changes stored)))

/-- `create(ProductEntity, plain)`: every property of the plain object is a column. -/
def create (productData : ProductObject) : ProductObject := productData

end EntityManager

namespace ProductService

def setSearchPath (tenant : String) : String := "SET search_path TO " ++ tenant

def findAll (tenant : String) : Queries (List ProductObject) := do
  EntityManager.query (setSearchPath tenant)
  EntityManager.find

def findById (id : Int) (tenant : String) : Queries (Option ProductObject) := do
  EntityManager.query (setSearchPath tenant)
  EntityManager.findOne id

def create (productData : ProductObject) (tenant : String) : Queries ProductObject := do
  EntityManager.query (setSearchPath tenant)
  let product := EntityManager.create productData
  EntityManager.save product

end ProductService

structure ProductTable where
  rows : List ProductRow
  deriving DecidableEq, Repr

namespace ProductTable

def byId (t : ProductTable) (id : Int) : Option ProductRow := t.rows.find? (·.id == id)

/-- The row that an `UPDATE` of these columns leaves; `none` when a constraint refuses it. -/
def write (changes : ProductObject) (now : Time) (row : ProductRow) : Option ProductRow := do
  let name ← changes.name.writeNotNull row.name
  let description ← changes.description.writeNotNull row.description
  let price ← changes.price.writeNotNull row.price
  let stock ← changes.stock.writeNotNull row.stock
  let status ← changes.status.writeNotNull row.status
  let createdAt ← changes.createdAt.writeNotNull row.createdAt
  let updatedAt ← changes.updatedAt.writeNotNull now
  some { row with
    name, description, price, stock, status, createdAt, updatedAt
    image := changes.image.write row.image }

def ofEntity (id : Int) (now : Time) (e : ProductObject) : Option ProductRow := do
  let name ← e.name.required
  let description ← e.description.required
  let price ← e.price.required
  let stock ← e.stock.required
  let status ← e.status.writeNotNull true
  let createdAt ← e.createdAt.writeNotNull now
  let updatedAt ← e.updatedAt.writeNotNull now
  some {
    id, name, description, price, stock, status, createdAt, updatedAt
    image := e.image.write none }

def replace (row : ProductRow) (rows : List ProductRow) : List ProductRow :=
  rows.map fun r => if r.id = row.id then row else r

/-- The row that an `INSERT` adds. `nextval` is what the sequence of the table answers; it does not
go back when the row is refused. -/
def newRow (t : ProductTable) (now : Time) (nextval : Int) (e : ProductObject) :
    Option ProductRow :=
  let id := e.id.required.getD nextval
  if (t.byId id).isSome then none else ofEntity id now e

def changedRow (t : ProductTable) (now : Time) (id : Int) (changes : ProductObject) :
    Option (Option ProductRow) :=
  (t.byId id).elim (some none) fun row => (write changes now row).map some

/-- What a statement answers, and the table after it; `none` when a constraint refuses it. -/
def exec (now : Time) (nextval : Int) (t : ProductTable) :
    (o : EntityQuery) → Option (o.Res × ProductTable)
  | .find => some (t.rows.map ProductRow.entity, t)
  | .findOne id => some ((t.byId id).map ProductRow.entity, t)
  | .insert e => (t.newRow now nextval e).map fun row => (row, ⟨t.rows ++ [row]⟩)
  | .update id changes => (t.changedRow now id changes).map fun row =>
    (row, ⟨row.elim t.rows fun row => replace row t.rows⟩)

def touched (now : Time) (nextval : Int) (t : ProductTable) : EntityQuery → List ProductRow
  | .find => t.rows
  | .findOne id => (t.byId id).toList
  | .insert e => (t.newRow now nextval e).toList
  | .update id changes => (t.changedRow now id changes).join.toList

end ProductTable

end Manejaplus
