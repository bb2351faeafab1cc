import Mathlib.Data.Fintype.Basic
import Manejaplus.Effect.Emitted
import Manejaplus.Products.ProductService

/-! # Tenants on pooled connections

`SET search_path` changes the connection it happens to run on. The query that
follows may run on another one, or after another tenant's statement on the same.
-/
namespace Manejaplus
open Effect Prog
set_option autoImplicit false

/-- PostgreSQL: the search path a statement sets, and the schemas that have an `mps_product`. -/
structure Postgres where
  searchPath : String → Option (List String)
  schemas : List String

namespace Postgres

/-- The schema an unqualified `mps_product` is looked up in. -/
def resolve (pg : Postgres) (path : List String) : Option String :=
  path.find? fun schema => pg.schemas.contains schema

def schemaOf (pg : Postgres) (tenant : String) : Option String :=
  (pg.searchPath (ProductService.setSearchPath tenant)).bind pg.resolve

end Postgres

/-- What one query takes from outside: the connection it is given, the time, the next value of the
sequence for the ids, a failure. -/
structure Turn where
  connection : Nat
  now : Time := 0
  nextval : Int := 0
  fault : Bool := false
  deriving DecidableEq, Repr

structure PoolWorld where
  path : Nat → List String
  tables : String → ProductTable
  tape : Nat → Turn

namespace PoolWorld

def turn (w : PoolWorld) : Turn := w.tape 0

def rest (w : PoolWorld) : PoolWorld := { w with tape := fun n => w.tape (n + 1) }

def target (pg : Postgres) (w : PoolWorld) : Option String := pg.resolve (w.path w.turn.connection)

def exec (pg : Postgres) : (o : ManagerOp) → PoolWorld →
    Except QueryFailedError (entityManager.Res o) × PoolWorld
  | .query sql, w =>
    match pg.searchPath sql with
    | some path =>
      if w.turn.fault then (.error .failed, w.rest)
      else (.ok (), { w.rest with path := Function.update w.path w.turn.connection path })
    | none => (.error .failed, w.rest)
  | .entity o, w =>
    match w.target pg with
    | some schema =>
      if w.turn.fault then (.error .failed, w.rest)
      else match (w.tables schema).exec w.turn.now w.turn.nextval o with
        | some (answer, table) =>
          (.ok answer, { w.rest with tables := Function.update w.tables schema table })
        | none => (.error .failed, w.rest)
    | none => (.error .failed, w.rest)

def touched (pg : Postgres) (w : PoolWorld) (o : EntityQuery) : List ProductRow :=
  match w.target pg with
  | some schema =>
    if w.turn.fault then [] else (w.tables schema).touched w.turn.now w.turn.nextval o
  | none => []

end PoolWorld

/-- The rows a call has read or written, each with the schema it lies in. -/
abbrev Access := List (Option String × ProductRow)

namespace Tenants

def protocol (pg : Postgres) : Protocol entityManager QueryFailedError PoolWorld Access where
  next γ w o _ := match o with
    | .query _ => γ
    | .entity o => γ ++ (w.touched pg o).map fun row => (w.target pg, row)
  allows _ _ := True

inductive ProductCall where
  | findAll
  | findById (id : Int)
  | create (productData : ProductObject)
  deriving DecidableEq

inductive ProductAnswer where
  | products (products : List ProductObject)
  | product (product : Option ProductObject)
  deriving DecidableEq

def ProductCall.prog (tenant : String) : ProductCall → Queries ProductAnswer
  | .findAll => do return .products (← ProductService.findAll tenant)
  | .findById id => do return .product (← ProductService.findById id tenant)
  | .create productData => do return .product (some (← ProductService.create productData tenant))

abbrev Calls (ι : Type) := Pool entityManager QueryFailedError PoolWorld ProductAnswer Access ι

section Runs
variable {ι : Type} (pg : Postgres) (tenant : ι → String)

def called (w : PoolWorld) (call : ι → ProductCall) : Calls ι where
  world := w
  threads i := ⟨(call i).prog (tenant i), []⟩

def InOwnSchema (p : Calls ι) : Prop :=
  ∀ i, ∀ access ∈ (p.threads i).ghost, pg.schemaOf (tenant i) = access.1

def atQuery (p : Calls ι) (i : ι) : Bool :=
  match (p.threads i).prog.awaits with
  | some (.entity _) => true
  | _ => false

/-- The call, with the connection, whose statement on the search path goes through in a step. -/
def selects (p : Calls ι) (i : ι) : List (Nat × ι) :=
  match (p.threads i).prog with
  | .op (.query sql) _ =>
    if (PoolWorld.exec pg (.query sql) p.world).1.isOk then [(p.world.turn.connection, i)] else []
  | _ => []

/-- The call that was the last to set the search path of a connection. -/
def lastOn (log : List (Nat × ι)) (connection : Nat) : Option ι :=
  ((log.filter fun e => e.1 = connection).getLast?).map Prod.snd

/-- The last to set the path of a connection was a call for a tenant of this schema; or none was,
and the connection has led there from the start. -/
def SetFor (start : PoolWorld) (log : List (Nat × ι)) (connection : Nat)
    (schema : Option String) : Prop :=
  (lastOn log connection).elim (pg.resolve (start.path connection) = schema)
    fun j => pg.schemaOf (tenant j) = schema

/-- A query is given a connection that was last set for its own tenant's schema. -/
def OnSetConnection (start : PoolWorld) (log : List (Nat × ι)) (p : Calls ι) (i : ι) : Prop :=
  atQuery p i = true →
    SetFor pg tenant start log p.world.turn.connection (pg.schemaOf (tenant i))

/-- The query that a call awaits finds rows, in whatever schema it looks them up. -/
def FindsRows (p : Calls ι) (i : ι) : Prop :=
  ∃ o, (p.threads i).prog.awaits = some (.entity o) ∧ p.world.touched pg o ≠ []

/-- A program that leaves the search paths alone. -/
def OnlyQueries {α : Type} (prog : Queries α) : Prop :=
  prog.Uses fun o : ManagerOp => ∃ q, o = .entity q

/-- Each connection leads where the last statement on it has led it, and each call is before its own
statement or past it. -/
structure Followed (start : PoolWorld) (call : ι → ProductCall) (p : Calls ι)
    (log : List (Nat × ι)) : Prop where
  leads : ∀ connection, SetFor pg tenant start log connection (pg.resolve (p.world.path connection))
  standing : ∀ i, (p.threads i).prog = (call i).prog (tenant i) ∨ OnlyQueries (p.threads i).prog

variable {pg} {tenant} {start : PoolWorld} {call : ι → ProductCall} {p : Calls ι}
  {log : List (Nat × ι)} {i : ι}

theorem onlyQueries_perform (o : EntityQuery) : OnlyQueries (EntityManager.perform o) :=
  uses_perform ⟨o, rfl⟩

theorem onlyQueries_insert (product : ProductObject) : OnlyQueries (EntityManager.insert product) :=
  uses_bind (onlyQueries_perform _) fun _ => trivial

theorem onlyQueries_save (product : ProductObject) : OnlyQueries (EntityManager.save product) := by
  unfold EntityManager.save
  cases product.id.required with
  | none => exact onlyQueries_insert product
  | some id =>
    refine uses_bind (onlyQueries_perform (.findOne id)) fun stored => ?_
    cases stored with
    | none => exact onlyQueries_insert product
    | some stored =>
      dsimp only [Option.elim]
      split
      · trivial
      · exact uses_bind (onlyQueries_perform _) fun _ => trivial

/-- A call sets the search path to its own tenant first, and never again. -/
theorem prog_begins (tenant : String) (call : ProductCall) :
    ∃ k, call.prog tenant = .op (.query (ProductService.setSearchPath tenant)) k ∧
      (∀ e, k (.error e) = .throw e) ∧ ∀ r, OnlyQueries (k r) := by
  cases call with
  | findAll =>
    refine ⟨_, rfl, fun _ => rfl, fun r => ?_⟩
    cases r with
    | error e => trivial
    | ok _ => exact uses_bind (onlyQueries_perform _) fun _ => trivial
  | findById id =>
    refine ⟨_, rfl, fun _ => rfl, fun r => ?_⟩
    cases r with
    | error e => trivial
    | ok _ => exact uses_bind (onlyQueries_perform _) fun _ => trivial
  | create productData =>
    refine ⟨_, rfl, fun _ => rfl, fun r => ?_⟩
    cases r with
    | error e => trivial
    | ok _ => exact uses_bind (onlyQueries_save _) fun _ => trivial

theorem exec_query (pg : Postgres) (sql : String) (w : PoolWorld) :
    (∃ path, pg.searchPath sql = some path ∧ PoolWorld.exec pg (.query sql) w =
      (.ok (), { w.rest with path := Function.update w.path w.turn.connection path })) ∨
    ∃ e, PoolWorld.exec pg (.query sql) w = (.error e, w.rest) := by
  unfold PoolWorld.exec
  dsimp only
  split
  · rename_i path hPath
    split
    · exact .inr ⟨_, rfl⟩
    · exact .inl ⟨path, hPath, rfl⟩
  · exact .inr ⟨_, rfl⟩

theorem exec_entity (pg : Postgres) (o : EntityQuery) (w : PoolWorld) :
    (∃ schema answer table, w.target pg = some schema ∧
      (w.tables schema).exec w.turn.now w.turn.nextval o = some (answer, table) ∧
      PoolWorld.exec pg (.entity o) w =
        (.ok answer, { w.rest with tables := Function.update w.tables schema table })) ∨
    ∃ e, PoolWorld.exec pg (.entity o) w = (.error e, w.rest) := by
  unfold PoolWorld.exec
  dsimp only
  split
  · rename_i schema hTarget
    split
    · exact .inr ⟨_, rfl⟩
    split
    · rename_i answer table hExec
      exact .inl ⟨schema, answer, table, hTarget, hExec, rfl⟩
    · exact .inr ⟨_, rfl⟩
  · exact .inr ⟨_, rfl⟩

theorem exec_entity_path (pg : Postgres) (o : EntityQuery) (w : PoolWorld) :
    (PoolWorld.exec pg (.entity o) w).2.path = w.path := by
  obtain ⟨schema, answer, table, _, _, hExec⟩ | ⟨e, hExec⟩ := exec_entity pg o w
  · rw [hExec]
    rfl
  · rw [hExec]
    rfl

theorem SetFor.iff_eq {connection : Nat} {schema schema' : Option String}
    (h : SetFor pg tenant start log connection schema) :
    SetFor pg tenant start log connection schema' ↔ schema = schema' := by
  unfold SetFor at *
  cases hLast : lastOn log connection with
  | none =>
    rw [hLast] at h
    exact ⟨fun h' => h.symm.trans h', fun hSame => h.trans hSame⟩
  | some j =>
    rw [hLast] at h
    exact ⟨fun h' => h.symm.trans h', fun hSame => h.trans hSame⟩

theorem lastOn_snoc (e : Nat × ι) (connection : Nat) :
    lastOn (log ++ [e]) connection =
      if e.1 = connection then some e.2 else lastOn log connection := by
  unfold lastOn
  rw [List.filter_append, List.filter_singleton]
  by_cases h : e.1 = connection
  · simp [h]
  · simp [h]

theorem followed_called (w : PoolWorld) :
    Followed pg tenant w call (called tenant w call) [] :=
  ⟨fun _ => rfl, fun _ => .inl rfl⟩

theorem touched_own {w : PoolWorld} {o : EntityQuery} {schema : Option String} :
    (∀ access ∈ (w.touched pg o).map fun row => (w.target pg, row), schema = access.1) ↔
      (w.touched pg o ≠ [] → w.target pg = schema) := by
  constructor
  · intro hOwn hSome
    obtain ⟨row, hRow⟩ := List.exists_mem_of_ne_nil _ hSome
    exact (hOwn _ (List.mem_map_of_mem hRow)).symm
  · intro hPath access hAccess
    obtain ⟨row, hRow, rfl⟩ := List.mem_map.mp hAccess
    exact (hPath (List.ne_nil_of_mem hRow)).symm

variable [DecidableEq ι]

theorem Followed.moved (h : Followed pg tenant start call p log) {w : PoolWorld}
    {prog : Queries ProductAnswer} {ghost : Access} {log' : List (Nat × ι)}
    (hLeads : ∀ connection, SetFor pg tenant start log' connection (pg.resolve (w.path connection)))
    (hNext : OnlyQueries prog) :
    Followed pg tenant start call ⟨w, Function.update p.threads i ⟨prog, ghost⟩⟩ log' where
  leads := hLeads
  standing j := by
    by_cases hj : j = i
    · subst hj
      simp only [Function.update_self]
      exact .inr hNext
    · simpa only [Function.update_of_ne hj] using h.standing j

theorem followed_step (p : Calls ι) (i : ι) (log : List (Nat × ι))
    (h : Followed pg tenant start call p log) :
    Followed pg tenant start call (p.step (PoolWorld.exec pg) (protocol pg) i)
      (log ++ selects pg p i) := by
  have hStanding := h.standing i
  obtain ⟨k, hBegin, -, hRest⟩ := prog_begins (tenant i) (call i)
  rw [hBegin] at hStanding
  match hProg : (p.threads i).prog with
  | .pure a =>
    have hNone : selects pg p i = [] := by rw [selects, hProg]
    rw [Pool.step_idle (by rw [hProg]; rfl), hNone, List.append_nil]
    exact h
  | .throw e =>
    have hNone : selects pg p i = [] := by rw [selects, hProg]
    rw [Pool.step_idle (by rw [hProg]; rfl), hNone, List.append_nil]
    exact h
  | .op (.entity o) k' =>
    have hNone : selects pg p i = [] := by rw [selects, hProg]
    rw [hProg] at hStanding
    obtain hNo | hPast := hStanding
    · cases hNo
    rw [Pool.step_op hProg, hNone, List.append_nil]
    refine h.moved (fun connection => ?_) (hPast.2 _)
    rw [exec_entity_path]
    exact h.leads connection
  | .op (.query sql) k' =>
    rw [hProg] at hStanding
    obtain hNow | ⟨⟨q, hNo⟩, -⟩ := hStanding
    · cases hNow
      rw [Pool.step_op hProg]
      obtain ⟨path, hPath, hExec⟩ | ⟨e, hExec⟩ :=
        exec_query pg (ProductService.setSearchPath (tenant i)) p.world
      · have hOne : selects pg p i = [(p.world.turn.connection, i)] := by
          rw [selects, hProg]
          exact if_pos (by rw [hExec]; rfl)
        rw [hOne, hExec]
        refine h.moved (fun connection => ?_) (hRest _)
        rw [SetFor, lastOn_snoc]
        by_cases hSame : p.world.turn.connection = connection
        · subst hSame
          simp [Postgres.schemaOf, hPath]
        · rw [if_neg hSame]
          simp only [Function.update_of_ne (Ne.symm hSame)]
          exact h.leads connection
      · have hNone : selects pg p i = [] := by
          rw [selects, hProg]
          exact if_neg (by rw [hExec]; exact Bool.false_ne_true)
        rw [hNone, List.append_nil, hExec]
        exact h.moved h.leads (hRest _)
    · cases hNo

theorem inOwnSchema_step (p : Calls ι) (i : ι) (log : List (Nat × ι))
    (h : Followed pg tenant start call p log) :
    InOwnSchema pg tenant (p.step (PoolWorld.exec pg) (protocol pg) i) ↔
      InOwnSchema pg tenant p ∧ (FindsRows pg p i → OnSetConnection pg tenant start log p i) := by
  have hIdle : (∀ o, (p.threads i).prog.awaits ≠ some (.entity o)) →
      (FindsRows pg p i → OnSetConnection pg tenant start log p i) :=
    fun hNone ⟨o, hAwaits, _⟩ => absurd hAwaits (hNone o)
  match hProg : (p.threads i).prog with
  | .pure a =>
    rw [Pool.step_idle (by rw [hProg]; rfl)]
    exact (and_iff_left (hIdle fun o h => by rw [hProg] at h; cases h)).symm
  | .throw e =>
    rw [Pool.step_idle (by rw [hProg]; rfl)]
    exact (and_iff_left (hIdle fun o h => by rw [hProg] at h; cases h)).symm
  | .op (.query sql) k =>
    rw [Pool.step_op hProg, and_iff_left (hIdle fun o h => by rw [hProg] at h; cases h)]
    apply forall_congr'
    intro j
    by_cases hj : j = i
    · subst hj
      simp [protocol]
    · simp [Function.update_of_ne hj]
  | .op (.entity o) k =>
    -- the connection leads where the last statement on it went, so that its target is that schema
    have hTarget : OnSetConnection pg tenant start log p i ↔
        p.world.target pg = pg.schemaOf (tenant i) := by
      rw [PoolWorld.target, ← (h.leads _).iff_eq]
      exact forall_prop_of_true (by rw [atQuery, hProg]; rfl)
    have hFinds : FindsRows pg p i ↔ p.world.touched pg o ≠ [] := by
      constructor
      · rintro ⟨o', hAwaits, hSome⟩
        rw [hProg] at hAwaits
        cases hAwaits
        exact hSome
      · exact fun hSome => ⟨o, by rw [hProg]; rfl, hSome⟩
    rw [Pool.step_op hProg, hTarget, hFinds, ← touched_own]
    exact Pool.forall_mem_log

end Runs

end Tenants

open Tenants in
/-- Calls stay within their tenants' schemas as long as each query is given a connection that was
last set for its own tenant's schema; and a query that finds rows on another one leaves it. -/
theorem tenants_apart {ι : Type} [DecidableEq ι] (pg : Postgres) (tenant : ι → String)
    (w : PoolWorld) (call : ι → ProductCall) (schedule : List ι) :
    (Pool.AlongLog (PoolWorld.exec pg) (protocol pg) (selects pg) (OnSetConnection pg tenant w) []
        (called tenant w call) schedule →
      ∀ earlier, earlier <+: schedule → InOwnSchema pg tenant
        ((called tenant w call).run (PoolWorld.exec pg) (protocol pg) earlier)) ∧
    (InOwnSchema pg tenant
        ((called tenant w call).run (PoolWorld.exec pg) (protocol pg) schedule) →
      Pool.AlongLog (PoolWorld.exec pg) (protocol pg) (selects pg)
        (fun log p i => FindsRows pg p i → OnSetConnection pg tenant w log p i) []
        (called tenant w call) schedule) := by
  have hBegun : InOwnSchema pg tenant (called tenant w call) :=
    fun i access hAccess => (by cases hAccess)
  have hStart : Followed pg tenant w call (called tenant w call) [] := followed_called w
  have hExact : ∀ schedule, InOwnSchema pg tenant
      ((called tenant w call).run (PoolWorld.exec pg) (protocol pg) schedule) ↔
        InOwnSchema pg tenant (called tenant w call) ∧
          Pool.AlongLog (PoolWorld.exec pg) (protocol pg) (selects pg)
            (fun log p i => FindsRows pg p i → OnSetConnection pg tenant w log p i) []
            (called tenant w call) schedule :=
    Pool.run_exact_log followed_step inOwnSchema_step hStart
  constructor
  · intro hAlong earlier hPrefix
    have hImp : ∀ log p i, OnSetConnection pg tenant w log p i →
        FindsRows pg p i → OnSetConnection pg tenant w log p i := fun _ _ _ hSet _ => hSet
    exact (hExact earlier).mpr
      ⟨hBegun, Pool.alongLog_mono hImp (Pool.alongLog_prefix hPrefix hAlong)⟩
  · exact fun hOwn => ((hExact schedule).mp hOwn).2

namespace Sample

def productRow : ProductRow where
  id := 1
  name := "gear"
  description := "spare part"
  price := "1.50"
  stock := 4
  image := none
  status := true
  createdAt := 0
  updatedAt := 0

def postgres : Postgres where
  searchPath sql :=
    if sql = "SET search_path TO acme" then some ["acme"]
    else if sql = "SET search_path TO globex" then some ["globex"]
    else none
  schemas := ["acme", "globex"]

/-- Only the second tenant has a product, and all queries get the same connection. -/
def oneConnection : PoolWorld where
  path _ := ["public"]
  tables schema := if schema = "globex" then ⟨[productRow]⟩ else ⟨[]⟩
  tape _ := { connection := 0 }

def tenants : Fin 2 → String
  | 0 => "acme"
  | 1 => "globex"

end Sample

/-- The second tenant's statement comes between the two of the first, who is then shown the
second's products. -/
theorem findAll_of_another_tenant :
    ¬ Tenants.InOwnSchema Sample.postgres Sample.tenants
      ((Tenants.called Sample.tenants Sample.oneConnection fun _ => .findAll).run
        (PoolWorld.exec Sample.postgres) (Tenants.protocol Sample.postgres) [0, 1, 0, 1]) := by
  intro h
  have hOwn := h 0 (some "globex", Sample.productRow) (by decide)
  revert hOwn
  decide

end Manejaplus
