import Manejaplus.Effect.Emitted
import Manejaplus.Products.Tenants

/-! # Each tenant's products, one call after the other

Where the search path leads to the caller's own schema, interleaved calls whose
work is one statement are answered as if each had been made at once, on a table
that only the calls of that schema's tenants ever touch.
-/
namespace Manejaplus
open Effect Prog
set_option autoImplicit false

namespace Tenants

/-- `save` of an object with an id looks the row up first and then writes: two statements, between
which others may come. Every other call is a single one. -/
def ProductCall.OneStatement : ProductCall → Prop
  | .create productData => productData.id = .undefined
  | _ => True

/-- A call on the tenant's own table: the answer, and the table it leaves; `none` when a constraint
refuses it. -/
def ProductCall.on (turn : Turn) (table : ProductTable) :
    ProductCall → Option (ProductAnswer × ProductTable)
  | .findAll => some (.products (table.rows.map ProductRow.entity), table)
  | .findById id => some (.product ((table.byId id).map ProductRow.entity), table)
  | .create productData => (table.newRow turn.now turn.nextval productData).map fun row =>
    (.product (some (productData.inserted row)), ⟨table.rows ++ [row]⟩)

def ProductCall.query : ProductCall → EntityQuery
  | .findAll => .find
  | .findById id => .findOne id
  | .create productData => .insert productData

/-- What a call makes of the answer to its query. -/
def ProductCall.dress : (call : ProductCall) → call.query.Res → ProductAnswer
  | .findAll, products => .products products
  | .findById _, product => .product product
  | .create productData, row => .product (some (productData.inserted row))

theorem on_eq (turn : Turn) (table : ProductTable) (call : ProductCall) :
    call.on turn table = (table.exec turn.now turn.nextval call.query).map fun (answer, table') =>
      (call.dress answer, table') := by
  cases call with
  | findAll => rfl
  | findById id => rfl
  | create productData =>
    simp only [ProductCall.on, ProductCall.query, ProductTable.exec, Option.map_map]
    rfl

theorem prog_eq (tenant : String) {call : ProductCall} (hOne : call.OneStatement) :
    call.prog tenant = (EntityManager.query (ProductService.setSearchPath tenant)).bind fun _ =>
      (EntityManager.perform call.query).bind fun answer => .pure (call.dress answer) := by
  cases call with
  | findAll => exact bind_assoc _ _ _
  | findById id => exact bind_assoc _ _ _
  | create productData =>
    have hSave : EntityManager.save productData = EntityManager.insert productData := by
      rw [EntityManager.save, show productData.id = .undefined from hOne]
      rfl
    have hCreate : ProductService.create productData tenant =
        (EntityManager.query (ProductService.setSearchPath tenant)).bind fun _ =>
          EntityManager.insert productData :=
      congrArg (Prog.bind _) (funext fun _ => hSave)
    simp only [ProductCall.prog, bind_eq, hCreate, EntityManager.insert, bind_assoc]
    rfl

section Runs
variable {ι : Type} (pg : Postgres) (tenant : ι → String) (call : ι → ProductCall)

def atStatement (p : Calls ι) (i : ι) : Bool :=
  match (p.threads i).prog.awaits with
  | some (.query _) => true
  | _ => false

/-- The entity query of a call runs where the search path leads to the schema of its tenant. -/
def OnPath (p : Calls ι) (i : ι) : Prop :=
  atQuery p i = true → p.world.target pg = pg.schemaOf (tenant i)

instance (p : Calls ι) (i : ι) : Decidable (OnPath pg tenant p i) :=
  inferInstanceAs (Decidable (_ → _))

/-- The call whose entity query goes through in a step, with what that has taken from outside. -/
def serves (p : Calls ι) (i : ι) : List (ι × Turn) :=
  match (p.threads i).prog with
  | .op (.entity o) _ =>
    if (PoolWorld.exec pg (.entity o) p.world).1.isOk then [(i, p.world.turn)] else []
  | _ => []

/-- The calls of a log that come from the tenants of one schema. -/
def ofSchema (schema : String) (log : List (ι × Turn)) : List (ι × Turn) :=
  log.filter fun e => pg.schemaOf (tenant e.1) = some schema

/-- What the calls of a log make of a table, one after the other. -/
def tableAfter (log : List (ι × Turn)) (table : ProductTable) : ProductTable :=
  log.foldl (fun table e => (((call e.1).on e.2 table).map Prod.snd).getD table) table

/-- The call is answered at its place in the log, by what its own schema's calls have left there. -/
def Answered (tables : String → ProductTable) (log : List (ι × Turn)) (i : ι)
    (answer : ProductAnswer) : Prop :=
  ∃ earlier turn later, log = earlier ++ (i, turn) :: later ∧
    i ∉ earlier.map Prod.fst ∧ i ∉ later.map Prod.fst ∧
    ∃ schema table, pg.schemaOf (tenant i) = some schema ∧
      (call i).on turn (tableAfter call (ofSchema pg tenant schema earlier) (tables schema)) =
        some (answer, table)

/-- Where a call stands: before its statement, before its query, or done. -/
inductive Standing (tables : String → ProductTable) (log : List (ι × Turn)) (i : ι) :
    Queries ProductAnswer → Prop
  | begun : i ∉ log.map Prod.fst → Standing tables log i ((call i).prog (tenant i))
  | selected : i ∉ log.map Prod.fst → Standing tables log i
      ((EntityManager.perform (call i).query).bind fun answer =>
        .pure ((call i).dress answer))
  | failed (e : QueryFailedError) : i ∉ log.map Prod.fst → Standing tables log i (.throw e)
  | answered (answer : ProductAnswer) : Answered pg tenant call tables log i answer →
    Standing tables log i (.pure answer)

structure Linear (tables : String → ProductTable) (p : Calls ι) (log : List (ι × Turn)) : Prop where
  stored : ∀ schema, p.world.tables schema =
    tableAfter call (ofSchema pg tenant schema log) (tables schema)
  standing : ∀ i, Standing pg tenant call tables log i (p.threads i).prog

variable {pg tenant call} {tables : String → ProductTable} {p : Calls ι} {log : List (ι × Turn)} {i : ι}

theorem Answered.append {answer : ProductAnswer} {j : ι} {turn : Turn} (hj : j ≠ i)
    (h : Answered pg tenant call tables log i answer) :
    Answered pg tenant call tables (log ++ [(j, turn)]) i answer := by
  obtain ⟨earlier, own, later, rfl, hEarlier, hLater, hAnswer⟩ := h
  refine ⟨earlier, own, later ++ [(j, turn)], by simp, hEarlier, ?_, hAnswer⟩
  simp [hLater, hj.symm]

theorem Standing.append {prog : Queries ProductAnswer} {j : ι} {turn : Turn} (hj : j ≠ i)
    (h : Standing pg tenant call tables log i prog) :
    Standing pg tenant call tables (log ++ [(j, turn)]) i prog := by
  have hNew : i ∉ log.map Prod.fst → i ∉ (log ++ [(j, turn)]).map Prod.fst := by
    simp [hj.symm]
  cases h with
  | begun h => exact .begun (hNew h)
  | selected h => exact .selected (hNew h)
  | failed e h => exact .failed e (hNew h)
  | answered answer h => exact .answered answer (h.append hj)

theorem ofSchema_snoc (schema : String) (log : List (ι × Turn)) (e : ι × Turn) :
    ofSchema pg tenant schema (log ++ [e]) = ofSchema pg tenant schema log ++
      if pg.schemaOf (tenant e.1) = some schema then [e] else [] := by
  rw [ofSchema, List.filter_append, List.filter_singleton]
  simp [ofSchema]

theorem tableAfter_append (earlier later : List (ι × Turn)) (table : ProductTable) :
    tableAfter call (earlier ++ later) table = tableAfter call later (tableAfter call earlier table) :=
  List.foldl_append

/-- A call is given one connection for its statement and its query, which no other call takes in
between. -/
structure CheckedOut (connection : ι → Nat) (p : Calls ι) (i : ι) : Prop where
  own : (p.threads i).prog.result = none → p.world.turn.connection = connection i
  free : atStatement p i = true → ∀ j, connection j = connection i → atQuery p j = false

instance [Fintype ι] (connection : ι → Nat) (p : Calls ι) (i : ι) :
    Decidable (CheckedOut connection p i) :=
  decidable_of_iff (_ ∧ _) ⟨fun h => ⟨h.1, h.2⟩, fun h => ⟨h.own, h.free⟩⟩

variable (pg tenant) in
/-- The connection of a call that has come to its query leads to its tenant's schema. -/
def Selected (connection : ι → Nat) (p : Calls ι) : Prop :=
  ∀ i, atQuery p i = true →
    pg.searchPath (ProductService.setSearchPath (tenant i)) = some (p.world.path (connection i))

theorem result_of_atQuery (h : atQuery p i = true) : (p.threads i).prog.result = none := by
  unfold atQuery at h
  cases hProg : (p.threads i).prog with
  | op _ _ => rfl
  | pure _ => rw [hProg] at h; cases h
  | throw _ => rw [hProg] at h; cases h

theorem onPath_of_selected {connection : ι → Nat} (h : Selected pg tenant connection p)
    (hOut : CheckedOut connection p i) : OnPath pg tenant p i := by
  intro hQuery
  rw [PoolWorld.target, hOut.own (result_of_atQuery hQuery), Postgres.schemaOf, h i hQuery]
  rfl

theorem linear_called (w : PoolWorld) :
    Linear pg tenant call w.tables (called tenant w call) [] :=
  ⟨fun _ => rfl, fun _ => .begun List.not_mem_nil⟩

theorem selected_called (connection : ι → Nat) (w : PoolWorld) :
    Selected pg tenant connection (called tenant w call) := by
  intro i hQuery
  obtain ⟨k, hBegin, -⟩ := prog_begins (tenant i) (call i)
  simp only [atQuery, called, hBegin] at hQuery
  cases hQuery

variable [DecidableEq ι]

/-- A step that leaves the tables alone and moves its own call on. -/
theorem Linear.silent (h : Linear pg tenant call tables p log) {w : PoolWorld}
    {thread : Thread entityManager QueryFailedError ProductAnswer Access}
    (hTables : w.tables = p.world.tables) (hNext : Standing pg tenant call tables log i thread.prog) :
    Linear pg tenant call tables ⟨w, Function.update p.threads i thread⟩ log where
  stored schema := by rw [hTables, h.stored schema]
  standing j := by
    by_cases hj : j = i
    · subst hj
      simpa only [Function.update_self] using hNext
    · simpa only [Function.update_of_ne hj] using h.standing j

/-- A step in which the query of a call goes through on its own schema's table. -/
theorem Linear.served (h : Linear pg tenant call tables p log) (hNew : i ∉ log.map Prod.fst)
    {schema : String} (hSchema : pg.schemaOf (tenant i) = some schema) {turn : Turn}
    {answer : (call i).query.Res} {table : ProductTable}
    (hExec : (p.world.tables schema).exec turn.now turn.nextval (call i).query = some (answer, table))
    {w : PoolWorld} (hTables : w.tables = Function.update p.world.tables schema table) {ghost : Access} :
    Linear pg tenant call tables
      ⟨w, Function.update p.threads i ⟨.pure ((call i).dress answer), ghost⟩⟩ (log ++ [(i, turn)]) := by
  have hOn : (call i).on turn (tableAfter call (ofSchema pg tenant schema log) (tables schema)) =
      some ((call i).dress answer, table) := by
    rw [← h.stored schema, on_eq, hExec]
    rfl
  refine ⟨fun other => ?_, fun j => ?_⟩
  · rw [hTables, ofSchema_snoc, tableAfter_append, ← h.stored other]
    by_cases hOther : other = schema
    · subst hOther
      rw [← h.stored other] at hOn
      simp [hSchema, tableAfter, hOn]
    · have hElse : pg.schemaOf (tenant i) ≠ some other :=
        fun hSame => hOther (Option.some.inj (hSame.symm.trans hSchema))
      rw [Function.update_of_ne hOther, if_neg hElse]
      rfl
  · by_cases hj : j = i
    · subst hj
      simp only [Function.update_self]
      exact .answered _ ⟨log, turn, [], rfl, hNew, List.not_mem_nil, schema, table, hSchema, hOn⟩
    · simp only [Function.update_of_ne hj]
      exact (h.standing j).append (Ne.symm hj)

theorem linear_step (hOne : (call i).OneStatement) (h : Linear pg tenant call tables p log)
    (hPath : OnPath pg tenant p i) :
    Linear pg tenant call tables (p.step (PoolWorld.exec pg) (protocol pg) i) (log ++ serves pg p i) := by
  have hStanding := h.standing i
  generalize hProg : (p.threads i).prog = prog at hStanding
  cases hStanding with
  | begun hNew =>
    rw [prog_eq _ hOne] at hProg
    have hSilent : serves pg p i = [] := by
      rw [serves, hProg]
      rfl
    rw [Pool.step_op hProg, hSilent, List.append_nil]
    obtain ⟨path, _, hExec⟩ | ⟨e, hExec⟩ :=
      exec_query pg (ProductService.setSearchPath (tenant i)) p.world
    · exact h.silent (by rw [hExec]; rfl) (by rw [hExec]; exact .selected hNew)
    · exact h.silent (by rw [hExec]; rfl) (by rw [hExec]; exact .failed e hNew)
  | selected hNew =>
    have hTarget := hPath (by rw [atQuery, hProg]; rfl)
    rw [Pool.step_op hProg]
    obtain ⟨schema, answer, table, hSchema, hTable, hExec⟩ | ⟨e, hExec⟩ :=
      exec_entity pg (call i).query p.world
    · have hServes : serves pg p i = [(i, p.world.turn)] := by
        rw [serves, hProg]
        exact if_pos (by rw [hExec]; rfl)
      rw [hServes, hExec]
      exact h.served hNew (hTarget.symm.trans hSchema) hTable rfl
    · have hServes : serves pg p i = [] := by
        rw [serves, hProg]
        exact if_neg (by rw [hExec]; exact Bool.false_ne_true)
      rw [hServes, List.append_nil]
      exact h.silent (by rw [hExec]; rfl) (by rw [hExec]; exact .failed e hNew)
  | failed e hNew =>
    rw [Pool.step_idle (by rw [hProg]; rfl), serves, hProg]
    exact (List.append_nil log).symm ▸ h
  | answered answer hAnswered =>
    rw [Pool.step_idle (by rw [hProg]; rfl), serves, hProg]
    exact (List.append_nil log).symm ▸ h

theorem Selected.moved {connection : ι → Nat} (h : Selected pg tenant connection p) {w : PoolWorld}
    {thread : Thread entityManager QueryFailedError ProductAnswer Access}
    (hOwn : atQuery ⟨w, Function.update p.threads i thread⟩ i = true →
      pg.searchPath (ProductService.setSearchPath (tenant i)) = some (w.path (connection i)))
    (hOthers : ∀ j, atQuery p j = true → w.path (connection j) = p.world.path (connection j)) :
    Selected pg tenant connection ⟨w, Function.update p.threads i thread⟩ := by
  intro j hQuery
  by_cases hj : j = i
  · subst hj
    exact hOwn hQuery
  · simp only [atQuery, Function.update_of_ne hj] at hQuery
    rw [h j hQuery, hOthers j hQuery]

theorem selected_step {connection : ι → Nat} {start : PoolWorld} {sets : List (Nat × ι)}
    (hFollowed : Followed pg tenant start call p sets) (h : Selected pg tenant connection p)
    (hOut : CheckedOut connection p i) :
    Selected pg tenant connection (p.step (PoolWorld.exec pg) (protocol pg) i) := by
  have hStanding := hFollowed.standing i
  obtain ⟨k, hBegin, hThrows, -⟩ := prog_begins (tenant i) (call i)
  rw [hBegin] at hStanding
  match hProg : (p.threads i).prog with
  | .pure a => rwa [Pool.step_idle (by rw [hProg]; rfl)]
  | .throw e => rwa [Pool.step_idle (by rw [hProg]; rfl)]
  | .op (.entity o) k' =>
    have hOwn := h i (by rw [atQuery, hProg]; rfl)
    rw [Pool.step_op hProg]
    refine h.moved (fun _ => ?_) fun _ _ => ?_
    · rw [exec_entity_path, hOwn]
    · rw [exec_entity_path]
  | .op (.query sql) k' =>
    rw [hProg] at hStanding
    obtain hNow | ⟨⟨q, hNo⟩, -⟩ := hStanding
    · cases hNow
      rw [Pool.step_op hProg]
      obtain ⟨path, hPath, hExec⟩ | ⟨e, hExec⟩ :=
        exec_query pg (ProductService.setSearchPath (tenant i)) p.world
      · have hConnection := hOut.own (by rw [hProg]; rfl)
        have hFree := hOut.free (by rw [atStatement, hProg]; rfl)
        rw [hExec]
        refine h.moved (fun _ => ?_) fun j hQuery => Function.update_of_ne (fun hSame => ?_) _ _
        · simp [hPath, hConnection]
        · cases (hFree j (hSame.trans hConnection)).symm.trans hQuery
      · rw [hExec]
        refine h.moved (fun hQuery => ?_) fun _ _ => rfl
        simp only [atQuery, Function.update_self, hThrows] at hQuery
        cases hQuery
    · cases hNo

end Runs

end Tenants

open Tenants in
/-- A connection that is kept to one call from its statement to its query leads each query to the
schema of its own tenant, however the calls are interleaved. -/
theorem checkedOut_onPath {ι : Type} [DecidableEq ι] (pg : Postgres) (tenant : ι → String)
    (w : PoolWorld) (call : ι → ProductCall) (connection : ι → Nat) (schedule : List ι)
    (hOut : Pool.Along (PoolWorld.exec pg) (protocol pg) (CheckedOut connection)
      (called tenant w call) schedule) :
    Pool.Along (PoolWorld.exec pg) (protocol pg) (OnPath pg tenant) (called tenant w call)
      schedule := by
  refine Pool.along_imp (J := fun p => (∃ sets, Followed pg tenant w call p sets) ∧
    Selected pg tenant connection p) ?_ (fun _ _ h => onPath_of_selected h.2)
    ⟨⟨[], followed_called w⟩, selected_called connection w⟩ hOut
  rintro p i ⟨⟨sets, hFollowed⟩, hSelected⟩ hStep
  exact ⟨⟨_, followed_step p i sets hFollowed⟩, selected_step hFollowed hSelected hStep⟩

open Tenants in
/-- Where each query finds the search path of its own tenant, the tables and the answers of an
interleaved run of calls of one statement are those of calls made one after the other, in the order
of their queries, on one table for each schema: what a tenant is answered depends on the calls for
its own schema alone. -/
theorem products_linearize {ι : Type} [DecidableEq ι] (pg : Postgres) (tenant : ι → String)
    (w : PoolWorld) (call : ι → ProductCall) (hOne : ∀ i, (call i).OneStatement)
    (schedule : List ι)
    (hPath : Pool.Along (PoolWorld.exec pg) (protocol pg) (OnPath pg tenant) (called tenant w call)
      schedule) :
    let p := (called tenant w call).run (PoolWorld.exec pg) (protocol pg) schedule
    let log := Pool.emitted (PoolWorld.exec pg) (protocol pg) (serves pg) (called tenant w call) schedule
    (∀ schema, p.world.tables schema =
      tableAfter call (ofSchema pg tenant schema log) (w.tables schema)) ∧
    ∀ i, (∀ answer, (p.threads i).prog.result = some (.ok answer) →
        Answered pg tenant call w.tables log i answer) ∧
      ((∀ answer, (p.threads i).prog.result ≠ some (.ok answer)) → i ∉ log.map Prod.fst) := by
  intro p log
  have hEnd : Linear pg tenant call w.tables p ([] ++ log) :=
    Pool.run_emitted (fun _ i _ => linear_step (hOne i)) (linear_called w) hPath
  refine ⟨hEnd.stored, fun i => ?_⟩
  have hStanding := hEnd.standing i
  generalize (p.threads i).prog = prog at hStanding
  cases hStanding with
  | begun hNew =>
    rw [prog_eq _ (hOne i)]
    exact ⟨fun _ h => by (cases h), fun _ => hNew⟩
  | selected hNew => exact ⟨fun _ h => by (cases h), fun _ => hNew⟩
  | failed e hNew => exact ⟨fun _ h => by (cases h), fun _ => hNew⟩
  | answered answer hAnswered =>
    refine ⟨?_, fun hNone => absurd rfl (hNone answer)⟩
    rintro _ ⟨rfl⟩
    exact hAnswered

namespace Sample

/-- The queries take turns on two connections. -/
def twoConnections : PoolWorld :=
  { oneConnection with tape := fun n => { connection := n % 2, nextval := 2 } }

def ownConnection (i : Fin 2) : Nat := i

end Sample

open Tenants in
theorem checkedOut_onPath_sample :
    Pool.Along (PoolWorld.exec Sample.postgres) (protocol Sample.postgres)
      (OnPath Sample.postgres Sample.tenants)
      (called Sample.tenants Sample.twoConnections fun _ => .findAll) [0, 1, 0, 1] :=
  checkedOut_onPath Sample.postgres Sample.tenants Sample.twoConnections (fun _ => .findAll)
    Sample.ownConnection [0, 1, 0, 1] (by decide)

namespace Sample

def newProduct : ProductObject where
  name := .val "bolt"
  description := .val "spare part"
  price := .val "0.20"
  stock := .val 9

/-- One tenant looks its products up while the other creates one. -/
def productCalls : Fin 2 → Tenants.ProductCall
  | 0 => .findAll
  | 1 => .create newProduct

end Sample

open Tenants in
theorem products_linearize_sample :
    Answered Sample.postgres Sample.tenants Sample.productCalls Sample.twoConnections.tables
      (Pool.emitted (PoolWorld.exec Sample.postgres) (protocol Sample.postgres)
        (serves Sample.postgres) (called Sample.tenants Sample.twoConnections Sample.productCalls)
        [0, 1, 0, 1]) 1
      (.product (some { Sample.newProduct with
        id := .val 2
        image := .null
        status := .val true
        createdAt := .val 0
        updatedAt := .val 0 })) :=
  ((products_linearize Sample.postgres Sample.tenants Sample.twoConnections Sample.productCalls
    (Fin.forall_fin_two.mpr ⟨trivial, rfl⟩) [0, 1, 0, 1] (by decide)).2 1).1 _ (by decide)

end Manejaplus
