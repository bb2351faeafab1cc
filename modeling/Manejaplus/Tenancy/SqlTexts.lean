import Manejaplus.Sql.Statements
import Manejaplus.Tenancy.TenantService

/-! # Statements with a name written into them

A schema's name stands between double quotes, in a literal of the `DO` body, and
between double quotes in a text which that body executes.
-/
namespace Manejaplus
open Effect Prog Sql
set_option autoImplicit false

namespace SqlTexts

/-- What the loop executes, up to the name of the table. -/
def executed (n : Text) : Text := "DROP TABLE IF EXISTS \"".toList ++ (n ++ ['"', '.', '"'])

/-- A loop over the tables of one schema, which drops them. -/
def loopTokens (n : Text) : List Token :=
  keywords ["declare", "r", "record"] ++ .symbol ';' ::
    (keywords ["begin", "for", "r", "in"] ++ .symbol '(' ::
      (keywords ["select", "tablename", "from", "pg_tables", "where", "schemaname"] ++ .symbol '=' ::
        .literal n :: .symbol ')' ::
          (keywords ["loop", "execute"] ++ .literal (executed n) :: .symbol '|' :: .symbol '|' ::
            (keywords ["r"] ++ .symbol '.' :: (keywords ["tablename"] ++
              .symbol '|' :: .symbol '|' :: .literal "\" CASCADE".toList :: .symbol ';' ::
                (keywords ["end", "loop"] ++ .symbol ';' :: keywords ["end"]))))))

def literal? : Token → Option Text
  | .literal s => some s
  | _ => none

/-- What is executed begins to name a table of the schema. -/
def NamesTable (n : Text) : Prop :=
  run .gap (executed n) = some (keywords ["drop", "table", "if", "exists"] ++
    [.identifier n, .symbol '.'], .quoted .identifier [])

instance (n : Text) : Decidable (NamesTable n) := inferInstanceAs (Decidable (_ = _))

def loopSchema (ts : List Token) : Option Text :=
  (ts.findSome? literal?).filter fun n => ts = loopTokens n ∧ NamesTable n

/-- The body of a `DO` statement. -/
def doBody : List Token → Option Text
  | [.word d, .body b, .symbol c] => if d = "do".toList ∧ c = ';' then some b else none
  | _ => none

/-- The schema whose tables a `DO` statement drops. -/
def droppedTables (sql : String) : Option Text :=
  ((lex sql).bind doBody).bind fun b => (read .gap b).bind loopSchema

/-- A statement that empties or drops the schema of that name, which is not `public`. -/
def Drops (n : Text) : TenancyOp → Prop
  | .query sql =>
    n ≠ "public".toList ∧ (droppedTables sql = some n ∨ droppedSchema sql = some n)
  | _ => False

/-- No statement but one that creates or selects the schema of that name, or goes back to
`public`. -/
def Creates (n : Text) : TenancyOp → Prop
  | .query sql => createdSchema sql = some n ∨ selectedSchema sql = some n ∨
      selectedSchema sql = some "public".toList
  | _ => True

variable {n : Text}

def opening : String :=
  " DECLARE\n          r RECORD;\n        BEGIN\n          FOR r IN (SELECT tablename FROM pg_tables " ++
    "WHERE schemaname = '"

def middle : String := ") LOOP\n            EXECUTE 'DROP TABLE IF EXISTS \""

def closing : String := " || r.tablename || '\" CASCADE';\n          END LOOP;\n        END "

/-- The tokens in front of the first literal. -/
def firstTokens : List Token :=
  keywords ["declare", "r", "record"] ++ .symbol ';' ::
    (keywords ["begin", "for", "r", "in"] ++ .symbol '(' ::
      (keywords ["select", "tablename", "from", "pg_tables", "where", "schemaname"] ++ [.symbol '=']))

theorem run_opening : run .gap opening.toList = some (firstTokens, .quoted .literal []) := by
  have hText : opening.toList = _ := toList_append_eq String.toList_ofList String.toList_ofList
  rw [hText]
  decide +kernel

theorem opening_dollar : '$' ∉ opening.toList := by
  have hText : opening.toList = _ := toList_append_eq String.toList_ofList String.toList_ofList
  rw [hText]
  decide +kernel

theorem run_middle : run .gap middle.toList = some (.symbol ')' :: keywords ["loop", "execute"],
    .quoted .literal "DROP TABLE IF EXISTS \"".toList) := by
  rw [middle, String.toList_ofList]
  decide +kernel

theorem middle_head : middle.toList.head? = some ')' := by
  rw [middle, String.toList_ofList]
  rfl

theorem read_closing_text : read .gap closing.toList = some (.symbol '|' :: .symbol '|' ::
    (keywords ["r"] ++ .symbol '.' :: (keywords ["tablename"] ++
      .symbol '|' :: .symbol '|' :: .literal "\" CASCADE".toList :: .symbol ';' ::
        (keywords ["end", "loop"] ++ .symbol ';' :: keywords ["end"])))) := by
  rw [closing, String.toList_ofList]
  decide +kernel

theorem toList_tenantName (name UUID : String) : (TenantService.tenantName name UUID).toList =
    name.toList ++ '_' :: UUID.toList := by
  have hUnderscore : "_".toList = ['_'] := by decide
  rw [TenantService.tenantName, toList_append₃, hUnderscore]
  rfl

/-- A text with a name in it twice, in front of a single quote and before one. -/
theorem toList_twice {a c e : String} {c' e' more : Text} (hc : c.toList = '\'' :: c')
    (he : e.toList = e' ++ '\'' :: more) (n : String) : (a ++ n ++ c ++ n ++ e).toList =
      a.toList ++ (n.toList ++ '\'' :: (c' ++ ((n.toList ++ e') ++ '\'' :: more))) := by
  simp only [String.toList_append, hc, he, List.append_assoc, List.cons_append]

theorem toList_body (n : String) : (TenantService.dropTablesBody n).toList = opening.toList ++
    (n.toList ++ '\'' :: (middle.toList ++
      ((n.toList ++ ['"', '.', '"']) ++ '\'' :: closing.toList))) := by
  have hMiddle : ("') LOOP\n            EXECUTE 'DROP TABLE IF EXISTS \"" : String).toList =
      '\'' :: middle.toList := by
    rw [middle, String.toList_ofList, String.toList_ofList]
  have hClosing : ("\".\"' || r.tablename || '\" CASCADE';\n          END LOOP;\n        END " :
      String).toList = ['"', '.', '"'] ++ '\'' :: closing.toList := by
    rw [closing, String.toList_ofList, String.toList_ofList]
    rfl
  exact toList_twice (a := opening) hMiddle hClosing n

theorem toList_dropTables (n : String) : (TenantService.dropTables n).toList =
    "\n        DO $$".toList ++ ((TenantService.dropTablesBody n).toList ++ "$$;\n      ".toList) :=
  toList_append₃ _ _ _

theorem run_do : run .gap "\n        DO $$".toList = some ([.word "do".toList], .body []) := by
  rw [String.toList_ofList]
  decide

theorem lex_dropTables (n : String) : lex (TenantService.dropTables n) =
    (read (.body []) ((TenantService.dropTablesBody n).toList ++ "$$;\n      ".toList)).map
      (.word "do".toList :: ·) := by
  rw [lex, toList_dropTables, read_append run_do]
  rfl

theorem dollars_body (n : String) :
    dollars <:+: (TenantService.dropTablesBody n).toList ++ ['$'] ↔ dollars <:+: n.toList := by
  have hMiddle : '$' ∉ middle.toList := by
    rw [middle, String.toList_ofList]
    decide
  have hClosing : ¬ dollars <:+: closing.toList ++ ['$'] := by
    rw [closing, String.toList_ofList]
    decide +kernel
  have hName : ∀ more : Text, dollars <:+: (n.toList ++ ['"', '.', '"']) ++ '\'' :: more ↔
      dollars <:+: n.toList ∨ dollars <:+: more := fun more => by
    rw [List.append_assoc, List.cons_append, dollars_split (c := '"') (by decide)]
    apply or_congr_right
    rw [List.cons_append, List.cons_append, dollars_cons (by decide), dollars_cons (by decide),
      List.nil_append, dollars_cons (by decide)]
  rw [toList_body, List.append_assoc, dollars_append opening_dollar, List.append_assoc,
    List.cons_append, dollars_split (c := '\'') (by decide), List.append_assoc,
    dollars_append hMiddle, List.append_assoc, List.cons_append, hName, or_iff_left hClosing, or_self]

theorem read_dropTablesBody (n : String) : read .gap (TenantService.dropTablesBody n).toList =
    (read (.quoted .literal []) (n.toList ++ '\'' :: (middle.toList ++
      ((n.toList ++ ['"', '.', '"']) ++ '\'' :: closing.toList)))).map (firstTokens ++ ·) := by
  rw [toList_body, read_append run_opening]

theorem findSome_firstTokens (ts : List Token) :
    (firstTokens ++ ts).findSome? literal? = ts.findSome? literal? := by
  have hNone : firstTokens.findSome? literal? = none := by decide
  rw [List.findSome?_append, hNone, Option.none_or]

theorem loopSchema_eq_some {ts : List Token} :
    loopSchema ts = some n ↔ ts.findSome? literal? = some n ∧ ts = loopTokens n ∧ NamesTable n := by
  simp [loopSchema, Option.filter_eq_some_iff]

/-- The first literal of the body tells which schema the loop is about. -/
theorem literal_of_loop {cs : Text}
    (h : ((read (.quoted .literal []) cs).map (firstTokens ++ ·)).bind loopSchema = some n) :
    ∃ rest, cs = double '\'' n ++ '\'' :: rest ∧ rest.head? ≠ some '\'' := by
  obtain ⟨_, hMap, hLoop⟩ := Option.bind_eq_some_iff.mp h
  obtain ⟨_, hRead, rfl⟩ := Option.map_eq_some_iff.mp hMap
  obtain ⟨v, rest, t, ts, rfl, hRest, hToken, _, rfl⟩ := read_quoted hRead
  have hFirst := (loopSchema_eq_some.mp hLoop).1
  rw [findSome_firstTokens] at hFirst
  cases hToken
  cases hFirst
  exact ⟨rest, rfl, hRest⟩

theorem namesTable (h : Quotable n) : NamesTable n := by
  have hDrop : run .gap "DROP TABLE IF EXISTS \"".toList =
      some (keywords ["drop", "table", "if", "exists"], .quoted .identifier []) := by
    rw [String.toList_ofList]
    decide
  exact run_qualifier h hDrop

theorem read_loop (hLiteral : '\'' ∉ n) :
    read .gap (middle.toList ++ ((n ++ ['"', '.', '"']) ++ '\'' :: closing.toList)) =
      (read .gap closing.toList).map fun ts =>
        .symbol ')' :: keywords ["loop", "execute"] ++ .literal (executed n) :: ts := by
  have hExecuted : '\'' ∉ n ++ ['"', '.', '"'] := by
    rw [List.mem_append, not_or]
    exact ⟨hLiteral, by decide⟩
  have hHead : closing.toList.head? ≠ some '\'' := by
    rw [closing, String.toList_ofList]
    decide
  rw [read_append run_middle, read_literal hExecuted hHead, Option.map_map]
  rfl

theorem loopSchema_body {n : String} (hName : Quotable n.toList) (hLiteral : '\'' ∉ n.toList) :
    (read .gap (TenantService.dropTablesBody n).toList).bind loopSchema = some n.toList := by
  have hHead : ∀ more : Text, (middle.toList ++ more).head? ≠ some '\'' := by
    intro more h
    rw [List.head?_append, middle_head] at h
    cases h
  rw [read_dropTablesBody, read_literal hLiteral (hHead _), List.nil_append, read_loop hLiteral,
    read_closing_text]
  exact loopSchema_eq_some.mpr ⟨rfl, rfl, namesTable hName⟩

theorem doBody_eq (b : Text) : doBody [.word "do".toList, .body b, .symbol ';'] = some b := by
  simp only [doBody, and_self, if_true]

theorem doBody_first {b b' : Text} {ts : List Token}
    (h : doBody (.word "do".toList :: .body b :: ts) = some b') : b = b' := by
  unfold doBody at h
  split at h
  · rename_i hTokens
    cases hTokens
    split at h <;> cases h
    rfl
  · cases h

/-- A name without `$$` leaves the body whole. -/
theorem droppedTables_eq {n : String} (h : ¬ dollars <:+: n.toList) :
    droppedTables (TenantService.dropTables n) =
      (read .gap (TenantService.dropTablesBody n).toList).bind loopSchema := by
  have hEnd : "$$;\n      ".toList = '$' :: '$' :: ";\n      ".toList := by decide
  have hSemicolon : read .gap ";\n      ".toList = some [.symbol ';'] := by decide
  rw [droppedTables, lex_dropTables, hEnd, read_body (by rwa [dollars_body]), hSemicolon]
  simp only [Option.map_some, Option.bind_some, doBody_eq]

/-- A name with `$$` in it ends the body in the middle of its first literal. -/
theorem droppedTables_dollars {n : String} (h : dollars <:+: n.toList) :
    droppedTables (TenantService.dropTables n) ≠ some n.toList := by
  obtain ⟨a, e, hName, hFirst⟩ := dollars_first h
  have hBody : ∀ more : Text, read (.body []) ((opening.toList ++ (n.toList ++ more))) =
      (read .gap (e ++ more)).map (.body (opening.toList ++ a) :: ·) := fun more => by
    rw [hName, List.append_assoc, List.cons_append, List.cons_append, ← List.append_assoc]
    apply read_body
    rwa [List.append_assoc, dollars_append opening_dollar]
  intro hDropped
  rw [droppedTables, lex_dropTables, toList_body, List.append_assoc, List.append_assoc, hBody,
    Option.map_map] at hDropped
  obtain ⟨b, hDo, hLoop⟩ := Option.bind_eq_some_iff.mp hDropped
  obtain ⟨_, hLex, hDo⟩ := Option.bind_eq_some_iff.mp hDo
  obtain ⟨_, _, rfl⟩ := Option.map_eq_some_iff.mp hLex
  cases doBody_first hDo
  rw [read_append run_opening] at hLoop
  obtain ⟨rest, hText, _⟩ := literal_of_loop hLoop
  have hLength := congrArg List.length hText
  have hDouble := length_le_double '\'' n.toList
  have hShort := congrArg List.length hName
  simp only [List.length_append, List.length_cons] at hLength hShort
  omega

theorem droppedTables_iff {n : String} (hName : Quotable n.toList) :
    droppedTables (TenantService.dropTables n) = some n.toList ↔
      '\'' ∉ n.toList ∧ ¬ dollars <:+: n.toList := by
  constructor
  · intro h
    have hDollars : ¬ dollars <:+: n.toList := fun hIn => droppedTables_dollars hIn h
    rw [droppedTables_eq hDollars, read_dropTablesBody] at h
    obtain ⟨rest, hText, hRest⟩ := literal_of_loop h
    refine ⟨?_, hDollars⟩
    refine not_mem_of_double (e := []) (by rwa [List.append_nil]) (.inr ⟨rfl, ?_⟩)
    rw [List.head?_append, middle_head]
    exact fun h => absurd (Option.some.inj h) (by decide)
  · rintro ⟨hLiteral, hDollars⟩
    rw [droppedTables_eq hDollars]
    exact loopSchema_body hName hLiteral

theorem run_dropSchema : run .gap "DROP SCHEMA IF EXISTS \"".toList =
    some (keywords ["drop", "schema", "if", "exists"], .quoted .identifier []) := by
  rw [String.toList_ofList]
  decide

theorem toList_dropSchema (n : String) : (TenantService.dropSchema n).toList =
    "DROP SCHEMA IF EXISTS \"".toList ++ (n.toList ++ '"' :: " CASCADE".toList) := by
  have hTail : "\" CASCADE".toList = '"' :: " CASCADE".toList := by decide
  have hText := toList_append₃ "DROP SCHEMA IF EXISTS \"" n "\" CASCADE"
  rwa [hTail] at hText

theorem droppedSchema_iff {n : String} :
    droppedSchema (TenantService.dropSchema n) = some n.toList ↔ Quotable n.toList := by
  have hCascade : read .gap " CASCADE".toList = some (keywords ["cascade"]) := by decide
  rw [droppedSchema, named_lex (toList_dropSchema n) run_dropSchema]
  exact takes_quotable (takes_named ["cascade"]) (by decide) hCascade rfl

/-- The two statements of a deletion are told apart. -/
theorem droppedSchema_dropTables (n : String) :
    droppedSchema (TenantService.dropTables n) = none :=
  named_lex_other (toList_dropTables n) run_do (by decide)

theorem droppedTables_dropSchema (n : String) : droppedTables (TenantService.dropSchema n) = none := by
  rw [droppedTables, lex, toList_dropSchema, read_append run_dropSchema]
  cases read (.quoted .identifier []) _ with
  | none => rfl
  | some ts => rfl

theorem toList_quote : "\"".toList = ['"'] := by decide

theorem run_createSchema : run .gap "CREATE SCHEMA IF NOT EXISTS \"".toList =
    some (keywords ["create", "schema", "if", "not", "exists"], .quoted .identifier []) := by
  rw [String.toList_ofList]
  decide

theorem run_setSearchPath : run .gap "SET search_path TO \"".toList =
    some (keywords ["set", "search_path", "to"], .quoted .identifier []) := by
  rw [String.toList_ofList]
  decide

theorem createdSchema_eq (n : String) : createdSchema (TenantService.createSchema n) =
    (read (.quoted .identifier []) (n.toList ++ ['"'])).bind (named [] []) := by
  have hText := toList_append₃ "CREATE SCHEMA IF NOT EXISTS \"" n "\""
  rw [toList_quote] at hText
  exact named_lex hText run_createSchema

theorem selectedPath_eq (n : String) : selectedPath (TenantService.setSearchPath n) =
    (read (.quoted .identifier []) (n.toList ++ ['"'])).bind (path true) := by
  have hText := toList_append₃ "SET search_path TO \"" n "\""
  rw [toList_quote] at hText
  exact path_lex hText run_setSearchPath

theorem createdSchema_iff {n : String} :
    createdSchema (TenantService.createSchema n) = some n.toList ↔ Quotable n.toList := by
  rw [createdSchema_eq]
  exact takes_quotable (takes_named []) List.not_mem_nil rfl rfl

theorem selectedSchema_iff {n : String} :
    selectedSchema (TenantService.setSearchPath n) = some n.toList ↔ Quotable n.toList := by
  rw [selectedSchema, selectedPath_eq, Option.bind_assoc]
  exact takes_quotable takes_firstValue List.not_mem_nil rfl rfl

theorem createdSchema_setSearchPath (n : String) :
    createdSchema (TenantService.setSearchPath n) = none :=
  named_lex_other (toList_append₃ "SET search_path TO \"" n "\"") run_setSearchPath (by decide)

theorem createdSchema_dropTables (n : String) :
    createdSchema (TenantService.dropTables n) = none :=
  named_lex_other (toList_dropTables n) run_do (by decide)

theorem selectedPath_dropTables (n : String) : selectedPath (TenantService.dropTables n) = none :=
  selectedPath_other (toList_dropTables n) run_do (by decide)

theorem createdSchema_dropSchema (n : String) :
    createdSchema (TenantService.dropSchema n) = none :=
  named_lex_other (toList_dropSchema n) run_dropSchema (by decide)

theorem selectedPath_dropSchema (n : String) : selectedPath (TenantService.dropSchema n) = none :=
  selectedPath_other (toList_dropSchema n) run_dropSchema (by decide)

theorem selectedSchema_createSchema (n : String) :
    selectedSchema (TenantService.createSchema n) = none :=
  congrArg (Option.bind · List.head?) (selectedPath_other
    (toList_append₃ "CREATE SCHEMA IF NOT EXISTS \"" n "\"") run_createSchema (by decide))

variable {cases : CaseMapping} {allowed : TenancyOp → Prop}

theorem uses_deleteSchemaClient {n : String} (h : cases.toLowerCase n ≠ "public") :
    (TenantService.deleteSchemaClient cases n).Uses allowed ↔
      allowed (.query (TenantService.dropTables n)) ∧ allowed (.query (TenantService.dropSchema n)) := by
  rw [TenantService.deleteSchemaClient, if_neg h]
  constructor
  · intro hUses
    exact ⟨hUses.1, (hUses.2 (.ok ())).1⟩
  · rintro ⟨hTables, hSchema⟩
    refine uses_catching (uses_bind (uses_perform hTables) fun _ =>
      uses_bind (uses_perform hSchema) fun _ => trivial) fun _ => trivial

theorem uses_setUpSchema {name : String} {tenantCreated : OrganizationObject}
    (hCount : allowed (.countSchemata name))
    (hCreate : allowed (.query (TenantService.createSchema name)))
    (hSelect : allowed (.query (TenantService.setSearchPath name)))
    (hClient : ∀ o ∈ [TenancyOp.initializeClient name, .synchronize name, .destroy name], allowed o)
    (hPublic : allowed (.query (TenantService.setSearchPath "public"))) :
    (TenantService.setUpSchema name tenantCreated).Uses allowed := by
  have hInitialize := hClient (.initializeClient name) (by simp)
  have hSynchronize := hClient (.synchronize name) (by simp)
  have hDestroy := hClient (.destroy name) (by simp)
  refine uses_bind (uses_bind (uses_perform hCount) fun _ => trivial) fun schemaExists => ?_
  cases schemaExists with
  | true => trivial
  | false =>
    refine uses_bind (uses_perform hCreate) fun _ => uses_bind (uses_perform hSelect) fun _ => ?_
    refine uses_bind (uses_perform hInitialize) fun _ => ?_
    refine uses_bind (uses_perform hSynchronize) fun _ => ?_
    refine uses_bind (uses_perform hDestroy) fun _ => uses_bind (uses_perform hPublic) fun _ => ?_
    cases tenantCreated.id <;> trivial

theorem uses_createSchemaOf {tenantModel : TenantModel} {name : String}
    (hName : tenantModel.name = .val name) :
    (TenantService.createSchemaOf tenantModel).Uses (Creates n) ↔
      Creates n (.query (TenantService.createSchema name)) ∧
        Creates n (.query (TenantService.setSearchPath name)) := by
  have hPublic : Creates n (.query (TenantService.setSearchPath "public")) :=
    .inr (.inr (selectedSchema_iff.mpr (by decide)))
  rw [TenantService.createSchemaOf, hName]
  constructor
  · intro hUses
    have hCreated := (hUses.2 (.ok tenantModel)).2 (.ok 0)
    exact ⟨hCreated.1, (hCreated.2 (.ok ())).1⟩
  · rintro ⟨hCreate, hSelect⟩
    refine uses_bind (uses_perform trivial) fun _ => uses_setUpSchema trivial hCreate hSelect ?_ hPublic
    simp [Creates]

end SqlTexts

open SqlTexts in
/-- A deletion is refused, or keeps to its schema exactly if the name closes none of the three
quotations it is written into and is not cut off. For a creation the double quotes are enough. -/
theorem schema_statements_intended (cases : CaseMapping)
    (hPublic : cases.toLowerCase "public" = "public") (schemaName : String)
    (tenantModel : TenantModel) (UUID : String) :
    ((TenantService.deleteSchemaClient cases schemaName).Uses (Drops schemaName.toList) ↔
      cases.toLowerCase schemaName = "public" ∨
        (Quotable schemaName.toList ∧ '\'' ∉ schemaName.toList ∧
          ¬ dollars <:+: schemaName.toList)) ∧
    ((TenantService.createSchemaOf { tenantModel with
        name := .val (TenantService.tenantName tenantModel.name.template UUID) }).Uses
      (Creates (TenantService.tenantName tenantModel.name.template UUID).toList) ↔
        Quotable (TenantService.tenantName tenantModel.name.template UUID).toList) := by
  constructor
  · by_cases hRefused : cases.toLowerCase schemaName = "public"
    · refine iff_of_true ?_ (.inl hRefused)
      rw [TenantService.deleteSchemaClient, if_pos hRefused]
      trivial
    · have hNotPublic : schemaName.toList ≠ "public".toList := by
        intro h
        rw [String.toList_inj.mp h] at hRefused
        exact hRefused hPublic
      rw [uses_deleteSchemaClient hRefused, or_iff_right hRefused]
      simp only [Drops, droppedSchema_dropTables, droppedTables_dropSchema, reduceCtorEq, or_false,
        false_or, and_iff_right hNotPublic]
      rw [droppedSchema_iff, and_comm]
      exact and_congr_right droppedTables_iff
  · rw [uses_createSchemaOf rfl]
    simp only [Creates, selectedSchema_createSchema, reduceCtorEq, or_false, createdSchema_iff,
      selectedSchema_iff]
    exact ⟨fun h => h.1, fun h => ⟨h, .inr (.inl h)⟩⟩

theorem schema_statements_intended_sample :
    (TenantService.deleteSchemaClient ⟨String.toUpper, String.toLower⟩ "acme").Uses
      (SqlTexts.Drops "acme".toList) :=
  (schema_statements_intended ⟨String.toUpper, String.toLower⟩ (by decide +kernel) "acme" {} "1").1.mpr
    (.inr (by decide))

/-- The statement that drops the schema of this name drops `public` after it. -/
theorem schema_statements_not_intended :
    let schemaName := "x\" CASCADE; DROP SCHEMA \"public"
    ¬ (TenantService.deleteSchemaClient ⟨String.toUpper, String.toLower⟩ schemaName).Uses
        (SqlTexts.Drops schemaName.toList) ∧
      lex (TenantService.dropSchema schemaName) =
        some (keywords ["drop", "schema", "if", "exists"] ++ [.identifier "x".toList] ++
          keywords ["cascade"] ++ [.symbol ';'] ++
          keywords ["drop", "schema"] ++ [.identifier "public".toList] ++ keywords ["cascade"]) := by
  constructor
  · intro hUses
    have hRefused : String.toLower "x\" CASCADE; DROP SCHEMA \"public" ≠ "public" := by decide +kernel
    have hNames := ((SqlTexts.uses_deleteSchemaClient hRefused).mp hUses).2.2
    rw [SqlTexts.droppedSchema_iff, SqlTexts.droppedTables_dropSchema] at hNames
    simp only [reduceCtorEq, false_or] at hNames
    exact absurd hNames.plain (by decide)
  · decide +kernel

end Manejaplus
