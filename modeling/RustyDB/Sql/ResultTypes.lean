import Mathlib
import RustyDB.Sql.Reads
import RustyDB.Sql.Shapes
import RustyDB.Sql.Texts

/-!
# Types of results

The executor has no type checker: an expression has the values it happens to have.  All the
same, the schemas alone decide which types these are.

* `exprType`, `queryShape` and their siblings — the types of an expression and the shape of
  a query, from the schemas and the syntax.
* `hasType_evalExpr`, `fits_executeQuery` — **what is evaluated is of these types**, through
  joins, groups, subqueries and common table expressions.
* `query_of_step` — only a query answers rows.
* `select_results_typed` — the results that clients get, whatever they have called before.
-/

namespace RustyDB
namespace Sql

/-! ## Types from schemas -/

/-- The shapes of what WITH clauses have bound. -/
abbrev CteShapes := AList (fun _ : String => Shape)

/-- The schemas of a catalog. -/
def Tables.schemas (tables : Tables) (name : String) : Option TableSchema :=
  (tables.lookup name).map Table.schema

/-- The type of the column that a reference finds; TEXT when there is none. -/
def columnType (shape : Shape) (qualifier : Option String) (name : String) : DataType :=
  match resolveColumn shape.columns qualifier name with
  | .ok index => (shape[index]?.map Prod.snd).getD .text
  | .error _ => .text

mutual

/-- The type of an expression over a row of a shape. -/
def exprType (schemas : String → Option TableSchema) (ctes : CteShapes) (shape : Shape) :
    Expr → DataType
  | .literal value => value.dataType
  | .parameter _ => .text
  | .incoming _ => .text
  | .column qualifier name => columnType shape qualifier name
  | .unary op expr => unaryType op (exprType schemas ctes shape expr)
  | .binary left op right =>
    binaryType op (exprType schemas ctes shape left) (exprType schemas ctes shape right)
  | .isNull _ _ => .boolean
  | .like _ _ _ => .boolean
  | .inList _ _ _ => .boolean
  | .inSubquery _ _ _ => .boolean
  | .exist _ _ => .boolean
  | .scalarSubquery query => ((queryShape schemas ctes query).head?.map Prod.snd).getD .text
  | .aggregate function none _ => aggregateType function .integer
  | .aggregate function (some expr) _ => aggregateType function (exprType schemas ctes shape expr)

/-- The shape of a projection of rows of a shape. -/
def itemsShape (schemas : String → Option TableSchema) (ctes : CteShapes) (shape : Shape) :
    List SelectItem → Shape
  | [] => []
  | .wildcard qualifier :: items =>
    shape.filter (fun entry => wildcardCovers qualifier entry.1) ++
      itemsShape schemas ctes shape items
  | .expr expr asName :: items =>
    (outputColumn expr asName, exprType schemas ctes shape expr) ::
      itemsShape schemas ctes shape items

/-- The WITH clauses, each visible to the later ones. -/
def ctesShapes (schemas : String → Option TableSchema) (clauses : List Cte) (ctes : CteShapes) :
    CteShapes :=
  match clauses with
  | [] => ctes
  | ⟨name, columns, query⟩ :: clauses =>
    ctesShapes schemas clauses
      (ctes.insert name (cteShape name columns (queryShape schemas ctes query)))

/-- The shape of a table of FROM: of a CTE, of a table of the catalog, or of a derived table. -/
def sourceShape (schemas : String → Option TableSchema) (ctes : CteShapes) :
    TableSource → Shape
  | .table name asName =>
    match ctes.lookup name with
    | some shape => shape.renameTable (asName.getD name)
    | none => ((schemas name).map (schemaShape (asName.getD name))).getD []
  | .derived query asName => (queryShape schemas ctes query).renameTable asName

/-- The shape behind a chain of joins: the columns side by side. -/
def joinsShape (schemas : String → Option TableSchema) (ctes : CteShapes) (joins : List Join)
    (shape : Shape) : Shape :=
  match joins with
  | [] => shape
  | ⟨_, source, _⟩ :: joins =>
    joinsShape schemas ctes joins (shape ++ sourceShape schemas ctes source)

/-- The shape of an optional FROM. -/
def fromShape (schemas : String → Option TableSchema) (ctes : CteShapes) :
    Option TableSource → Shape
  | none => []
  | some source => sourceShape schemas ctes source

/-- **The shape of a query.** -/
def queryShape (schemas : String → Option TableSchema) (inherited : CteShapes) (query : Query) :
    Shape :=
  match query with
  | ⟨clauses, _, projection, source, joins, _, _, _, _, _⟩ =>
    itemsShape schemas (ctesShapes schemas clauses inherited)
      (joinsShape schemas (ctesShapes schemas clauses inherited) joins
        (fromShape schemas (ctesShapes schemas clauses inherited) source)) projection

end

/-! ## Expressions and queries -/

/-- Every CTE in scope has the shape that is known for its name. -/
def CtesFit (ctes : Ctes) (shapes : CteShapes) : Prop :=
  ∀ name, Option.Rel Relation.Fits (ctes.lookup name) (shapes.lookup name)

theorem ctesFit_empty : CtesFit ∅ ∅ := by
  intro name
  exact Option.Rel.none

theorem CtesFit.insert {ctes : Ctes} {shapes : CteShapes} (h : CtesFit ctes shapes) {name : String}
    {relation : Relation} {shape : Shape} (hfits : relation.Fits shape) :
    CtesFit (ctes.insert name relation) (shapes.insert name shape) := by
  intro other
  by_cases hother : other = name
  · subst hother
    rw [AList.lookup_insert, AList.lookup_insert]
    exact Option.Rel.some hfits
  · rw [AList.lookup_insert_ne hother, AList.lookup_insert_ne hother]
    exact h other

section Evaluation

variable {H : Host} {tables : Tables} {ctes : Ctes} {shapes : CteShapes} {shape : Shape}

theorem projectionColumns_shape {items : List SelectItem} {columns : List BoundColumn}
    (h : projectionColumns items shape.columns = .ok columns) :
    columns = (itemsShape tables.schemas shapes shape items).columns := by
  induction items generalizing columns with
  | nil =>
    obtain rfl := Except.ok.inj h
    rw [itemsShape]
    rfl
  | cons item items ih =>
    obtain ⟨first, rest, hfirst, hrest, rfl⟩ := projectionColumns_cons_eq_ok h
    obtain rfl := ih hrest
    cases item with
    | wildcard qualifier =>
      rw [itemsShape, columns_append]
      simp only [itemColumns] at hfirst
      split_ifs at hfirst
      obtain rfl := Except.ok.inj hfirst
      rw [Shape.columns, List.filter_map]
      rfl
    | expr expr asName =>
      rw [itemsShape]
      obtain rfl := Except.ok.inj hfirst
      rfl

/-- A value of a subquery that returns one column. -/
theorem hasType_scalarSubqueryValue {relation : Relation} {value : Value}
    (hfits : relation.Fits shape) (h : scalarSubqueryValue relation = .ok value) :
    value.HasType ((shape.head?.map Prod.snd).getD .text) := by
  rw [scalarSubqueryValue] at h
  split_ifs at h
  cases hrows : relation.rows with
  | nil =>
    rw [hrows] at h
    obtain rfl := Except.ok.inj h
    exact Value.hasType_null _
  | cons row rows =>
    rw [hrows] at h
    cases rows with
    | cons _ _ => cases h
    | nil =>
      have hrow := hfits.rows row (hrows ▸ List.mem_singleton_self row)
      simp only [rowAt] at h
      split at h
      · rename_i hvalue
        obtain rfl := Except.ok.inj h
        obtain ⟨entry, hentry, htype⟩ := hrow.hasType_getElem hvalue
        rw [← List.head?_eq_getElem?] at hentry
        rwa [hentry]
      · cases h

theorem hasType_column {qualifier : Option String} {name : String} {row : Row} {value : Value}
    (hrow : shape.Admits row)
    (h : evalExpr H tables (.column qualifier name) shape.columns row group ctes = .ok value) :
    value.HasType (columnType shape qualifier name) := by
  rw [evalExpr] at h
  obtain ⟨index, hindex, h⟩ := Result.bind_eq_ok.mp h
  rw [columnType, hindex]
  split at h
  · rename_i hvalue
    obtain rfl := Except.ok.inj h
    obtain ⟨entry, hentry, htype⟩ := hrow.hasType_getElem hvalue
    simp only [hentry]
    exact htype
  · cases h

theorem hasType_and {left right : Expr} {columns : List BoundColumn} {row : Row}
    {group : Option (List Row)} {value : Value}
    (h : evalExpr H tables (.binary left .and right) columns row group ctes = .ok value) :
    value.HasType .boolean := by
  rw [evalExpr_and] at h
  obtain ⟨first, -, h⟩ := Result.bind_eq_ok.mp h
  split_ifs at h
  · obtain rfl := Except.ok.inj h
    exact fun _ => rfl
  · obtain ⟨second, -, h⟩ := Result.bind_eq_ok.mp h
    obtain rfl := Except.ok.inj h
    exact hasType_truthValue _

theorem hasType_or {left right : Expr} {columns : List BoundColumn} {row : Row}
    {group : Option (List Row)} {value : Value}
    (h : evalExpr H tables (.binary left .or right) columns row group ctes = .ok value) :
    value.HasType .boolean := by
  rw [evalExpr_or] at h
  obtain ⟨first, -, h⟩ := Result.bind_eq_ok.mp h
  split_ifs at h
  · obtain rfl := Except.ok.inj h
    exact fun _ => rfl
  · obtain ⟨second, -, h⟩ := Result.bind_eq_ok.mp h
    obtain rfl := Except.ok.inj h
    exact hasType_truthValue _

variable (hexact : tables.All Table.Exact) (hhost : H.Rearranges)

include hexact hhost

-- the siblings take both for each other
set_option linter.unusedSectionVars false

mutual

/-- **What an expression evaluates to** is of its type. -/
theorem hasType_evalExpr (expr : Expr) {ctes : Ctes} {shapes : CteShapes} {shape : Shape}
    {row : Row} {group : Option (List Row)} {value : Value} (hctes : CtesFit ctes shapes)
    (hrow : shape.Admits row) (hgroup : ∀ rows ∈ group, ∀ member ∈ rows, shape.Admits member)
    (h : evalExpr H tables expr shape.columns row group ctes = .ok value) :
    value.HasType (exprType tables.schemas shapes shape expr) := by
  match expr with
  | .literal literal =>
    rw [evalExpr] at h
    obtain rfl := Except.ok.inj h
    rw [exprType]
    exact hasType_dataType literal
  | .parameter _ =>
    rw [evalExpr] at h
    cases h
  | .incoming _ =>
    rw [evalExpr] at h
    cases h
  | .column qualifier name =>
    rw [exprType]
    exact hasType_column hrow h
  | .unary op operand =>
    rw [evalExpr] at h
    obtain ⟨before, hbefore, h⟩ := Result.bind_eq_ok.mp h
    rw [exprType]
    exact hasType_evalUnary (hasType_evalExpr operand hctes hrow hgroup hbefore) h
  | .binary left op right =>
    rw [exprType]
    by_cases hand : op = .and
    · subst hand
      exact hasType_and h
    by_cases hor : op = .or
    · subst hor
      exact hasType_or h
    rw [evalExpr_binary _ _ _ _ _ _ _ _ hand hor] at h
    obtain ⟨first, hfirst, h⟩ := Result.bind_eq_ok.mp h
    obtain ⟨second, hsecond, h⟩ := Result.bind_eq_ok.mp h
    exact hasType_evalBinary hand hor (hasType_evalExpr left hctes hrow hgroup hfirst)
      (hasType_evalExpr right hctes hrow hgroup hsecond) h
  | .isNull operand negated =>
    rw [evalExpr] at h
    obtain ⟨before, -, h⟩ := Result.bind_eq_ok.mp h
    obtain rfl := Except.ok.inj h
    rw [exprType]
    exact fun _ => rfl
  | .like operand pattern negated =>
    rw [evalExpr] at h
    obtain ⟨before, -, h⟩ := Result.bind_eq_ok.mp h
    obtain ⟨shown, -, h⟩ := Result.bind_eq_ok.mp h
    obtain rfl := Except.ok.inj h
    rw [exprType]
    exact hasType_truthValue _
  | .inList operand list negated =>
    rw [evalExpr] at h
    obtain ⟨before, -, h⟩ := Result.bind_eq_ok.mp h
    obtain ⟨values, -, h⟩ := Result.bind_eq_ok.mp h
    obtain rfl := Except.ok.inj h
    rw [exprType]
    exact hasType_truthValue _
  | .inSubquery operand query negated =>
    rw [evalExpr] at h
    obtain ⟨before, -, h⟩ := Result.bind_eq_ok.mp h
    obtain ⟨relation, -, h⟩ := Result.bind_eq_ok.mp h
    split_ifs at h <;> obtain rfl := Except.ok.inj h <;> rw [exprType] <;>
      exact hasType_truthValue _
  | .exist query negated =>
    rw [evalExpr] at h
    obtain ⟨relation, -, h⟩ := Result.bind_eq_ok.mp h
    obtain rfl := Except.ok.inj h
    rw [exprType]
    exact fun _ => rfl
  | .scalarSubquery query =>
    rw [evalExpr] at h
    obtain ⟨relation, hrelation, h⟩ := Result.bind_eq_ok.mp h
    rw [exprType]
    exact hasType_scalarSubqueryValue (fits_executeQuery query hctes hrelation) h
  | .aggregate function none distinct =>
    rw [exprType]
    cases group with
    | none =>
      rw [evalExpr] at h
      cases h
    | some group =>
      rw [evalExpr] at h
      refine hasType_finishAggregate (fun value hvalue => ?_) h
      obtain rfl := List.eq_of_mem_replicate hvalue
      exact fun _ => rfl
  | .aggregate function (some operand) distinct =>
    rw [exprType]
    cases group with
    | none =>
      rw [evalExpr] at h
      cases h
    | some group =>
      rw [evalExpr] at h
      obtain ⟨values, hvalues, h⟩ := Result.bind_eq_ok.mp h
      refine hasType_finishAggregate (fun value hvalue => ?_) h
      obtain ⟨member, hmember, hrun⟩ := Result.mem_of_mapM hvalues hvalue
      exact hasType_evalExpr operand hctes (hgroup group rfl member hmember)
        (fun rows hrows => by cases hrows) hrun

theorem admits_projectRow (items : List SelectItem) {ctes : Ctes} {shapes : CteShapes}
    {shape : Shape} {row projected : Row} {group : Option (List Row)} (hctes : CtesFit ctes shapes)
    (hrow : shape.Admits row) (hgroup : ∀ rows ∈ group, ∀ member ∈ rows, shape.Admits member)
    (h : projectRow H tables items shape.columns row group ctes = .ok projected) :
    (itemsShape tables.schemas shapes shape items).Admits projected := by
  match items with
  | [] =>
    rw [projectRow] at h
    obtain rfl := Except.ok.inj h
    rw [itemsShape]
    exact List.Forall₂.nil
  | .wildcard qualifier :: items =>
    rw [projectRow] at h
    obtain ⟨values, hvalues, h⟩ := Result.bind_eq_ok.mp h
    obtain ⟨rest, hrest, h⟩ := Result.bind_eq_ok.mp h
    obtain rfl := Except.ok.inj h
    rw [itemsShape]
    have hwild := @admits_wildcardValues _ _ qualifier [] _ hrow hvalues
    exact hwild.append (admits_projectRow items hctes hrow hgroup hrest)
  | .expr expr asName :: items =>
    rw [projectRow] at h
    obtain ⟨value, hvalue, h⟩ := Result.bind_eq_ok.mp h
    obtain ⟨rest, hrest, h⟩ := Result.bind_eq_ok.mp h
    obtain rfl := Except.ok.inj h
    rw [itemsShape]
    exact List.Forall₂.cons (hasType_evalExpr expr hctes hrow hgroup hvalue)
      (admits_projectRow items hctes hrow hgroup hrest)

theorem ctesFit_executeCtes (clauses : List Cte) {ctes bound : Ctes} {shapes : CteShapes}
    (hctes : CtesFit ctes shapes) (h : executeCtes H tables clauses ctes = .ok bound) :
    CtesFit bound (ctesShapes tables.schemas clauses shapes) := by
  match clauses with
  | [] =>
    rw [executeCtes] at h
    obtain rfl := Except.ok.inj h
    rw [ctesShapes]
    exact hctes
  | ⟨name, columns, query⟩ :: clauses =>
    rw [executeCtes] at h
    obtain ⟨relation, hrelation, h⟩ := Result.bind_eq_ok.mp h
    obtain ⟨named, hnamed, h⟩ := Result.bind_eq_ok.mp h
    rw [ctesShapes]
    have hfits := fits_cteRelation (fits_executeQuery query hctes hrelation) hnamed
    exact ctesFit_executeCtes clauses (hctes.insert hfits) h

theorem fits_sourceRelation (source : TableSource) {ctes : Ctes} {shapes : CteShapes}
    {selection : Option Expr} {relation : Relation} (hctes : CtesFit ctes shapes)
    (h : sourceRelation H tables source ctes selection = .ok relation) :
    relation.Fits (sourceShape tables.schemas shapes source) := by
  match source with
  | .table name asName =>
    rw [sourceRelation] at h
    rw [sourceShape]
    have hbound := hctes name
    cases hcte : ctes.lookup name with
    | some bound =>
      rw [hcte] at h hbound
      obtain rfl := Except.ok.inj h
      cases hshape : shapes.lookup name with
      | none =>
        rw [hshape] at hbound
        cases hbound
      | some shape =>
        rw [hshape] at hbound
        obtain ⟨hfits⟩ := hbound
        exact hfits.renameTable _
    | none =>
      rw [hcte] at h hbound
      cases hshape : shapes.lookup name with
      | some shape =>
        rw [hshape] at hbound
        cases hbound
      | none =>
        cases htable : tables.lookup name with
        | none =>
          simp only [htable] at h
          cases h
        | some table =>
          simp only [htable] at h
          obtain rfl := Except.ok.inj h
          simp only [Tables.schemas, htable, Option.map_some, Option.getD_some]
          exact fits_relationFromTable (hexact name table htable) _ _
  | .derived query asName =>
    rw [sourceRelation] at h
    obtain ⟨inner, hinner, h⟩ := Result.bind_eq_ok.mp h
    obtain rfl := Except.ok.inj h
    rw [sourceShape]
    exact (fits_executeQuery query hctes hinner).renameTable asName

theorem fits_executeJoins (joins : List Join) {ctes : Ctes} {shapes : CteShapes} {shape : Shape}
    {relation joined : Relation} (hctes : CtesFit ctes shapes) (hfits : relation.Fits shape)
    (h : executeJoins H tables joins relation ctes = .ok joined) :
    joined.Fits (joinsShape tables.schemas shapes joins shape) := by
  match joins with
  | [] =>
    rw [executeJoins] at h
    obtain rfl := Except.ok.inj h
    rw [joinsShape]
    exact hfits
  | ⟨joinType, source, on⟩ :: joins =>
    rw [executeJoins_cons] at h
    obtain ⟨right, hright, h⟩ := Result.bind_eq_ok.mp h
    obtain ⟨pair, hpair, h⟩ := Result.bind_eq_ok.mp h
    rw [joinsShape]
    have hsource := fits_sourceRelation source hctes hright
    exact fits_executeJoins joins hctes (fits_joinRelations hfits hsource hpair) h

/-- **What a query returns** is of its shape. -/
theorem fits_executeQuery (query : Query) {inherited : Ctes} {shapes : CteShapes}
    {relation : Relation} (hctes : CtesFit inherited shapes)
    (h : executeQuery H tables query inherited = .ok relation) :
    relation.Fits (queryShape tables.schemas shapes query) := by
  match query with
  | ⟨clauses, distinct, projection, source, joins, selection, groupBy, having, orderBy, limit⟩ =>
    rw [executeQuery] at h
    obtain ⟨ctes, hbound, h⟩ := Result.bind_eq_ok.mp h
    obtain ⟨first, hfirst, h⟩ := Result.bind_eq_ok.mp h
    obtain ⟨joined, hjoined, h⟩ := Result.bind_eq_ok.mp h
    have hctes := ctesFit_executeCtes clauses hctes hbound
    have hfrom : first.Fits
        (fromShape tables.schemas (ctesShapes tables.schemas clauses shapes) source) := by
      match source with
      | none =>
        rw [fromRelation] at hfirst
        obtain rfl := Except.ok.inj hfirst
        rw [fromShape]
        exact ⟨rfl, fun row hrow => List.mem_singleton.mp hrow ▸ List.Forall₂.nil⟩
      | some source =>
        rw [fromRelation] at hfirst
        rw [fromShape]
        exact fits_sourceRelation source hctes hfirst
    rw [queryShape]
    exact fits_finishQuery hhost (fits_executeJoins joins hctes hfrom hjoined)
      projectionColumns_shape
      (fun hrow hgroup hrun => admits_projectRow projection hctes hrow hgroup hrun) h

end

end Evaluation

/-! ## Statements that select -/

/-- An outcome that is not rows. -/
def Rowless (outcome : Outcome) : Prop :=
  ∀ result tables, outcome ≠ .ok (.select result, tables)

section Rowless

variable {H : Host} {tables : Tables}

theorem rowless_refuse (message : String) : Rowless (refuse message) := by
  intro result tables h
  cases h

theorem rowless_bind {α : Type} {x : Except Fault α} {f : α → Outcome}
    (h : ∀ a, Rowless (f a)) : Rowless (x >>= f) := by
  intro result tables hok
  obtain ⟨a, -, hf⟩ := Result.bind_eq_ok.mp hok
  exact h a result tables hf

theorem rowless_ok {executed : ExecutionResult} (h : ∀ result, executed ≠ .select result) :
    Rowless (.ok (executed, tables)) := by
  intro result next hok
  exact h result (Prod.mk.inj (Except.ok.inj hok)).1

theorem rowless_createTable (tableName : String) (columns : List ColumnDef)
    (constraints : List TableConstraint) (ifNotExists : Bool) :
    Rowless (executeCreateTable H tables tableName columns constraints ifNotExists) := by
  rw [executeCreateTable]
  simp only
  split
  · split
    · exact rowless_ok (by simp)
    · exact rowless_refuse _
  · split
    · exact rowless_refuse _
    · apply rowless_bind
      rintro ⟨columns, primaryKeys⟩
      simp only
      split
      · exact rowless_refuse _
      · exact rowless_ok (by simp)

theorem rowless_dropTable (tableName : String) (ifExists : Bool) :
    Rowless (executeDropTable H tables tableName ifExists) := by
  rw [executeDropTable]
  split
  · split
    · exact rowless_ok (by simp)
    · exact rowless_refuse _
  · split
    · exact rowless_refuse _
    · exact rowless_ok (by simp)

theorem rowless_createIndex (name tableName : String) (columns : List String)
    (unique ifNotExists : Bool) :
    Rowless (executeCreateIndex H tables name tableName columns unique ifNotExists) := by
  rw [executeCreateIndex]
  split
  · exact rowless_refuse _
  · split
    · split
      · exact rowless_ok (by simp)
      · exact rowless_refuse _
    · split
      · exact rowless_refuse _
      · split
        · exact rowless_refuse _
        · apply rowless_bind
          intro checked
          exact rowless_ok (by simp)

theorem rowless_dropIndex (name tableName : String) (ifExists : Bool) :
    Rowless (executeDropIndex H tables name tableName ifExists) := by
  rw [executeDropIndex]
  simp only
  split
  · exact rowless_refuse _
  · split
    · split
      · exact rowless_ok (by simp)
      · exact rowless_refuse _
    · split
      · exact rowless_refuse _
      · exact rowless_ok (by simp)

theorem rowless_publishTable (name : String) (table : Table) (count : Nat) :
    Rowless (publishTable H tables name table count) := by
  apply rowless_bind
  intro checked
  exact rowless_ok (by simp)

/-- **A statement that writes** answers no rows. -/
theorem rowless_write {statement : Statement} (h : isWriteStatement statement = true) :
    Rowless (executeStatement H tables statement) := by
  cases statement with
  | createTable tableName columns constraints ifNotExists =>
    exact rowless_createTable tableName columns constraints ifNotExists
  | dropTable tableName ifExists => exact rowless_dropTable tableName ifExists
  | createIndex name tableName columns unique ifNotExists =>
    exact rowless_createIndex name tableName columns unique ifNotExists
  | dropIndex name tableName ifExists => exact rowless_dropIndex name tableName ifExists
  | alterTable tableName operations =>
    rw [executeStatement, executeAlterTable]
    simp only
    split
    · exact rowless_refuse _
    · apply rowless_bind
      rintro ⟨others, table⟩
      exact rowless_ok (by simp)
  | insert tableName columns source onDuplicate =>
    apply rowless_bind
    intro values
    split
    · exact rowless_refuse _
    · apply rowless_bind
      intro rows
      apply rowless_bind
      rintro ⟨table, count⟩
      exact rowless_publishTable _ _ _
  | update tableName assignments selection =>
    rw [executeStatement, executeUpdate]
    simp only
    split
    · exact rowless_refuse _
    · apply rowless_bind
      intro updated
      exact rowless_publishTable _ _ _
  | delete tableName selection =>
    rw [executeStatement, executeDelete]
    simp only
    split
    · exact rowless_refuse _
    · apply rowless_bind
      intro kept
      exact rowless_publishTable _ _ _
  | _ => cases h

/-- A statement that selects is a query. -/
theorem query_of_executeCatalog {statement : Statement} {tables' : Tables} {result : ResultSet}
    (h : executeCatalog H tables statement = .ok (.select result, tables')) :
    ∃ query relation, statement = .query query ∧
      executeQuery H tables query ∅ = .ok relation ∧ result = relationToResult relation := by
  have hstatement := (executeCatalog_ok h).1
  cases hwrite : isWriteStatement statement with
  | true => exact absurd hstatement (rowless_write hwrite result tables')
  | false =>
    cases statement with
    | query query =>
      obtain ⟨relation, hrelation, hresult⟩ := Result.bind_eq_ok.mp hstatement
      cases hresult
      exact ⟨query, relation, rfl, hrelation, rfl⟩
    | showIndexes tableName =>
      rw [executeStatement] at hstatement
      split at hstatement <;> cases hstatement
    | describeTable tableName =>
      rw [executeStatement] at hstatement
      split at hstatement <;> cases hstatement
    | _ => first | cases hstatement | cases hwrite

end Rowless

/-! ## Clients -/

/-- A result has the columns of a shape, and rows that it admits. -/
def ResultSet.Typed (result : ResultSet) (shape : Shape) : Prop :=
  result.columns = shape.columns.map BoundColumn.name ∧ ∀ row ∈ result.rows, shape.Admits row

/-- **Every statement keeps types exact**, whatever wrote it. -/
theorem exact_kept (H : Host) :
    KeptBy H (fun _ => True) (fun tables _ => tables.All Table.Exact) where
  mono h _ := h
  configure rate h := h.mapValues fun _ _ hexact => hexact
  step h _ hexecute := by
    rename_i tables tables' total statement result hgood
    obtain ⟨hstatement, hvalid⟩ := executeCatalog_ok hexecute
    cases hwrite : isWriteStatement statement with
    | false =>
      rw [executeStatement_read hwrite hstatement]
      exact h
    | true =>
      have hcoerced := coerced_step hstatement fun name table hlookup =>
        (h name table hlookup).coerced
      intro name table hlookup
      exact exact_of_validate (hcoerced name table hlookup)
        (validateTable_of_validateCatalog (hvalid hwrite) name table hlookup)

section Clients

variable {E : Engine} {db : Database} {call : Database.Call} {io : Io} {tables : Tables}
  {result : ResultSet}

theorem runs_anything (request : Database.Request) : request.Runs fun _ => True := by
  cases request with
  | session id command => cases command <;> trivial
  | _ => trivial

theorem Throughout.calls_exact {calls : List (Database.Call × Io)}
    (h : Throughout (fun tables _ => tables.All Table.Exact) db 0) :
    Throughout (fun tables _ => tables.All Table.Exact) (db.calls E calls) 0 := by
  induction calls generalizing db with
  | nil => exact h
  | cons first calls ih =>
    obtain ⟨call, io⟩ := first
    have hnext : Throughout _ (db.step E call io).2 _ :=
      h.serve (exact_kept E.host) (runs_anything (db.resolve E call))
    exact ih ⟨hnext.published, hnext.opened⟩

/-- Clients that start from an empty catalog only ever see exact tables. -/
theorem Throughout.exact_of_empty {calls : List (Database.Call × Io)}
    (hempty : db.catalog.tables = ∅) (hfresh : ∀ id, (db.sessions id).transaction = none) :
    Throughout (fun tables _ => tables.All Table.Exact) (db.calls E calls) 0 := by
  apply Throughout.calls_exact
  refine ⟨?_, fun id state hstate => ?_⟩
  · rw [hempty]
    exact Tables.All.empty
  · rw [hfresh id] at hstate
    cases hstate

/-- The catalog that a request runs its statement on. -/
theorem Throughout.target {holds : Tables → Nat → Prop} {total : Nat}
    {request : Database.Request} {durable : DurableStatement} {statement : Statement}
    (h : Throughout holds db total)
    (htarget : db.target request = some (tables, durable, statement)) : holds tables total := by
  unfold Database.target at htarget
  split at htarget
  · cases htarget
    exact h.published
  · split at htarget
    · cases htarget
      exact h.published
    · rename_i state hstate
      cases htarget
      exact h.opened _ state hstate
  · cases htarget

/-- What an autocommit statement answers when it succeeds. -/
theorem executed_of_autocommit {durable : DurableStatement} {statement : Statement}
    {executed : ExecutionResult}
    (h : (db.executeAutocommit E io durable statement).1 = .done executed) :
    ∃ next, executeCatalog E.host db.catalog.tables statement = .ok (executed, next) := by
  rw [Database.executeAutocommit] at h
  split at h
  · cases h
  · split at h
    · cases h
    · cases h
    · rename_i result next hexecute
      refine ⟨next, ?_⟩
      rw [hexecute]
      split at h
      · simp only at h
        split at h
        · cases h
        · split at h
          · split at h
            · cases h
              rfl
            · cases h
          · cases h
            rfl
      · cases h
        rfl

/-- **A request that succeeds** answers what it was told to, or what its statement gave. -/
theorem executed_of_serve {request : Database.Request}
    (h : (db.serve E io request).1 = .done (.select result)) :
    request = .answer (.done (.select result)) ∨
      (∃ id names, request = .session id (.answer (.done (.select result)) names)) ∨
      ∃ tables durable statement next, db.target request = some (tables, durable, statement) ∧
        executeCatalog E.host tables statement = .ok (.select result, next) := by
  cases request with
  | autocommit durable statement =>
    obtain ⟨next, hexecute⟩ := executed_of_autocommit h
    exact Or.inr (Or.inr ⟨_, durable, statement, next, rfl, hexecute⟩)
  | answer reply => exact Or.inl (congrArg _ h)
  | save =>
    rw [Database.serve] at h
    split at h
    · cases h
    · split at h <;> cases h
  | session id command =>
    rw [Database.serve] at h
    cases command with
    | answer reply names =>
      obtain rfl : reply = .done (.select result) := h
      exact Or.inr (Or.inl ⟨id, names, rfl⟩)
    | begin =>
      rw [Database.perform] at h
      split at h
      · cases h
      · rw [Database.beginTransaction] at h
        split at h
        · cases h
        · split at h <;> cases h
    | commit =>
      rw [Database.perform] at h
      split at h
      · cases h
      · rw [Database.commitTransaction] at h
        simp only at h
        split at h
        · cases h
        · split_ifs at h
          · cases h
          · split at h <;> cases h
    | rollback =>
      rw [Database.perform] at h
      split at h <;> cases h
    | run durable statement =>
      refine Or.inr (Or.inr ?_)
      rw [Database.perform] at h
      split at h
      · cases h
      · rw [Database.runStatement] at h
        simp only at h
        split at h
        · rename_i hstate
          obtain ⟨next, hexecute⟩ := executed_of_autocommit h
          refine ⟨db.catalog.tables, durable, statement, next, ?_, hexecute⟩
          simp only [Database.target, hstate]
        · rename_i state hstate
          split at h
          · cases h
          · cases h
          · rename_i executed next hexecute
            have heq : executed = .select result := by
              split at h
              · exact Reply.done.inj h
              · exact Reply.done.inj h
            refine ⟨state.catalog.tables, durable, statement, next, ?_, heq ▸ hexecute⟩
            simp only [Database.target, hstate]

theorem ofFault_ne_rows (fault : Fault) : Reply.ofFault fault ≠ .done (.select result) := by
  cases fault <;> exact fun h => by cases h

theorem resolvePrepared_ne_rows {names : SessionNames} {prepared : PreparedStatement}
    {parameters : List Value} {left : SessionNames} :
    db.resolvePrepared E names prepared parameters ≠ .answer (.done (.select result)) left := by
  rw [Database.resolvePrepared]
  split
  · simp [ofFault_ne_rows]
  · simp

theorem resolveText_ne_rows {names : SessionNames} {sql : String} {left : SessionNames} :
    db.resolveText E names sql ≠ .answer (.done (.select result)) left := by
  rw [Database.resolveText]
  split
  · simp [ofFault_ne_rows]
  · simp
  · simp
  · simp
  · simp
  · split
    · simp
    · split
      · simp [ofFault_ne_rows]
      · simp
  · split
    · simp
    · split
      · simp
      · exact resolvePrepared_ne_rows
  · split <;> simp
  · simp

/-- No call answers rows of its own. -/
theorem resolve_ne_rows : db.resolve E call ≠ .answer (.done (.select result)) ∧
    ∀ id names, db.resolve E call ≠ .session id (.answer (.done (.select result)) names) := by
  cases call with
  | execute sql =>
    rw [Database.resolve]
    split
    · simp [ofFault_ne_rows]
    · split
      · simp
      · split <;> simp
  | sessionExecute id sql => simp [Database.resolve, resolveText_ne_rows]
  | executePrepared id prepared parameters => simp [Database.resolve, resolvePrepared_ne_rows]
  | _ => simp [Database.resolve]

/-- A call that selects has run a query. -/
theorem query_of_step (h : (db.step E call io).1 = .done (.select result)) :
    ∃ tables durable query relation,
      db.target (db.resolve E call) = some (tables, durable, .query query) ∧
        executeQuery E.host tables query ∅ = .ok relation ∧ result = relationToResult relation := by
  rcases executed_of_serve h with hanswer | ⟨id, names, hanswer⟩ |
    ⟨tables, durable, statement, next, htarget, hexecute⟩
  · exact absurd hanswer resolve_ne_rows.1
  · exact absurd hanswer (resolve_ne_rows.2 id names)
  · obtain ⟨query, relation, rfl, hrun, hresult⟩ := query_of_executeCatalog hexecute
    exact ⟨tables, durable, query, relation, htarget, hrun, hresult⟩

end Clients

/-- **The results that clients get.**  Start from an empty catalog, in memory or on any files,
and let any number of clients call, inside and outside of transactions, with statements of any
kind, while files fail as they like.  When a call then returns rows, it has run a query on the
published catalog or on that of a transaction, and the schemas of that catalog alone decide
what the rows look like: how many columns they have, what these are called, and of which type
each value is that is not NULL. -/
theorem select_results_typed (E : Engine) (hhost : E.host.Rearranges) (start : Database)
    (calls : List (Database.Call × Io)) (hempty : start.catalog.tables = ∅)
    (hfresh : ∀ id, (start.sessions id).transaction = none) (call : Database.Call) (io : Io)
    (result : ResultSet)
    (h : ((start.calls E calls).step E call io).1 = .done (.select result)) :
    ∃ tables durable query,
      (start.calls E calls).target ((start.calls E calls).resolve E call) =
        some (tables, durable, .query query) ∧
      result.Typed (queryShape tables.schemas ∅ query) := by
  have hexact : Throughout (fun tables _ => tables.All Table.Exact) (start.calls E calls) 0 :=
    Throughout.exact_of_empty hempty hfresh
  obtain ⟨tables, durable, query, relation, htarget, hrun, rfl⟩ := query_of_step h
  refine ⟨tables, durable, query, htarget, ?_⟩
  have htables : tables.All Table.Exact := hexact.target htarget
  have hfits := fits_executeQuery htables hhost query ctesFit_empty hrun
  refine ⟨?_, hfits.rows⟩
  rw [← hfits.columns]
  rfl

/-! ## A grouped query -/

/-- The result set of a reply. -/
def Reply.rows : Reply → Option ResultSet
  | .done (.select result) => some result
  | _ => none

theorem rows_eq_some {reply : Reply} {result : ResultSet} (h : reply.rows = some result) :
    reply = .done (.select result) := by
  unfold Reply.rows at h
  split at h
  · rw [Option.some.inj h]
  · cases h

/-- A call of a statement that was prepared under a version of the schema. -/
def callPrepared (schemaVersion : Nat) (statement : Statement) : Database.Call :=
  .executePrepared 1 ⟨"...", schemaVersion, statement⟩ []

/-- `CREATE TABLE m (x FLOAT)` and `INSERT INTO m VALUES (1)`. -/
def measureCalls : List (Database.Call × Io) :=
  [(callPrepared 0 createMeasures, ⟨0, none, none⟩), (callPrepared 1 insertWhole, ⟨0, none, none⟩)]

/-- `SELECT x + 1 AS y, COUNT(*) FROM m GROUP BY x`. -/
def countMeasures : Statement :=
  .query
    { ctes := [], distinct := false
      projection := [.expr (.binary (.column none "x") .add (.literal (.integer 1))) (some "y"),
        .expr (.aggregate .count none false) none]
      source := some (.table "m" none), joins := [], selection := none
      groupBy := [.column none "x"], having := none, orderBy := [], limit := none }

/-- The result of `SELECT x + 1 AS y, COUNT(*)` on a table with a FLOAT column. -/
def measureCounts : ResultSet :=
  ⟨["y", "count"], [[.float (F64.ofInt 2), .integer 1]]⟩

/-- An integer that went into a FLOAT column comes out as a float, also added to an integer. -/
theorem measure_counts_typed :
    (((Database.inMemory ⟨0, 0, ∅⟩).calls plainEngine measureCalls).step plainEngine
        (callPrepared 1 countMeasures) ⟨0, none, none⟩).1.rows = some measureCounts ∧
      ∃ tables durable query,
        ((Database.inMemory ⟨0, 0, ∅⟩).calls plainEngine measureCalls).target
            (((Database.inMemory ⟨0, 0, ∅⟩).calls plainEngine measureCalls).resolve plainEngine
              (callPrepared 1 countMeasures)) = some (tables, durable, .query query) ∧
          measureCounts.Typed (queryShape tables.schemas ∅ query) := by
  have hrows : (((Database.inMemory ⟨0, 0, ∅⟩).calls plainEngine measureCalls).step plainEngine
      (callPrepared 1 countMeasures) ⟨0, none, none⟩).1.rows = some measureCounts := by
    decide +kernel
  refine ⟨hrows, ?_⟩
  exact select_results_typed plainEngine rearranges_reference (Database.inMemory ⟨0, 0, ∅⟩)
    measureCalls rfl (fun _ => rfl) (callPrepared 1 countMeasures) ⟨0, none, none⟩ measureCounts
    (rows_eq_some hrows)

end Sql
end RustyDB
