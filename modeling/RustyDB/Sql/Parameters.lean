import Mathlib
import RustyDB.Lib.Result
import RustyDB.Sql.Planner

/-!
# Parameters of statements

The visitors of `src/sql/parser.rs` walk over the expressions of a statement; they number
the `?` parameters, count them and replace them by values.

* `visitExpr`, `visitQuery`, `visitStatement` — the walk, for a visitor that may carry a
  state or fail.
* `parameterCount`, `bindParameters`, `assignParameters` — its three visitors.
* `exprParameters`, `statementParameters` — the parameters in any expression position,
  without regard to the walk.
* `visitStatement_eq` — **the walk meets every parameter, in order, and no other.**
-/

namespace RustyDB
namespace Sql

/-! ## The walk -/

section Visit

variable {m : Type → Type} [Monad m] (visit : Nat → m Expr)

mutual

/-- `visit_expr`.  The visitors act on `?` nodes alone, and what they put there has no
operands. -/
def visitExpr (expression : Expr) : m Expr :=
  match expression with
  | .parameter index => visit index
  | .binary left op right => do
    let left ← visitExpr left
    let right ← visitExpr right
    pure (.binary left op right)
  | .unary op expr => do
    let expr ← visitExpr expr
    pure (.unary op expr)
  | .isNull expr negated => do
    let expr ← visitExpr expr
    pure (.isNull expr negated)
  | .like expr pattern negated => do
    let expr ← visitExpr expr
    let pattern ← visitExpr pattern
    pure (.like expr pattern negated)
  | .inList expr list negated => do
    let expr ← visitExpr expr
    let list ← visitExprs list
    pure (.inList expr list negated)
  | .inSubquery expr query negated => do
    let expr ← visitExpr expr
    let query ← visitQuery query
    pure (.inSubquery expr query negated)
  | .exist query negated => do
    let query ← visitQuery query
    pure (.exist query negated)
  | .scalarSubquery query => do
    let query ← visitQuery query
    pure (.scalarSubquery query)
  | .aggregate function expr distinct => do
    let expr ← visitOption expr
    pure (.aggregate function expr distinct)
  | .column qualifier name => pure (.column qualifier name)
  | .literal value => pure (.literal value)
  | .incoming name => pure (.incoming name)

/-- The visitor on a list of expressions, in order. -/
def visitExprs (expressions : List Expr) : m (List Expr) :=
  match expressions with
  | [] => pure []
  | expr :: exprs => do
    let expr ← visitExpr expr
    let exprs ← visitExprs exprs
    pure (expr :: exprs)

/-- The visitor on an optional expression. -/
def visitOption (expression : Option Expr) : m (Option Expr) :=
  match expression with
  | none => pure none
  | some expr => do
    let expr ← visitExpr expr
    pure (some expr)

/-- The visitor on a SELECT list. -/
def visitItems (items : List SelectItem) : m (List SelectItem) :=
  match items with
  | [] => pure []
  | .wildcard qualifier :: items => do
    let items ← visitItems items
    pure (.wildcard qualifier :: items)
  | .expr expr asName :: items => do
    let expr ← visitExpr expr
    let items ← visitItems items
    pure (.expr expr asName :: items)

/-- The visitor on an ORDER BY. -/
def visitOrders (orders : List OrderBy) : m (List OrderBy) :=
  match orders with
  | [] => pure []
  | ⟨expr, descending⟩ :: orders => do
    let expr ← visitExpr expr
    let orders ← visitOrders orders
    pure (⟨expr, descending⟩ :: orders)

/-- The visitor on the common table expressions. -/
def visitCtes (clauses : List Cte) : m (List Cte) :=
  match clauses with
  | [] => pure []
  | ⟨name, columns, query⟩ :: clauses => do
    let query ← visitQuery query
    let clauses ← visitCtes clauses
    pure (⟨name, columns, query⟩ :: clauses)

/-- `visit_source`. -/
def visitSource (source : TableSource) : m TableSource :=
  match source with
  | .derived query asName => do
    let query ← visitQuery query
    pure (.derived query asName)
  | .table name asName => pure (.table name asName)

/-- The visitor on an optional FROM. -/
def visitFrom (source : Option TableSource) : m (Option TableSource) :=
  match source with
  | none => pure none
  | some source => do
    let source ← visitSource source
    pure (some source)

/-- The visitor on a chain of joins. -/
def visitJoins (joins : List Join) : m (List Join) :=
  match joins with
  | [] => pure []
  | ⟨joinType, source, on⟩ :: joins => do
    let source ← visitSource source
    let on ← visitOption on
    let joins ← visitJoins joins
    pure (⟨joinType, source, on⟩ :: joins)

/-- `visit_query`. -/
def visitQuery (query : Query) : m Query :=
  match query with
  | ⟨clauses, distinct, projection, source, joins, selection, groupBy, having, orderBy, limit⟩ => do
    let clauses ← visitCtes clauses
    let projection ← visitItems projection
    let source ← visitFrom source
    let joins ← visitJoins joins
    let selection ← visitOption selection
    let groupBy ← visitExprs groupBy
    let having ← visitOption having
    let orderBy ← visitOrders orderBy
    pure
      ⟨clauses, distinct, projection, source, joins, selection, groupBy, having, orderBy, limit⟩

end

/-- `visit_constraint_exprs`. -/
def visitConstraint : TableConstraint → m TableConstraint
  | .check name expr => do
    let expr ← visitExpr visit expr
    pure (.check name expr)
  | other => pure other

/-- The CHECK expressions of a column. -/
def visitColumn (column : ColumnDef) : m ColumnDef := do
  let checks ← visitExprs visit column.checks
  pure { column with checks := checks }

/-- The visitor on an ALTER TABLE operation. -/
def visitOperation : AlterOperation → m AlterOperation
  | .addColumn column constraints ifNotExists => do
    let column ← visitColumn visit column
    let constraints ← constraints.mapM (visitConstraint visit)
    pure (.addColumn column constraints ifNotExists)
  | .modifyColumn oldName column constraints => do
    let column ← visitColumn visit column
    let constraints ← constraints.mapM (visitConstraint visit)
    pure (.modifyColumn oldName column constraints)
  | .addConstraint constraint => do
    let constraint ← visitConstraint visit constraint
    pure (.addConstraint constraint)
  | other => pure other

/-- The assignments of UPDATE and ON DUPLICATE KEY UPDATE. -/
def visitAssignment (assignment : String × Expr) : m (String × Expr) := do
  let expr ← visitExpr visit assignment.2
  pure (assignment.1, expr)

/-- The visitor on the source of an INSERT. -/
def visitInsertSource : InsertSource → m InsertSource
  | .values values => do
    let values ← values.mapM (visitExprs visit)
    pure (.values values)
  | .query query => do
    let query ← visitQuery visit query
    pure (.query query)

/-- `visit_statement_exprs`. -/
def visitStatement : Statement → m Statement
  | .createTable tableName columns constraints ifNotExists => do
    let columns ← columns.mapM (visitColumn visit)
    let constraints ← constraints.mapM (visitConstraint visit)
    pure (.createTable tableName columns constraints ifNotExists)
  | .alterTable tableName operations => do
    let operations ← operations.mapM (visitOperation visit)
    pure (.alterTable tableName operations)
  | .insert tableName columns source onDuplicate => do
    let source ← visitInsertSource visit source
    let onDuplicate ← onDuplicate.mapM (visitAssignment visit)
    pure (.insert tableName columns source onDuplicate)
  | .query query => do
    let query ← visitQuery visit query
    pure (.query query)
  | .update tableName assignments selection => do
    let assignments ← assignments.mapM (visitAssignment visit)
    let selection ← visitOption visit selection
    pure (.update tableName assignments selection)
  | .delete tableName selection => do
    let selection ← visitOption visit selection
    pure (.delete tableName selection)
  | .explain statement => do
    let statement ← visitStatement statement
    pure (.explain statement)
  | other => pure other

end Visit

/-! ## The visitors -/

/-- The visitor of `parameter_count`: the largest number so far, plus one. -/
def countVisitor (index : Nat) : StateM Nat Expr := do
  modify fun next => max next (index + 1)
  pure (.parameter index)

/-- `parameter_count`. -/
def parameterCount (statement : Statement) : Nat :=
  ((visitStatement countVisitor statement).run 0).2

/-- The visitor of `bind_parameters`; a number outside the slice is a panic. -/
def bindVisitor (values : List Value) (index : Nat) : Except Fault Expr :=
  match values[index]? with
  | some value => .ok (.literal value)
  | none => .error .panic

/-- `bind_parameters`. -/
def bindParameters (statement : Statement) (values : List Value) : Except Fault Statement :=
  if values.length ≠ parameterCount statement then
    .error (.error s!"Expected {parameterCount statement} parameters, got {values.length}")
  else visitStatement (bindVisitor values) statement

/-- The visitor of `assign_parameters`: the next number. -/
def assignVisitor (_ : Nat) : StateM Nat Expr := do
  let next ← get
  set (next + 1)
  pure (.parameter next)

/-- `assign_parameters`. -/
def assignParameters (statement : Statement) : Statement :=
  ((visitStatement assignVisitor statement).run 0).1

/-! ## The parameters of a statement -/

mutual

/-- The numbers of the `?` nodes of an expression. -/
def exprParameters (expression : Expr) : List Nat :=
  match expression with
  | .parameter index => [index]
  | .binary left _ right => exprParameters left ++ exprParameters right
  | .unary _ expr => exprParameters expr
  | .isNull expr _ => exprParameters expr
  | .like expr pattern _ => exprParameters expr ++ exprParameters pattern
  | .inList expr list _ => exprParameters expr ++ exprsParameters list
  | .inSubquery expr query _ => exprParameters expr ++ queryParameters query
  | .exist query _ => queryParameters query
  | .scalarSubquery query => queryParameters query
  | .aggregate _ expr _ => optionParameters expr
  | .column _ _ => []
  | .literal _ => []
  | .incoming _ => []

/-- The parameters of a list of expressions. -/
def exprsParameters (expressions : List Expr) : List Nat :=
  match expressions with
  | [] => []
  | expr :: exprs => exprParameters expr ++ exprsParameters exprs

/-- The parameters of an optional expression. -/
def optionParameters (expression : Option Expr) : List Nat :=
  match expression with
  | none => []
  | some expr => exprParameters expr

/-- The parameters of a SELECT list. -/
def itemsParameters (items : List SelectItem) : List Nat :=
  match items with
  | [] => []
  | .wildcard _ :: items => itemsParameters items
  | .expr expr _ :: items => exprParameters expr ++ itemsParameters items

/-- The parameters of an ORDER BY. -/
def ordersParameters (orders : List OrderBy) : List Nat :=
  match orders with
  | [] => []
  | ⟨expr, _⟩ :: orders => exprParameters expr ++ ordersParameters orders

/-- The parameters of the common table expressions. -/
def ctesParameters (clauses : List Cte) : List Nat :=
  match clauses with
  | [] => []
  | ⟨_, _, query⟩ :: clauses => queryParameters query ++ ctesParameters clauses

/-- The parameters of a derived table. -/
def sourceParameters (source : TableSource) : List Nat :=
  match source with
  | .derived query _ => queryParameters query
  | .table _ _ => []

/-- The parameters of an optional FROM. -/
def fromParameters (source : Option TableSource) : List Nat :=
  match source with
  | none => []
  | some source => sourceParameters source

/-- The parameters of a chain of joins. -/
def joinsParameters (joins : List Join) : List Nat :=
  match joins with
  | [] => []
  | ⟨_, source, on⟩ :: joins =>
    sourceParameters source ++ (optionParameters on ++ joinsParameters joins)

/-- The numbers of the `?` nodes of a query, in its WITH clauses, derived tables and
subqueries too. -/
def queryParameters (query : Query) : List Nat :=
  match query with
  | ⟨clauses, _, projection, source, joins, selection, groupBy, having, orderBy, _⟩ =>
    ctesParameters clauses ++ (itemsParameters projection ++ (fromParameters source ++
      (joinsParameters joins ++ (optionParameters selection ++ (exprsParameters groupBy ++
        (optionParameters having ++ ordersParameters orderBy))))))

end

/-- The parameters of a CHECK. -/
def constraintParameters : TableConstraint → List Nat
  | .check _ expr => exprParameters expr
  | .primaryKey _ _ => []
  | .unique _ _ => []
  | .foreignKey _ => []

/-- The parameters of the checks of a column. -/
def columnParameters (column : ColumnDef) : List Nat := exprsParameters column.checks

/-- The parameters of an ALTER TABLE operation. -/
def operationParameters : AlterOperation → List Nat
  | .addColumn column constraints _ =>
    columnParameters column ++ constraints.flatMap constraintParameters
  | .modifyColumn _ column constraints =>
    columnParameters column ++ constraints.flatMap constraintParameters
  | .addConstraint constraint => constraintParameters constraint
  | .dropColumn _ _ => []
  | .renameColumn _ _ => []
  | .setDefault _ _ => []
  | .setNullable _ _ => []
  | .setDataType _ _ => []
  | .dropConstraint _ _ => []
  | .dropPrimaryKey => []

/-- The parameters of the source of an INSERT. -/
def insertSourceParameters : InsertSource → List Nat
  | .values values => values.flatMap exprsParameters
  | .query query => queryParameters query

/-- The numbers of the `?` nodes in any expression position of a statement. -/
def statementParameters : Statement → List Nat
  | .createTable _ columns constraints _ =>
    columns.flatMap columnParameters ++ constraints.flatMap constraintParameters
  | .alterTable _ operations => operations.flatMap operationParameters
  | .insert _ _ source onDuplicate =>
    insertSourceParameters source ++ onDuplicate.flatMap fun entry => exprParameters entry.2
  | .query query => queryParameters query
  | .update _ assignments selection =>
    (assignments.flatMap fun entry => exprParameters entry.2) ++ optionParameters selection
  | .delete _ selection => optionParameters selection
  | .explain statement => statementParameters statement
  | .dropTable _ _ => []
  | .createIndex _ _ _ _ _ => []
  | .dropIndex _ _ _ => []
  | .showTables => []
  | .showIndexes _ => []
  | .describeTable _ => []
  | .setVariable _ _ => []
  | .prepare _ _ => []
  | .executePrepared _ _ => []
  | .deallocatePrepared _ => []
  | .begin => []
  | .commit => []
  | .rollback => []

/-! ## Substitution -/

/-- An expression with `?` replaced by number. -/
def substExpr (σ : Nat → Expr) (e : Expr) : Expr := visitExpr (m := Id) σ e

/-- A query with `?` replaced by number. -/
def substQuery (σ : Nat → Expr) (query : Query) : Query := visitQuery (m := Id) σ query

/-- A statement with `?` replaced by number. -/
def substStatement (σ : Nat → Expr) (statement : Statement) : Statement :=
  visitStatement (m := Id) σ statement

/-! ## What the walk does -/

section Walk

variable {m : Type → Type} [Monad m] [LawfulMonad m] {visit : Nat → m Expr}
  {effect : Nat → m Unit} {σ : Nat → Expr}

/-- A visitor has an effect and puts an expression in the place of a parameter. -/
def Acts (visit : Nat → m Expr) (effect : Nat → m Unit) (σ : Nat → Expr) : Prop :=
  ∀ index, visit index = effect index >>= fun _ => pure (σ index)

/-- A walk has the effects of these parameters, one after another, and this result. -/
def Walks {α : Type} (effect : Nat → m Unit) (walk : m α) (parameters : List Nat) (result : α) :
    Prop :=
  walk = forM parameters effect >>= fun _ => pure result

theorem Walks.nothing {α : Type} (a : α) : Walks effect (pure a) [] a := by
  simp [Walks]

theorem Walks.map {α β : Type} {walk : m α} {parameters : List Nat} {a : α}
    (h : Walks effect walk parameters a) (f : α → β) :
    Walks effect (do let a ← walk; pure (f a)) parameters (f a) := by
  rw [Walks] at h ⊢
  rw [h]
  simp

/-- Two parts, one after the other. -/
theorem Walks.pair {α β γ : Type} {first : m α} {second : m β} {ps qs : List Nat} {a : α} {b : β}
    (h : Walks effect first ps a) (h' : Walks effect second qs b) (f : α → β → γ) :
    Walks effect (do let a ← first; let b ← second; pure (f a b)) (ps ++ qs) (f a b) := by
  rw [Walks] at h h' ⊢
  rw [h, h', List.forM_append]
  simp

mutual

/-- The walk over an expression is the effect of its parameters, one after another, and
the substitution. -/
theorem visit_expr (h : Acts visit effect σ) (e : Expr) :
    Walks effect (visitExpr visit e) (exprParameters e) (substExpr σ e) := by
  match e with
  | .parameter index =>
    rw [Walks, visitExpr, h index, exprParameters]
    simp [substExpr, visitExpr]
  | .binary left op right =>
    exact (visit_expr h left).pair (visit_expr h right) fun l r => Expr.binary l op r
  | .unary op expr => exact (visit_expr h expr).map fun e => Expr.unary op e
  | .isNull expr negated => exact (visit_expr h expr).map fun e => Expr.isNull e negated
  | .like expr pattern negated =>
    exact (visit_expr h expr).pair (visit_expr h pattern) fun e p => Expr.like e p negated
  | .inList expr list negated =>
    exact (visit_expr h expr).pair (visit_exprs h list) fun e l => Expr.inList e l negated
  | .inSubquery expr query negated =>
    exact (visit_expr h expr).pair (visit_query h query) fun e q => Expr.inSubquery e q negated
  | .exist query negated => exact (visit_query h query).map fun q => Expr.exist q negated
  | .scalarSubquery query => exact (visit_query h query).map fun q => Expr.scalarSubquery q
  | .aggregate function expr distinct =>
    exact (visit_option h expr).map fun e => Expr.aggregate function e distinct
  | .column qualifier name => exact Walks.nothing _
  | .literal value => exact Walks.nothing _
  | .incoming name => exact Walks.nothing _

theorem visit_exprs (h : Acts visit effect σ) (es : List Expr) :
    Walks effect (visitExprs visit es) (exprsParameters es) (visitExprs (m := Id) σ es) := by
  match es with
  | [] => exact Walks.nothing _
  | e :: es => exact (visit_expr h e).pair (visit_exprs h es) List.cons

theorem visit_option (h : Acts visit effect σ) (e : Option Expr) :
    Walks effect (visitOption visit e) (optionParameters e) (visitOption (m := Id) σ e) := by
  match e with
  | none => exact Walks.nothing _
  | some e => exact (visit_expr h e).map some

theorem visit_items (h : Acts visit effect σ)
    (items : List SelectItem) :
    Walks effect (visitItems visit items) (itemsParameters items)
      (visitItems (m := Id) σ items) := by
  match items with
  | [] => exact Walks.nothing _
  | .wildcard qualifier :: items =>
    exact (visit_items h items).map fun items => .wildcard qualifier :: items
  | .expr expr asName :: items =>
    exact (visit_expr h expr).pair (visit_items h items) fun e items =>
      .expr e asName :: items

theorem visit_orders (h : Acts visit effect σ)
    (orders : List OrderBy) :
    Walks effect (visitOrders visit orders) (ordersParameters orders)
      (visitOrders (m := Id) σ orders) := by
  match orders with
  | [] => exact Walks.nothing _
  | ⟨expr, descending⟩ :: orders =>
    exact (visit_expr h expr).pair (visit_orders h orders) fun e orders =>
      ⟨e, descending⟩ :: orders

theorem visit_ctes (h : Acts visit effect σ) (clauses : List Cte) :
    Walks effect (visitCtes visit clauses) (ctesParameters clauses)
      (visitCtes (m := Id) σ clauses) := by
  match clauses with
  | [] => exact Walks.nothing _
  | ⟨name, columns, query⟩ :: clauses =>
    exact (visit_query h query).pair (visit_ctes h clauses) fun q clauses =>
      ⟨name, columns, q⟩ :: clauses

theorem visit_source (h : Acts visit effect σ)
    (source : TableSource) :
    Walks effect (visitSource visit source) (sourceParameters source)
      (visitSource (m := Id) σ source) := by
  match source with
  | .derived query asName => exact (visit_query h query).map fun q => TableSource.derived q asName
  | .table name asName => exact Walks.nothing _

theorem visit_from (h : Acts visit effect σ)
    (source : Option TableSource) :
    Walks effect (visitFrom visit source) (fromParameters source)
      (visitFrom (m := Id) σ source) := by
  match source with
  | none => exact Walks.nothing _
  | some source => exact (visit_source h source).map some

theorem visit_joins (h : Acts visit effect σ) (joins : List Join) :
    Walks effect (visitJoins visit joins) (joinsParameters joins)
      (visitJoins (m := Id) σ joins) := by
  match joins with
  | [] => exact Walks.nothing _
  | ⟨joinType, source, on⟩ :: joins =>
    have hsource := visit_source h source
    have hon := visit_option h on
    have hjoins := visit_joins h joins
    rw [Walks] at hsource hon hjoins ⊢
    rw [visitJoins, hsource, hon, hjoins, joinsParameters, List.forM_append, List.forM_append]
    simp only [bind_assoc, pure_bind]
    rfl

theorem visit_query (h : Acts visit effect σ) (query : Query) :
    Walks effect (visitQuery visit query) (queryParameters query) (substQuery σ query) := by
  match query with
  | ⟨clauses, distinct, projection, source, joins, selection, groupBy, having, orderBy, limit⟩ =>
    have hctes := visit_ctes h clauses
    have hitems := visit_items h projection
    have hsource := visit_from h source
    have hjoins := visit_joins h joins
    have hselection := visit_option h selection
    have hgroupBy := visit_exprs h groupBy
    have hhaving := visit_option h having
    have horderBy := visit_orders h orderBy
    rw [Walks] at hctes hitems hsource hjoins hselection hgroupBy hhaving horderBy ⊢
    rw [visitQuery, hctes, hitems, hsource, hjoins, hselection, hgroupBy, hhaving, horderBy,
      queryParameters]
    simp only [List.forM_append, bind_assoc, pure_bind]
    rfl

end

/-! ### Statements -/

/-- A loop whose rounds are walks. -/
theorem visit_mapM {α : Type} {f : α → m α} {parameters : α → List Nat} {g : α → Id α}
    (h : ∀ a, Walks effect (f a) (parameters a) (g a)) (as : List α) :
    Walks effect (as.mapM f) (as.flatMap parameters) (as.mapM g) := by
  induction as with
  | nil =>
    rw [List.mapM_nil, List.mapM_nil]
    exact Walks.nothing _
  | cons a as ih =>
    rw [List.mapM_cons, List.mapM_cons]
    exact (h a).pair ih List.cons

theorem visit_constraint (h : Acts visit effect σ)
    (constraint : TableConstraint) :
    Walks effect (visitConstraint visit constraint) (constraintParameters constraint)
      (visitConstraint (m := Id) σ constraint) := by
  cases constraint with
  | check name expr => exact (visit_expr h expr).map fun e => TableConstraint.check name e
  | _ => exact Walks.nothing _

theorem visit_column (h : Acts visit effect σ) (column : ColumnDef) :
    Walks effect (visitColumn visit column) (columnParameters column)
      (visitColumn (m := Id) σ column) :=
  (visit_exprs h column.checks).map fun checks => ({ column with checks := checks } : ColumnDef)

theorem visit_operation (h : Acts visit effect σ) (operation : AlterOperation) :
    Walks effect (visitOperation visit operation) (operationParameters operation)
      (visitOperation (m := Id) σ operation) := by
  cases operation with
  | addColumn column constraints ifNotExists =>
    exact (visit_column h column).pair (visit_mapM (visit_constraint h) constraints)
      fun column constraints => AlterOperation.addColumn column constraints ifNotExists
  | modifyColumn oldName column constraints =>
    exact (visit_column h column).pair (visit_mapM (visit_constraint h) constraints)
      fun column constraints => AlterOperation.modifyColumn oldName column constraints
  | addConstraint constraint =>
    exact (visit_constraint h constraint).map AlterOperation.addConstraint
  | _ => exact Walks.nothing _

theorem visit_assignments (h : Acts visit effect σ) (assignments : List (String × Expr)) :
    Walks effect (assignments.mapM (visitAssignment visit))
      (assignments.flatMap fun entry => exprParameters entry.2)
      (assignments.mapM (visitAssignment (m := Id) σ)) :=
  visit_mapM (fun entry : String × Expr => (visit_expr h entry.2).map fun e => (entry.1, e))
    assignments

theorem visit_insertSource (h : Acts visit effect σ) (source : InsertSource) :
    Walks effect (visitInsertSource visit source) (insertSourceParameters source)
      (visitInsertSource (m := Id) σ source) := by
  cases source with
  | values values => exact (visit_mapM (visit_exprs h) values).map InsertSource.values
  | query query => exact (visit_query h query).map InsertSource.query

/-- **The walk over a statement** meets every parameter, in any expression position, in
order, and puts something in its place. -/
theorem visit_statement (h : Acts visit effect σ) (statement : Statement) :
    Walks effect (visitStatement visit statement) (statementParameters statement)
      (substStatement σ statement) := by
  induction statement with
  | createTable tableName columns constraints ifNotExists =>
    exact (visit_mapM (visit_column h) columns).pair (visit_mapM (visit_constraint h) constraints)
      fun columns constraints => Statement.createTable tableName columns constraints ifNotExists
  | alterTable tableName operations =>
    exact (visit_mapM (visit_operation h) operations).map (Statement.alterTable tableName)
  | insert tableName columns source onDuplicate =>
    exact (visit_insertSource h source).pair (visit_assignments h onDuplicate)
      fun source onDuplicate => Statement.insert tableName columns source onDuplicate
  | query query => exact (visit_query h query).map Statement.query
  | update tableName assignments selection =>
    exact (visit_assignments h assignments).pair (visit_option h selection)
      fun assignments selection => Statement.update tableName assignments selection
  | delete tableName selection =>
    exact (visit_option h selection).map (Statement.delete tableName)
  | explain statement ih => exact ih.map Statement.explain
  | _ => exact Walks.nothing _

end Walk

/-! ## What is left of the parameters -/

section Closed

variable {σ : Nat → Expr}

mutual

/-- Where something without parameters is put in their place, none is left. -/
theorem closed_expr (h : ∀ i, exprParameters (σ i) = []) (e : Expr) :
    exprParameters (substExpr σ e) = [] := by
  match e with
  | .parameter index => exact h index
  | .binary left op right =>
    exact List.append_eq_nil_iff.mpr ⟨closed_expr h left, closed_expr h right⟩
  | .unary op expr => exact closed_expr h expr
  | .isNull expr negated => exact closed_expr h expr
  | .like expr pattern negated =>
    exact List.append_eq_nil_iff.mpr ⟨closed_expr h expr, closed_expr h pattern⟩
  | .inList expr list negated =>
    exact List.append_eq_nil_iff.mpr ⟨closed_expr h expr, closed_exprs h list⟩
  | .inSubquery expr query negated =>
    exact List.append_eq_nil_iff.mpr ⟨closed_expr h expr, closed_query h query⟩
  | .exist query negated => exact closed_query h query
  | .scalarSubquery query => exact closed_query h query
  | .aggregate function expr distinct => exact closed_option h expr
  | .column qualifier name => rfl
  | .literal value => rfl
  | .incoming name => rfl

theorem closed_exprs (h : ∀ i, exprParameters (σ i) = []) (es : List Expr) :
    exprsParameters (visitExprs (m := Id) σ es) = [] := by
  match es with
  | [] => rfl
  | e :: es => exact List.append_eq_nil_iff.mpr ⟨closed_expr h e, closed_exprs h es⟩

theorem closed_option (h : ∀ i, exprParameters (σ i) = []) (e : Option Expr) :
    optionParameters (visitOption (m := Id) σ e) = [] := by
  match e with
  | none => rfl
  | some e => exact closed_expr h e

theorem closed_items (h : ∀ i, exprParameters (σ i) = []) (items : List SelectItem) :
    itemsParameters (visitItems (m := Id) σ items) = [] := by
  match items with
  | [] => rfl
  | .wildcard qualifier :: items => exact closed_items h items
  | .expr expr asName :: items =>
    exact List.append_eq_nil_iff.mpr ⟨closed_expr h expr, closed_items h items⟩

theorem closed_orders (h : ∀ i, exprParameters (σ i) = []) (orders : List OrderBy) :
    ordersParameters (visitOrders (m := Id) σ orders) = [] := by
  match orders with
  | [] => rfl
  | ⟨expr, descending⟩ :: orders =>
    exact List.append_eq_nil_iff.mpr ⟨closed_expr h expr, closed_orders h orders⟩

theorem closed_ctes (h : ∀ i, exprParameters (σ i) = []) (clauses : List Cte) :
    ctesParameters (visitCtes (m := Id) σ clauses) = [] := by
  match clauses with
  | [] => rfl
  | ⟨name, columns, query⟩ :: clauses =>
    exact List.append_eq_nil_iff.mpr ⟨closed_query h query, closed_ctes h clauses⟩

theorem closed_source (h : ∀ i, exprParameters (σ i) = []) (source : TableSource) :
    sourceParameters (visitSource (m := Id) σ source) = [] := by
  match source with
  | .derived query asName => exact closed_query h query
  | .table name asName => rfl

theorem closed_from (h : ∀ i, exprParameters (σ i) = []) (source : Option TableSource) :
    fromParameters (visitFrom (m := Id) σ source) = [] := by
  match source with
  | none => rfl
  | some source => exact closed_source h source

theorem closed_joins (h : ∀ i, exprParameters (σ i) = []) (joins : List Join) :
    joinsParameters (visitJoins (m := Id) σ joins) = [] := by
  match joins with
  | [] => rfl
  | ⟨joinType, source, on⟩ :: joins =>
    exact List.append_eq_nil_iff.mpr ⟨closed_source h source,
      List.append_eq_nil_iff.mpr ⟨closed_option h on, closed_joins h joins⟩⟩

theorem closed_query (h : ∀ i, exprParameters (σ i) = []) (query : Query) :
    queryParameters (substQuery σ query) = [] := by
  match query with
  | ⟨clauses, distinct, projection, source, joins, selection, groupBy, having, orderBy, limit⟩ =>
    show ctesParameters (visitCtes (m := Id) σ clauses) ++
      (itemsParameters (visitItems (m := Id) σ projection) ++
        (fromParameters (visitFrom (m := Id) σ source) ++
          (joinsParameters (visitJoins (m := Id) σ joins) ++
            (optionParameters (visitOption (m := Id) σ selection) ++
              (exprsParameters (visitExprs (m := Id) σ groupBy) ++
                (optionParameters (visitOption (m := Id) σ having) ++
                  ordersParameters (visitOrders (m := Id) σ orderBy))))))) = []
    rw [closed_ctes h, closed_items h, closed_from h, closed_joins h, closed_option h,
      closed_exprs h, closed_option h, closed_orders h]
    rfl

end

theorem closed_mapM {α : Type} {f : α → Id α} {parameters : α → List Nat}
    (h : ∀ a, parameters (f a) = []) (as : List α) :
    (List.mapM (m := Id) f as).flatMap parameters = [] := by
  induction as with
  | nil => rfl
  | cons a as ih =>
    rw [List.mapM_cons]
    exact List.append_eq_nil_iff.mpr ⟨h a, ih⟩

theorem closed_constraint (h : ∀ i, exprParameters (σ i) = []) (constraint : TableConstraint) :
    constraintParameters (visitConstraint (m := Id) σ constraint) = [] := by
  cases constraint with
  | check name expr => exact closed_expr h expr
  | _ => rfl

theorem closed_column (h : ∀ i, exprParameters (σ i) = []) (column : ColumnDef) :
    columnParameters (visitColumn (m := Id) σ column) = [] := closed_exprs h column.checks

theorem closed_operation (h : ∀ i, exprParameters (σ i) = []) (operation : AlterOperation) :
    operationParameters (visitOperation (m := Id) σ operation) = [] := by
  cases operation with
  | addColumn column constraints ifNotExists =>
    exact List.append_eq_nil_iff.mpr ⟨closed_column h column,
      closed_mapM (closed_constraint h) constraints⟩
  | modifyColumn oldName column constraints =>
    exact List.append_eq_nil_iff.mpr ⟨closed_column h column,
      closed_mapM (closed_constraint h) constraints⟩
  | addConstraint constraint => exact closed_constraint h constraint
  | _ => rfl

/-- **No parameter is left** in any expression position of a statement. -/
theorem closed_statement (h : ∀ i, exprParameters (σ i) = []) (statement : Statement) :
    statementParameters (substStatement σ statement) = [] := by
  have hassignments : ∀ assignments : List (String × Expr),
      (List.mapM (m := Id) (visitAssignment σ) assignments).flatMap
        (fun entry => exprParameters entry.2) = [] :=
    fun assignments => closed_mapM (fun entry : String × Expr => closed_expr h entry.2) assignments
  induction statement with
  | createTable tableName columns constraints ifNotExists =>
    exact List.append_eq_nil_iff.mpr ⟨closed_mapM (closed_column h) columns,
      closed_mapM (closed_constraint h) constraints⟩
  | alterTable tableName operations => exact closed_mapM (closed_operation h) operations
  | insert tableName columns source onDuplicate =>
    refine List.append_eq_nil_iff.mpr ⟨?_, hassignments onDuplicate⟩
    cases source with
    | values values => exact closed_mapM (closed_exprs h) values
    | query query => exact closed_query h query
  | query query => exact closed_query h query
  | update tableName assignments selection =>
    exact List.append_eq_nil_iff.mpr ⟨hassignments assignments, closed_option h selection⟩
  | delete tableName selection => exact closed_option h selection
  | explain statement ih => exact ih
  | _ => rfl

end Closed

/-! ## Counting and binding -/

/-- The smallest number above all of them. -/
def parameterBound (parameters : List Nat) : Nat :=
  parameters.foldl (fun next index => max next (index + 1)) 0

theorem lt_parameterBound {parameters : List Nat} {index : Nat} (h : index ∈ parameters) :
    index < parameterBound parameters := by
  have hfold : ∀ (indexes : List Nat) (next : Nat),
      next ≤ indexes.foldl (fun next index => max next (index + 1)) next ∧
        ∀ index ∈ indexes, index < indexes.foldl (fun next index => max next (index + 1)) next := by
    intro indexes
    induction indexes with
    | nil => exact fun next => ⟨Nat.le_refl _, nofun⟩
    | cons first indexes ih =>
      intro next
      obtain ⟨hle, hlt⟩ := ih (max next (first + 1))
      rw [List.foldl_cons]
      refine ⟨by omega, fun index hindex => ?_⟩
      rcases List.mem_cons.mp hindex with rfl | hindex
      · omega
      · exact hlt index hindex
  exact (hfold parameters 0).2 index h

/-- **`parameter_count`** is one more than the largest number of a parameter. -/
theorem parameterCount_eq (statement : Statement) :
    parameterCount statement = parameterBound (statementParameters statement) := by
  have hacts : Acts countVisitor (fun index => modify fun next => max next (index + 1))
      Expr.parameter := fun _ => rfl
  have hwalk := visit_statement hacts statement
  have hrun : ∀ (indexes : List Nat) (next : Nat),
      ((forM indexes fun index => (modify fun next => max next (index + 1) : StateM Nat Unit)).run
        next).2 = indexes.foldl (fun next index => max next (index + 1)) next := by
    intro indexes
    induction indexes with
    | nil => exact fun _ => rfl
    | cons index indexes ih => exact fun next => ih (max next (index + 1))
  rw [Walks] at hwalk
  rw [parameterCount, hwalk]
  exact hrun (statementParameters statement) 0

/-- The value that is bound to a parameter. -/
def boundValue (values : List Value) (index : Nat) : Expr :=
  .literal ((values[index]?).getD .null)

/-- **Binding** as many values as there are parameters replaces every one of them. -/
theorem bindParameters_eq_ok {statement : Statement} {values : List Value}
    (h : values.length = parameterCount statement) :
    bindParameters statement values = .ok (substStatement (boundValue values) statement) := by
  have hacts : Acts (bindVisitor values)
      (fun index => if index < values.length then .ok () else .error .panic)
      (boundValue values) := by
    intro index
    unfold bindVisitor boundValue
    by_cases hlt : index < values.length
    · simp only [List.getElem?_eq_getElem hlt, if_pos hlt]
      rfl
    · simp only [List.getElem?_eq_none (Nat.le_of_not_lt hlt), if_neg hlt]
      rfl
  have hwalk := visit_statement hacts statement
  have hrun : ∀ indexes : List Nat, (∀ index ∈ indexes, index < values.length) →
      (forM indexes fun index =>
        (if index < values.length then .ok () else .error .panic : Except Fault Unit)) =
        .ok () := by
    intro indexes hindexes
    induction indexes with
    | nil => rfl
    | cons index indexes ih =>
      rw [List.forM_cons, if_pos (hindexes index (by simp)), Result.ok_bind]
      exact ih fun other hother => hindexes other (List.mem_cons_of_mem _ hother)
  rw [Walks, hrun _ fun index hindex => by
    rw [h, parameterCount_eq]
    exact lt_parameterBound hindex] at hwalk
  rw [bindParameters, if_neg (not_not_intro h), hwalk]
  rfl

end Sql
end RustyDB
