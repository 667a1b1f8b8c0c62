import Mathlib
import RustyDB.Sql.View

/-!
# The tables that a query reads

A query reads a catalog through the scans of its FROM clauses only: those of the query
itself, of its joins, and of the queries inside of it.  What these scans return decides its
result, in one process as in another.

* `queryReads` and its siblings — the scans, by table name and WHERE clause, common table
  expressions among them.
* `SameScan` — a scan returns the same in two catalogs and two processes.
* `executeQuery_frame` — **a query sees nothing of a catalog but the scans it names.**
-/

namespace RustyDB
namespace Sql

/-! ## Scans of FROM clauses -/

/-- A table name in a FROM clause, and the WHERE clause that lets an index skip rows. -/
abbrev Read := String × Option Expr

mutual

/-- The scans of the queries of an expression. -/
def exprReads : Expr → List Read
  | .unary _ expr => exprReads expr
  | .binary left _ right => exprReads left ++ exprReads right
  | .isNull expr _ => exprReads expr
  | .like expr pattern _ => exprReads expr ++ exprReads pattern
  | .inList expr list _ => exprReads expr ++ exprsReads list
  | .inSubquery expr query _ => exprReads expr ++ queryReads query
  | .exist query _ => queryReads query
  | .scalarSubquery query => queryReads query
  | .aggregate _ (some expr) _ => exprReads expr
  | _ => []

/-- The reads of a list of expressions. -/
def exprsReads : List Expr → List Read
  | [] => []
  | expr :: exprs => exprReads expr ++ exprsReads exprs

/-- The reads of a SELECT list. -/
def itemsReads : List SelectItem → List Read
  | [] => []
  | .wildcard _ :: items => itemsReads items
  | .expr expr _ :: items => exprReads expr ++ itemsReads items

/-- The reads of an ORDER BY. -/
def orderReads : List OrderBy → List Read
  | [] => []
  | ⟨expr, _⟩ :: orders => exprReads expr ++ orderReads orders

/-- The reads of the common table expressions. -/
def cteReads : List Cte → List Read
  | [] => []
  | ⟨_, _, query⟩ :: clauses => queryReads query ++ cteReads clauses

/-- The reads of a table of FROM, under the filter that is pushed down to it. -/
def sourceReads (source : TableSource) (selection : Option Expr) : List Read :=
  match source with
  | .table name _ => [(name, selection)]
  | .derived query _ => queryReads query

/-- Every row of a joined table is read. -/
def joinReads : List Join → List Read
  | [] => []
  | ⟨_, source, none⟩ :: joins => sourceReads source none ++ joinReads joins
  | ⟨_, source, some on⟩ :: joins => sourceReads source none ++ exprReads on ++ joinReads joins

/-- The reads of an optional expression. -/
def optionReads : Option Expr → List Read
  | none => []
  | some expr => exprReads expr

/-- The reads of an optional FROM. -/
def fromReads (source : Option TableSource) (selection : Option Expr) : List Read :=
  match source with
  | none => []
  | some source => sourceReads source selection

/-- The scans of a query. -/
def queryReads : Query → List Read
  | ⟨clauses, _, projection, source, joins, selection, groupBy, having, orderBy, _⟩ =>
    cteReads clauses ++ itemsReads projection ++ fromReads source selection ++ joinReads joins ++
      optionReads selection ++ exprsReads groupBy ++ optionReads having ++ orderReads orderBy

end

/-! ## The frame -/

/-- A scan in one process returns what it returns on the other catalog in another process. -/
def SameScan (H : Host) (p : Process) (tables tables' : Tables) (read : Read) : Prop :=
  ∀ visibleName,
    (tables'.lookup read.1).map
        (fun table => relationFromTable (H.inProcess p) table visibleName read.2) =
      (tables.lookup read.1).map (fun table => relationFromTable H table visibleName read.2)

section Frame

variable {H : Host} {p : Process} {tables tables' : Tables}

theorem inValuesLoop_inProcess (value : Value) (negated unknown : Bool) (values : List Value) :
    inValuesLoop (H.inProcess p) value negated unknown values =
      inValuesLoop H value negated unknown values := by
  induction values generalizing unknown with
  | nil => rfl
  | cons candidate values ih =>
    simp only [inValuesLoop, ih]
    rfl

theorem inValues_inProcess : inValues (H.inProcess p) = inValues H := by
  funext value values negated
  rw [inValues, inValues, inValuesLoop_inProcess]

theorem evalUnary_inProcess : evalUnary (H.inProcess p) = evalUnary H := rfl

theorem evalBinary_inProcess : evalBinary (H.inProcess p) = evalBinary H := rfl

theorem evalLike_inProcess : evalLike (H.inProcess p) = evalLike H := rfl

theorem joinRelations_inProcess : joinRelations (H.inProcess p) = joinRelations H := rfl

theorem finishQuery_inProcess : finishQuery (H.inProcess p) = finishQuery H := rfl

mutual

theorem evalExpr_frame (e : Expr) (h : ∀ read ∈ exprReads e, SameScan H p tables tables' read)
    (columns : List BoundColumn) (row : Row) (group : Option (List Row)) (ctes : Ctes) :
    evalExpr (H.inProcess p) tables' e columns row group ctes =
      evalExpr H tables e columns row group ctes := by
  match e with
  | .literal _ => rfl
  | .parameter _ => rfl
  | .incoming _ => rfl
  | .column _ _ => rfl
  | .unary op expr =>
    rw [exprReads] at h
    simp only [evalExpr, evalExpr_frame expr h, evalUnary_inProcess]
  | .binary left op right =>
    rw [exprReads, List.forall_mem_append] at h
    simp only [evalExpr, evalExpr_frame left h.1, evalExpr_frame right h.2, evalBinary_inProcess]
  | .isNull expr negated =>
    rw [exprReads] at h
    simp only [evalExpr, evalExpr_frame expr h]
  | .like expr pattern negated =>
    rw [exprReads, List.forall_mem_append] at h
    simp only [evalExpr, evalExpr_frame expr h.1, evalExpr_frame pattern h.2,
      evalLike_inProcess]
  | .inList expr list negated =>
    rw [exprReads, List.forall_mem_append] at h
    simp only [evalExpr, evalExpr_frame expr h.1, evalExprs_frame list h.2, inValues_inProcess]
  | .inSubquery expr query negated =>
    rw [exprReads, List.forall_mem_append] at h
    simp only [evalExpr, evalExpr_frame expr h.1, executeQuery_frame query h.2]
  | .exist query negated =>
    rw [exprReads] at h
    simp only [evalExpr, executeQuery_frame query h]
  | .scalarSubquery query =>
    rw [exprReads] at h
    simp only [evalExpr, executeQuery_frame query h]
  | .aggregate function none distinct => simp only [evalExpr]
  | .aggregate function (some expr) distinct =>
    rw [exprReads] at h
    simp only [evalExpr, evalExpr_frame expr h]

theorem evalExprs_frame (exprs : List Expr)
    (h : ∀ read ∈ exprsReads exprs, SameScan H p tables tables' read)
    (columns : List BoundColumn) (row : Row) (group : Option (List Row)) (ctes : Ctes) :
    evalExprs (H.inProcess p) tables' exprs columns row group ctes =
      evalExprs H tables exprs columns row group ctes := by
  match exprs with
  | [] => simp only [evalExprs]
  | expr :: exprs =>
    rw [exprsReads, List.forall_mem_append] at h
    simp only [evalExprs, evalExpr_frame expr h.1, evalExprs_frame exprs h.2]

theorem projectRow_frame (items : List SelectItem)
    (h : ∀ read ∈ itemsReads items, SameScan H p tables tables' read)
    (columns : List BoundColumn) (row : Row) (group : Option (List Row)) (ctes : Ctes) :
    projectRow (H.inProcess p) tables' items columns row group ctes =
      projectRow H tables items columns row group ctes := by
  match items with
  | [] => simp only [projectRow]
  | .wildcard qualifier :: items =>
    rw [itemsReads] at h
    simp only [projectRow, projectRow_frame items h]
  | .expr expr _ :: items =>
    rw [itemsReads, List.forall_mem_append] at h
    simp only [projectRow, evalExpr_frame expr h.1, projectRow_frame items h.2]

theorem evalOrderValues_frame (orders : List OrderBy)
    (h : ∀ read ∈ orderReads orders, SameScan H p tables tables' read)
    (columns : List BoundColumn) (row : Row) (ctes : Ctes) :
    evalOrderValues (H.inProcess p) tables' orders columns row ctes =
      evalOrderValues H tables orders columns row ctes := by
  match orders with
  | [] => simp only [evalOrderValues]
  | ⟨expr, descending⟩ :: orders =>
    rw [orderReads, List.forall_mem_append] at h
    simp only [evalOrderValues, evalExpr_frame expr h.1, evalOrderValues_frame orders h.2]

theorem executeCtes_frame (clauses : List Cte)
    (h : ∀ read ∈ cteReads clauses, SameScan H p tables tables' read) (ctes : Ctes) :
    executeCtes (H.inProcess p) tables' clauses ctes = executeCtes H tables clauses ctes := by
  match clauses with
  | [] => simp only [executeCtes]
  | ⟨name, columns, query⟩ :: clauses =>
    rw [cteReads, List.forall_mem_append] at h
    simp only [executeCtes, executeQuery_frame query h.1, executeCtes_frame clauses h.2]

theorem sourceRelation_frame (source : TableSource) (selection : Option Expr)
    (h : ∀ read ∈ sourceReads source selection, SameScan H p tables tables' read) (ctes : Ctes) :
    sourceRelation (H.inProcess p) tables' source ctes selection =
      sourceRelation H tables source ctes selection := by
  match source with
  | .table name asName =>
    rw [sourceReads, List.forall_mem_singleton] at h
    have hscan := h (asName.getD name)
    simp only at hscan
    simp only [sourceRelation]
    cases hlookup : tables.lookup name with
    | none =>
      rw [hlookup, Option.map_none, Option.map_eq_none_iff] at hscan
      rw [hscan]
    | some table =>
      rw [hlookup, Option.map_some] at hscan
      obtain ⟨table', hlookup', hrelation⟩ := Option.map_eq_some_iff.mp hscan
      simp only [hlookup', hrelation]
  | .derived query asName =>
    rw [sourceReads] at h
    simp only [sourceRelation, executeQuery_frame query h]

theorem executeJoins_frame (joins : List Join)
    (h : ∀ read ∈ joinReads joins, SameScan H p tables tables' read) (relation : Relation)
    (ctes : Ctes) :
    executeJoins (H.inProcess p) tables' joins relation ctes =
      executeJoins H tables joins relation ctes := by
  match joins with
  | [] => simp only [executeJoins]
  | ⟨joinType, source, none⟩ :: joins =>
    rw [joinReads, List.forall_mem_append] at h
    simp only [executeJoins, sourceRelation_frame source none h.1, joinRelations_inProcess,
      executeJoins_frame joins h.2]
  | ⟨joinType, source, some on⟩ :: joins =>
    rw [joinReads, List.forall_mem_append, List.forall_mem_append] at h
    simp only [executeJoins, sourceRelation_frame source none h.1.1, evalExpr_frame on h.1.2,
      joinRelations_inProcess, executeJoins_frame joins h.2]

/-- **A query sees nothing of a catalog but the scans it names**, in whatever process. -/
theorem executeQuery_frame (query : Query)
    (h : ∀ read ∈ queryReads query, SameScan H p tables tables' read) (inherited : Ctes) :
    executeQuery (H.inProcess p) tables' query inherited =
      executeQuery H tables query inherited := by
  match query with
  | ⟨clauses, distinct, projection, source, joins, selection, groupBy, having, orderBy, limit⟩ =>
    simp only [queryReads, List.forall_mem_append] at h
    obtain ⟨⟨⟨⟨⟨⟨⟨hctes, hprojection⟩, hsource⟩, hjoins⟩, hselection⟩, hgroupBy⟩, hhaving⟩,
      horderBy⟩ := h
    have hfrom : ∀ ctes, fromRelation (H.inProcess p) tables' source ctes selection =
        fromRelation H tables source ctes selection := fun ctes => by
      match source with
      | none => simp only [fromRelation]
      | some source =>
        rw [fromReads] at hsource
        simp only [fromRelation, sourceRelation_frame source selection hsource]
    have hwhere : ∀ ctes, whereEvaluator (H.inProcess p) tables' selection ctes =
        whereEvaluator H tables selection ctes := fun ctes => by
      match selection with
      | none => simp only [whereEvaluator]
      | some expr =>
        rw [optionReads] at hselection
        simp only [whereEvaluator, evalExpr_frame expr hselection]
    have having_frame : ∀ ctes, havingEvaluator (H.inProcess p) tables' having ctes =
        havingEvaluator H tables having ctes := fun ctes => by
      match having with
      | none => simp only [havingEvaluator]
      | some expr =>
        rw [optionReads] at hhaving
        simp only [havingEvaluator, evalExpr_frame expr hhaving]
    simp only [executeQuery, executeCtes_frame clauses hctes, hfrom,
      executeJoins_frame joins hjoins, hwhere, having_frame, evalExprs_frame groupBy hgroupBy,
      projectRow_frame projection hprojection, evalOrderValues_frame orderBy horderBy,
      finishQuery_inProcess]

end

end Frame

end Sql
end RustyDB
