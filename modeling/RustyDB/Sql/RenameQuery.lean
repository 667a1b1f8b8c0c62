import Mathlib
import RustyDB.Sql.Reads

/-!
# What RENAME COLUMN means to a query

`rename_expr` does not follow a column into the subqueries of a CHECK expression.  A query
that does not need the old name, and has no other use of the new one, returns the same rows
all the same.

* `Heading`, `queryHeading` — the columns of a query, each under its name before and after.
* `exprUnmoved`, `queryUnmoved` — no name of a query stands for another column afterwards.
* `queryUnmoved_of_reads` — a query that does not read the table is unmoved.
* `ScansUnmoved` — the scans of two catalogs return the same rows.
* `executeQuery_unmoved` — **what an unmoved query returns**: the same rows.
-/

namespace RustyDB
namespace Sql

open Result

/-! ## Headings -/

/-- The column of a table that gets a new name. -/
structure Renaming where
  tableName : String
  old : String
  new : String

/-- A column of a relation, under its name before the renaming and after. -/
structure HeadColumn where
  table : String
  before : String
  after : String

/-- The columns of a relation. -/
abbrev Heading := List HeadColumn

/-- The columns of what WITH clauses have bound. -/
abbrev CteHeadings := AList (fun _ : String => Heading)

/-- The columns before the renaming. -/
def Heading.before (heading : Heading) : List BoundColumn :=
  heading.map fun column => ⟨column.table, column.before⟩

/-- The columns after it. -/
def Heading.after (heading : Heading) : List BoundColumn :=
  heading.map fun column => ⟨column.table, column.after⟩

/-- Every column gets a new table name. -/
def Heading.renameTable (heading : Heading) (name : String) : Heading :=
  heading.map fun column => { column with table := name }

/-- Columns that have the same name before and after. -/
def sameHeading (columns : List BoundColumn) : Heading :=
  columns.map fun column => ⟨column.table, column.name, column.name⟩

/-- The columns of a CTE, under its column list when there is one. -/
def cteHeading (name : String) (columns : List String) (heading : Heading) : Heading :=
  if columns.isEmpty then heading.renameTable name
  else Heading.renameTable
    (heading.zipWith (fun column name => { column with before := name, after := name }) columns)
    name

/-- The columns of a projection. -/
def itemsHeading (heading : Heading) : List SelectItem → Heading
  | [] => []
  | .wildcard qualifier :: items =>
    heading.filter (fun column => wildcardCovers qualifier ⟨column.table, column.before⟩) ++
      itemsHeading heading items
  | .expr expr asName :: items =>
    sameHeading [outputColumn expr asName] ++ itemsHeading heading items

section Headings

variable (tables : Tables) (r : Renaming)

/-- The columns of a table. -/
def tableHeading (name visibleName : String) : Heading :=
  match tables.lookup name with
  | none => []
  | some table => table.schema.columns.map fun column =>
    { table := visibleName
      before := column.name
      after := if name = r.tableName then renameName r.old r.new column.name
        else column.name }

mutual

/-- **The columns of a query.** -/
def queryHeading (inherited : CteHeadings) (query : Query) : Heading :=
  match query with
  | ⟨clauses, _, projection, source, joins, _, _, _, _, _⟩ =>
    itemsHeading (joinsHeading (ctesHeadings clauses inherited) joins
      (fromHeading (ctesHeadings clauses inherited) source)) projection

/-- The WITH clauses, each visible to the later ones. -/
def ctesHeadings (clauses : List Cte) (bound : CteHeadings) : CteHeadings :=
  match clauses with
  | [] => bound
  | ⟨name, columns, query⟩ :: clauses =>
    ctesHeadings clauses (bound.insert name (cteHeading name columns (queryHeading bound query)))

/-- The columns of a source. -/
def sourceHeading (bound : CteHeadings) : TableSource → Heading
  | .table name asName =>
    match bound.lookup name with
    | some heading => heading.renameTable (asName.getD name)
    | none => tableHeading tables r name (asName.getD name)
  | .derived query asName => (queryHeading bound query).renameTable asName

/-- The columns behind the joins. -/
def joinsHeading (bound : CteHeadings) (joins : List Join) (heading : Heading) : Heading :=
  match joins with
  | [] => heading
  | ⟨_, source, _⟩ :: joins => joinsHeading bound joins (heading ++ sourceHeading bound source)

/-- The columns of a FROM clause. -/
def fromHeading (bound : CteHeadings) : Option TableSource → Heading
  | none => []
  | some source => sourceHeading bound source

end

end Headings

/-! ## Unmoved queries -/

/-- A name stands for the same column before and after. -/
def Heading.keeps (heading : Heading) (qualifier : Option String) (name : String) : Bool :=
  decide (resolveColumn heading.after qualifier name = resolveColumn heading.before qualifier name)

/-- An expression that ORDER BY looks up by its name. -/
def Expr.isAggregate : Expr → Bool
  | .aggregate _ _ _ => true
  | _ => false

/-- An index that a constraint asks for is named after a column. -/
def namesIndex (column : String) : TableConstraint → Bool
  | .unique none columns => columns.any fun name => eqIgnoreAsciiCase name column
  | .foreignKey foreignKey =>
    foreignKey.name.isNone && foreignKey.columns.any fun name => eqIgnoreAsciiCase name column
  | _ => false

/-- A WHERE clause lets the indexes of the renamed table skip what it did: it compares neither
name with a literal, and it probes no index, or the indexes have the names they had. -/
def Renaming.keepsScan (r : Renaming) (table : Table) (e : Expr) : Bool :=
  (collectIndexPredicates e).all (fun predicate =>
    !eqIgnoreAsciiCase predicate.column r.old &&
      !eqIgnoreAsciiCase predicate.column r.new) &&
  (table.schema.indexes.all (fun definition =>
      (indexProbe (collectIndexPredicates e) definition.columns).isVacuous) ||
    table.schema.constraints.all fun constraint => !namesIndex r.old constraint)

section Unmoved

variable (tables : Tables) (r : Renaming)

/-- The scan of a table returns the rows it did. -/
def scanUnmoved (name : String) (selection : Option Expr) : Bool :=
  match selection, tables.lookup name with
  | some e, some table => name != r.tableName || r.keepsScan table e
  | _, _ => true

mutual

/-- **No name of an expression stands for another column** than before, in itself or in its
subqueries. -/
def exprUnmoved (bound : CteHeadings) (heading : Heading) : Expr → Bool
  | .column qualifier name => heading.keeps qualifier name
  | .unary _ expr => exprUnmoved bound heading expr
  | .binary left _ right => exprUnmoved bound heading left && exprUnmoved bound heading right
  | .isNull expr _ => exprUnmoved bound heading expr
  | .like expr pattern _ => exprUnmoved bound heading expr && exprUnmoved bound heading pattern
  | .inList expr list _ => exprUnmoved bound heading expr && exprsUnmoved bound heading list
  | .inSubquery expr query _ => exprUnmoved bound heading expr && queryUnmoved bound query
  | .exist query _ => queryUnmoved bound query
  | .scalarSubquery query => queryUnmoved bound query
  | .aggregate _ (some expr) _ => exprUnmoved bound heading expr
  | _ => true

/-- Nor does one of a list of expressions. -/
def exprsUnmoved (bound : CteHeadings) (heading : Heading) : List Expr → Bool
  | [] => true
  | expr :: exprs => exprUnmoved bound heading expr && exprsUnmoved bound heading exprs

/-- Nor one of a clause that may be missing. -/
def optionUnmoved (bound : CteHeadings) (heading : Heading) : Option Expr → Bool
  | none => true
  | some expr => exprUnmoved bound heading expr

/-- Nor one of a projection. -/
def itemsUnmoved (bound : CteHeadings) (heading : Heading) : List SelectItem → Bool
  | [] => true
  | .wildcard _ :: items => itemsUnmoved bound heading items
  | .expr expr _ :: items => exprUnmoved bound heading expr && itemsUnmoved bound heading items

/-- Nor one of an ORDER BY clause, where an aggregate is looked up by its name. -/
def ordersUnmoved (bound : CteHeadings) (heading : Heading) : List OrderBy → Bool
  | [] => true
  | ⟨expr, _⟩ :: orders =>
    (if expr.isAggregate then heading.keeps none (expressionName expr)
      else exprUnmoved bound heading expr) && ordersUnmoved bound heading orders

/-- The WITH clauses, each visible to the later ones. -/
def ctesUnmoved (clauses : List Cte) (bound : CteHeadings) : Bool :=
  match clauses with
  | [] => true
  | ⟨name, columns, query⟩ :: clauses =>
    queryUnmoved bound query &&
      ctesUnmoved clauses
        (bound.insert name (cteHeading name columns (queryHeading tables r bound query)))

/-- A source, restricted by what `selection` lets an index skip. -/
def sourceUnmoved (bound : CteHeadings) (source : TableSource) (selection : Option Expr) : Bool :=
  match source with
  | .table name _ => (bound.lookup name).isSome || scanUnmoved tables r name selection
  | .derived query _ => queryUnmoved bound query

/-- The joins in order; a hash join looks its columns up on either side. -/
def joinsUnmoved (bound : CteHeadings) (joins : List Join) (heading : Heading) : Bool :=
  match joins with
  | [] => true
  | ⟨_, source, none⟩ :: joins =>
    sourceUnmoved bound source none &&
      joinsUnmoved bound joins (heading ++ sourceHeading tables r bound source)
  | ⟨_, source, some on⟩ :: joins =>
    let right := sourceHeading tables r bound source
    sourceUnmoved bound source none &&
      decide (hashJoinIndices on heading.after right.after =
        hashJoinIndices on heading.before right.before) &&
      ((hashJoinIndices on heading.before right.before).isSome ||
        exprUnmoved bound (heading ++ right) on) &&
      joinsUnmoved bound joins (heading ++ right)

/-- The FROM clause. -/
def fromUnmoved (bound : CteHeadings) (source : Option TableSource) (selection : Option Expr) :
    Bool :=
  match source with
  | none => true
  | some source => sourceUnmoved bound source selection

/-- **A query**: the rows are sorted on the same side of the projection, too. -/
def queryUnmoved (inherited : CteHeadings) (query : Query) : Bool :=
  match query with
  | ⟨clauses, distinct, projection, source, joins, selection, groupBy, having, orderBy, limit⟩ =>
    let bound := ctesHeadings tables r clauses inherited
    let heading := joinsHeading tables r bound joins
      (fromHeading tables r bound source)
    let query : Query :=
      ⟨clauses, distinct, projection, source, joins, selection, groupBy, having, orderBy, limit⟩
    ctesUnmoved clauses inherited && fromUnmoved bound source selection &&
      joinsUnmoved bound joins (fromHeading tables r bound source) &&
      optionUnmoved bound heading selection && exprsUnmoved bound heading groupBy &&
      optionUnmoved bound heading having && itemsUnmoved bound heading projection &&
      decide (query.ordersSource heading.after = query.ordersSource heading.before) &&
      ordersUnmoved bound
        (if query.ordersSource heading.before then heading
          else itemsHeading heading projection) orderBy

end

end Unmoved

/-! ## Queries that do not read the table -/

/-- Every column has the name it had. -/
def Heading.Fixed (heading : Heading) : Prop := ∀ column ∈ heading, column.after = column.before

/-- So has every column that WITH clauses have bound. -/
def CtesFixed (bound : CteHeadings) : Prop :=
  ∀ name, ∀ heading ∈ bound.lookup name, heading.Fixed

section Fixed

variable {tables : Tables} {r : Renaming} {heading : Heading} {bound : CteHeadings}

theorem Heading.Fixed.after_eq (h : heading.Fixed) : heading.after = heading.before :=
  List.map_congr_left fun column hmem => by rw [h column hmem]

theorem Heading.Fixed.append {left right : Heading} (hleft : left.Fixed) (hright : right.Fixed) :
    Heading.Fixed (left ++ right) :=
  List.forall_mem_append.mpr ⟨hleft, hright⟩

theorem Heading.Fixed.renameTable (h : heading.Fixed) (name : String) :
    (heading.renameTable name).Fixed := by
  intro column hmem
  obtain ⟨before, hbefore, rfl⟩ := List.mem_map.mp hmem
  exact h before hbefore

theorem Heading.Fixed.keeps (h : heading.Fixed) (qualifier : Option String) (name : String) :
    heading.keeps qualifier name = true := by
  rw [Heading.keeps, h.after_eq, decide_eq_true_eq]

theorem fixed_sameHeading (columns : List BoundColumn) : (sameHeading columns).Fixed := by
  intro column hmem
  obtain ⟨before, -, rfl⟩ := List.mem_map.mp hmem
  rfl

theorem fixed_cteHeading (h : heading.Fixed) (name : String) (columns : List String) :
    (cteHeading name columns heading).Fixed := by
  rw [cteHeading]
  split_ifs
  · exact h.renameTable name
  · refine Heading.Fixed.renameTable (fun column hmem => ?_) name
    rw [← List.map_uncurry_zip_eq_zipWith] at hmem
    obtain ⟨entry, -, rfl⟩ := List.mem_map.mp hmem
    rfl

theorem fixed_itemsHeading (h : heading.Fixed) (items : List SelectItem) :
    (itemsHeading heading items).Fixed := by
  induction items with
  | nil => exact fun column hmem => absurd hmem List.not_mem_nil
  | cons item items ih =>
    cases item with
    | wildcard qualifier =>
      exact Heading.Fixed.append (fun column hmem => h column (List.mem_of_mem_filter hmem)) ih
    | expr expr asName => exact (fixed_sameHeading _).append ih

theorem CtesFixed.empty : CtesFixed ∅ := fun name heading hheading => by cases hheading

theorem CtesFixed.insert (h : CtesFixed bound) (name : String) (hheading : heading.Fixed) :
    CtesFixed (bound.insert name heading) := by
  intro other found hfound
  by_cases hother : other = name
  · subst hother
    rw [AList.lookup_insert, Option.mem_some_iff] at hfound
    exact hfound ▸ hheading
  · rw [AList.lookup_insert_ne hother] at hfound
    exact h other found hfound

theorem fixed_tableHeading {name : String} (hname : name ≠ r.tableName) (visibleName : String) :
    (tableHeading tables r name visibleName).Fixed := by
  intro column hmem
  rw [tableHeading] at hmem
  split at hmem
  · cases hmem
  · obtain ⟨before, -, rfl⟩ := List.mem_map.mp hmem
    exact if_neg hname

/-- A scan of another table is unmoved. -/
theorem scanUnmoved_of_ne {name : String} (hname : name ≠ r.tableName) (selection : Option Expr) :
    scanUnmoved tables r name selection = true := by
  unfold scanUnmoved
  split
  · rw [bne_iff_ne.mpr hname, Bool.true_or]
  · rfl

mutual

theorem fixed_queryHeading (query : Query) {bound : CteHeadings} (hbound : CtesFixed bound)
    (h : ∀ read ∈ queryReads query, read.1 ≠ r.tableName) :
    (queryHeading tables r bound query).Fixed := by
  match query with
  | ⟨clauses, distinct, projection, source, joins, selection, groupBy, having, orderBy, limit⟩ =>
    simp only [queryReads, List.forall_mem_append] at h
    obtain ⟨⟨⟨⟨⟨⟨⟨hctes, -⟩, hsource⟩, hjoins⟩, -⟩, -⟩, -⟩, -⟩ := h
    rw [queryHeading]
    have hclauses := fixed_ctesHeadings clauses hbound hctes
    refine fixed_itemsHeading (fixed_joinsHeading joins hclauses ?_ hjoins) projection
    match source with
    | none =>
      rw [fromHeading]
      exact fun column hmem => absurd hmem List.not_mem_nil
    | some source =>
      rw [fromReads] at hsource
      rw [fromHeading]
      exact fixed_sourceHeading source selection hclauses hsource

theorem fixed_ctesHeadings (clauses : List Cte) {bound : CteHeadings} (hbound : CtesFixed bound)
    (h : ∀ read ∈ cteReads clauses, read.1 ≠ r.tableName) :
    CtesFixed (ctesHeadings tables r clauses bound) := by
  match clauses with
  | [] =>
    rw [ctesHeadings]
    exact hbound
  | ⟨name, columns, query⟩ :: clauses =>
    rw [cteReads, List.forall_mem_append] at h
    rw [ctesHeadings]
    have hheading := fixed_cteHeading (fixed_queryHeading query hbound h.1) name columns
    exact fixed_ctesHeadings clauses (hbound.insert name hheading) h.2

theorem fixed_sourceHeading (source : TableSource) (selection : Option Expr) {bound : CteHeadings}
    (hbound : CtesFixed bound) (h : ∀ read ∈ sourceReads source selection, read.1 ≠ r.tableName) :
    (sourceHeading tables r bound source).Fixed := by
  match source with
  | .table name asName =>
    rw [sourceReads, List.forall_mem_singleton] at h
    rw [sourceHeading]
    cases hheading : bound.lookup name with
    | some heading => exact (hbound name heading hheading).renameTable _
    | none => exact fixed_tableHeading h _
  | .derived query asName =>
    rw [sourceReads] at h
    rw [sourceHeading]
    exact (fixed_queryHeading query hbound h).renameTable asName

theorem fixed_joinsHeading (joins : List Join) {bound : CteHeadings} {heading : Heading}
    (hbound : CtesFixed bound) (hheading : heading.Fixed)
    (h : ∀ read ∈ joinReads joins, read.1 ≠ r.tableName) :
    (joinsHeading tables r bound joins heading).Fixed := by
  match joins with
  | [] =>
    rw [joinsHeading]
    exact hheading
  | ⟨joinType, source, none⟩ :: joins =>
    rw [joinReads, List.forall_mem_append] at h
    rw [joinsHeading]
    exact fixed_joinsHeading joins hbound
      (hheading.append (fixed_sourceHeading source none hbound h.1)) h.2
  | ⟨joinType, source, some on⟩ :: joins =>
    rw [joinReads, List.forall_mem_append, List.forall_mem_append] at h
    rw [joinsHeading]
    exact fixed_joinsHeading joins hbound
      (hheading.append (fixed_sourceHeading source none hbound h.1.1)) h.2

end

mutual

theorem exprUnmoved_of_reads (e : Expr) {bound : CteHeadings} {heading : Heading}
    (hbound : CtesFixed bound) (hheading : heading.Fixed)
    (h : ∀ read ∈ exprReads e, read.1 ≠ r.tableName) :
    exprUnmoved tables r bound heading e = true := by
  match e with
  | .literal _ => rw [exprUnmoved] <;> simp
  | .parameter _ => rw [exprUnmoved] <;> simp
  | .incoming _ => rw [exprUnmoved] <;> simp
  | .column qualifier name =>
    rw [exprUnmoved]
    exact hheading.keeps qualifier name
  | .unary op expr =>
    rw [exprReads] at h
    rw [exprUnmoved]
    exact exprUnmoved_of_reads expr hbound hheading h
  | .binary left op right =>
    rw [exprReads, List.forall_mem_append] at h
    rw [exprUnmoved, exprUnmoved_of_reads left hbound hheading h.1,
      exprUnmoved_of_reads right hbound hheading h.2, Bool.and_self]
  | .isNull expr negated =>
    rw [exprReads] at h
    rw [exprUnmoved]
    exact exprUnmoved_of_reads expr hbound hheading h
  | .like expr pattern negated =>
    rw [exprReads, List.forall_mem_append] at h
    rw [exprUnmoved, exprUnmoved_of_reads expr hbound hheading h.1,
      exprUnmoved_of_reads pattern hbound hheading h.2, Bool.and_self]
  | .inList expr list negated =>
    rw [exprReads, List.forall_mem_append] at h
    rw [exprUnmoved, exprUnmoved_of_reads expr hbound hheading h.1,
      exprsUnmoved_of_reads list hbound hheading h.2, Bool.and_self]
  | .inSubquery expr query negated =>
    rw [exprReads, List.forall_mem_append] at h
    rw [exprUnmoved, exprUnmoved_of_reads expr hbound hheading h.1,
      queryUnmoved_of_reads query hbound h.2, Bool.and_self]
  | .exist query negated =>
    rw [exprReads] at h
    rw [exprUnmoved]
    exact queryUnmoved_of_reads query hbound h
  | .scalarSubquery query =>
    rw [exprReads] at h
    rw [exprUnmoved]
    exact queryUnmoved_of_reads query hbound h
  | .aggregate function none distinct => rw [exprUnmoved] <;> simp
  | .aggregate function (some expr) distinct =>
    rw [exprReads] at h
    rw [exprUnmoved]
    exact exprUnmoved_of_reads expr hbound hheading h

theorem exprsUnmoved_of_reads (exprs : List Expr) {bound : CteHeadings} {heading : Heading}
    (hbound : CtesFixed bound) (hheading : heading.Fixed)
    (h : ∀ read ∈ exprsReads exprs, read.1 ≠ r.tableName) :
    exprsUnmoved tables r bound heading exprs = true := by
  match exprs with
  | [] => rw [exprsUnmoved]
  | expr :: exprs =>
    rw [exprsReads, List.forall_mem_append] at h
    rw [exprsUnmoved, exprUnmoved_of_reads expr hbound hheading h.1,
      exprsUnmoved_of_reads exprs hbound hheading h.2, Bool.and_self]

theorem optionUnmoved_of_reads (clause : Option Expr) {bound : CteHeadings} {heading : Heading}
    (hbound : CtesFixed bound) (hheading : heading.Fixed)
    (h : ∀ read ∈ optionReads clause, read.1 ≠ r.tableName) :
    optionUnmoved tables r bound heading clause = true := by
  match clause with
  | none => rw [optionUnmoved]
  | some expr =>
    rw [optionReads] at h
    rw [optionUnmoved]
    exact exprUnmoved_of_reads expr hbound hheading h

theorem itemsUnmoved_of_reads (items : List SelectItem) {bound : CteHeadings} {heading : Heading}
    (hbound : CtesFixed bound) (hheading : heading.Fixed)
    (h : ∀ read ∈ itemsReads items, read.1 ≠ r.tableName) :
    itemsUnmoved tables r bound heading items = true := by
  match items with
  | [] => rw [itemsUnmoved]
  | .wildcard qualifier :: items =>
    rw [itemsReads] at h
    rw [itemsUnmoved]
    exact itemsUnmoved_of_reads items hbound hheading h
  | .expr expr asName :: items =>
    rw [itemsReads, List.forall_mem_append] at h
    rw [itemsUnmoved, exprUnmoved_of_reads expr hbound hheading h.1,
      itemsUnmoved_of_reads items hbound hheading h.2, Bool.and_self]

theorem ordersUnmoved_of_reads (orders : List OrderBy) {bound : CteHeadings} {heading : Heading}
    (hbound : CtesFixed bound) (hheading : heading.Fixed)
    (h : ∀ read ∈ orderReads orders, read.1 ≠ r.tableName) :
    ordersUnmoved tables r bound heading orders = true := by
  match orders with
  | [] => rw [ordersUnmoved]
  | ⟨expr, descending⟩ :: orders =>
    rw [orderReads, List.forall_mem_append] at h
    rw [ordersUnmoved, hheading.keeps, exprUnmoved_of_reads expr hbound hheading h.1, ite_self,
      ordersUnmoved_of_reads orders hbound hheading h.2, Bool.and_self]

theorem ctesUnmoved_of_reads (clauses : List Cte) {bound : CteHeadings} (hbound : CtesFixed bound)
    (h : ∀ read ∈ cteReads clauses, read.1 ≠ r.tableName) :
    ctesUnmoved tables r clauses bound = true := by
  match clauses with
  | [] => rw [ctesUnmoved]
  | ⟨name, columns, query⟩ :: clauses =>
    rw [cteReads, List.forall_mem_append] at h
    have hquery := @fixed_queryHeading tables r query bound hbound h.1
    have hheading := fixed_cteHeading hquery name columns
    rw [ctesUnmoved, queryUnmoved_of_reads query hbound h.1,
      ctesUnmoved_of_reads clauses (hbound.insert name hheading) h.2, Bool.and_self]

theorem sourceUnmoved_of_reads (source : TableSource) (selection : Option Expr)
    {bound : CteHeadings} (hbound : CtesFixed bound)
    (h : ∀ read ∈ sourceReads source selection, read.1 ≠ r.tableName) :
    sourceUnmoved tables r bound source selection = true := by
  match source with
  | .table name asName =>
    rw [sourceReads, List.forall_mem_singleton] at h
    rw [sourceUnmoved, scanUnmoved_of_ne h, Bool.or_true]
  | .derived query asName =>
    rw [sourceReads] at h
    rw [sourceUnmoved]
    exact queryUnmoved_of_reads query hbound h

theorem joinsUnmoved_of_reads (joins : List Join) {bound : CteHeadings} {heading : Heading}
    (hbound : CtesFixed bound) (hheading : heading.Fixed)
    (h : ∀ read ∈ joinReads joins, read.1 ≠ r.tableName) :
    joinsUnmoved tables r bound joins heading = true := by
  match joins with
  | [] => rw [joinsUnmoved]
  | ⟨joinType, source, none⟩ :: joins =>
    rw [joinReads, List.forall_mem_append] at h
    have hright := @fixed_sourceHeading tables r source none bound hbound h.1
    rw [joinsUnmoved, sourceUnmoved_of_reads source none hbound h.1,
      joinsUnmoved_of_reads joins hbound (hheading.append hright) h.2, Bool.and_self]
  | ⟨joinType, source, some on⟩ :: joins =>
    rw [joinReads, List.forall_mem_append, List.forall_mem_append] at h
    have hright := @fixed_sourceHeading tables r source none bound hbound h.1.1
    rw [joinsUnmoved, sourceUnmoved_of_reads source none hbound h.1.1, hheading.after_eq,
      hright.after_eq, exprUnmoved_of_reads on hbound (hheading.append hright) h.1.2,
      joinsUnmoved_of_reads joins hbound (hheading.append hright) h.2]
    simp

/-- **A query that does not read the table** of the renamed column is unmoved. -/
theorem queryUnmoved_of_reads (query : Query) {bound : CteHeadings} (hbound : CtesFixed bound)
    (h : ∀ read ∈ queryReads query, read.1 ≠ r.tableName) :
    queryUnmoved tables r bound query = true := by
  match query with
  | ⟨clauses, distinct, projection, source, joins, selection, groupBy, having, orderBy, limit⟩ =>
    simp only [queryReads, List.forall_mem_append] at h
    obtain ⟨⟨⟨⟨⟨⟨⟨hctes, hprojection⟩, hsource⟩, hjoins⟩, hselection⟩, hgroupBy⟩, hhaving⟩,
      horderBy⟩ := h
    have hclauses := @fixed_ctesHeadings tables r clauses bound hbound hctes
    have hfrom : (fromHeading tables r (ctesHeadings tables r clauses bound) source).Fixed ∧
        fromUnmoved tables r (ctesHeadings tables r clauses bound) source selection = true := by
      match source with
      | none =>
        rw [fromHeading, fromUnmoved]
        exact ⟨fun column hmem => absurd hmem List.not_mem_nil, rfl⟩
      | some source =>
        rw [fromReads] at hsource
        rw [fromHeading, fromUnmoved]
        exact ⟨fixed_sourceHeading source selection hclauses hsource,
          sourceUnmoved_of_reads source selection hclauses hsource⟩
    have hheading := @fixed_joinsHeading tables r joins _ _ hclauses hfrom.1 hjoins
    simp only [queryUnmoved, ctesUnmoved_of_reads clauses hbound hctes, hfrom.2,
      joinsUnmoved_of_reads joins hclauses hfrom.1 hjoins,
      optionUnmoved_of_reads selection hclauses hheading hselection,
      exprsUnmoved_of_reads groupBy hclauses hheading hgroupBy,
      optionUnmoved_of_reads having hclauses hheading hhaving,
      itemsUnmoved_of_reads projection hclauses hheading hprojection, hheading.after_eq,
      decide_true, Bool.and_self, Bool.true_and]
    refine ordersUnmoved_of_reads orderBy hclauses ?_ horderBy
    split_ifs
    · exact hheading
    · exact fixed_itemsHeading hheading projection

end

end Fixed

/-! ## Relations under a heading -/

/-- A relation before the renaming and after: the same rows under the columns of a heading. -/
structure Heads (heading : Heading) (relation relation' : Relation) : Prop where
  before : relation.columns = heading.before
  after : relation'.columns = heading.after
  rows : relation'.rows = relation.rows

/-- What WITH clauses have bound before and after. -/
def CtesHead (bound : CteHeadings) (ctes ctes' : Ctes) : Prop :=
  ∀ name, match bound.lookup name with
    | none => ctes.lookup name = none ∧ ctes'.lookup name = none
    | some heading => ∃ relation relation', ctes.lookup name = some relation ∧
      ctes'.lookup name = some relation' ∧ Heads heading relation relation'

section Relations

variable {H : Host} {heading left right : Heading}
  {relation relation' leftRelation leftRelation' rightRelation rightRelation' : Relation}

@[simp]
theorem Heading.length_before (heading : Heading) : heading.before.length = heading.length :=
  List.length_map _

@[simp]
theorem Heading.length_after (heading : Heading) : heading.after.length = heading.length :=
  List.length_map _

@[simp]
theorem Heading.before_append (left right : Heading) :
    Heading.before (left ++ right) = left.before ++ right.before :=
  List.map_append

@[simp]
theorem Heading.after_append (left right : Heading) :
    Heading.after (left ++ right) = left.after ++ right.after :=
  List.map_append

@[simp]
theorem before_sameHeading (columns : List BoundColumn) :
    (sameHeading columns).before = columns :=
  List.map_map.trans (List.map_id _)

@[simp]
theorem after_sameHeading (columns : List BoundColumn) :
    (sameHeading columns).after = columns :=
  List.map_map.trans (List.map_id _)

theorem ctesHead_empty : CtesHead ∅ ∅ ∅ := fun _ => ⟨rfl, rfl⟩

theorem CtesHead.insert {bound : CteHeadings} {ctes ctes' : Ctes} (h : CtesHead bound ctes ctes')
    (name : String) (hheads : Heads heading relation relation') :
    CtesHead (bound.insert name heading) (ctes.insert name relation)
      (ctes'.insert name relation') := by
  intro other
  by_cases hother : other = name
  · subst hother
    simp only [AList.lookup_insert]
    exact ⟨relation, relation', rfl, rfl, hheads⟩
  · simp only [AList.lookup_insert_ne hother]
    exact h other

theorem Heads.renameTable (h : Heads heading relation relation') (name : String) :
    Heads (heading.renameTable name) (relation.renameTable name) (relation'.renameTable name) where
  before := by
    simp [Relation.renameTable, h.before, Heading.before, Heading.renameTable]
  after := by
    simp [Relation.renameTable, h.after, Heading.after, Heading.renameTable]
  rows := h.rows

theorem heads_cteRelation (h : Heads heading relation relation') (name : String)
    (columns : List String) :
    Both (Heads (cteHeading name columns heading)) (cteRelation name columns relation)
      (cteRelation name columns relation') := by
  have hlength : relation'.columns.length = relation.columns.length := by
    rw [h.before, h.after, Heading.length_before, Heading.length_after]
  rw [cteRelation, cteRelation, cteHeading, hlength]
  split_ifs
  · exact .ok (h.renameTable name)
  · exact .error _
  · have hnamed : Heads
        (heading.zipWith (fun column name => { column with before := name, after := name })
          columns)
        { relation with
          columns := relation.columns.zipWith (fun column name => { column with name }) columns }
        { relation' with
          columns := relation'.columns.zipWith (fun column name =>
            { column with name }) columns } := by
      refine ⟨?_, ?_, h.rows⟩
      · simp only [h.before, Heading.before, List.zipWith_map_left, List.map_zipWith]
      · simp only [h.after, Heading.after, List.zipWith_map_left, List.map_zipWith]
    exact .ok (hnamed.renameTable name)

/-- **A join** of the same rows. -/
theorem heads_joinRelations {joinType : JoinType} {on : Option Expr}
    {test test' : List BoundColumn → Row → Except Fault Bool}
    (hleft : Heads left leftRelation leftRelation')
    (hright : Heads right rightRelation rightRelation')
    (hhash : ∀ e ∈ on, hashJoinIndices e left.after right.after =
      hashJoinIndices e left.before right.before)
    (htest : (on.bind fun e => hashJoinIndices e left.before right.before) = none →
      test' (Heading.after (left ++ right)) = test (Heading.before (left ++ right))) :
    Both (Heads (left ++ right)) (joinRelations H leftRelation rightRelation joinType on test)
      (joinRelations H leftRelation' rightRelation' joinType on test') := by
  have hindices : (on.bind fun e => hashJoinIndices e left.after right.after) =
      on.bind fun e => hashJoinIndices e left.before right.before := by
    cases on with
    | none => rfl
    | some e => exact hhash e rfl
  have hjoined : ∀ matched, Heads (left ++ right)
      { columns := left.before ++ right.before
        rows := joinRows joinType left.before.length right.before.length leftRelation.rows
          rightRelation.rows matched }
      { columns := left.after ++ right.after
        rows := joinRows joinType left.after.length right.after.length leftRelation.rows
          rightRelation.rows matched } := fun matched => by
    refine ⟨(Heading.before_append left right).symm, (Heading.after_append left right).symm, ?_⟩
    simp only [Heading.length_before, Heading.length_after]
  simp only [joinRelations, hleft.before, hleft.after, hright.before, hright.after, hleft.rows,
    hright.rows, hindices]
  cases hmatch : on.bind fun e => hashJoinIndices e left.before right.before with
  | some indices =>
    simp only [hashJoin, hleft.before, hleft.after, hright.before, hright.after, hleft.rows,
      hright.rows]
    exact .bind_same _ fun entries => .bind_same _ fun matched => .ok (hjoined matched)
  | none =>
    have htests := htest hmatch
    rw [Heading.before_append, Heading.after_append] at htests
    simp only [htests]
    exact .bind_same _ fun matched => .ok (hjoined matched)

/-! ### The stages behind the joins -/

theorem wildcardValues_heading (qualifier : Option String) (row : Row) :
    wildcardValues qualifier heading.after row = wildcardValues qualifier heading.before row := by
  simp only [wildcardValues, Heading.after, Heading.before, List.zipIdx_map, List.filter_map,
    List.mapM_map]
  rfl

/-- The columns of a projection. -/
theorem projectionColumns_heading (items : List SelectItem) :
    Both (fun columns columns' => columns = (itemsHeading heading items).before ∧
        columns' = (itemsHeading heading items).after)
      (projectionColumns items heading.before) (projectionColumns items heading.after) := by
  induction items with
  | nil => exact .ok ⟨rfl, rfl⟩
  | cons item items ih =>
    rw [projectionColumns_cons, projectionColumns_cons]
    have hitem : Both (fun columns columns' => columns = (itemsHeading heading [item]).before ∧
        columns' = (itemsHeading heading [item]).after) (itemColumns heading.before item)
        (itemColumns heading.after item) := by
      cases item with
      | wildcard qualifier =>
        have hbefore : heading.before.filter (wildcardCovers qualifier) =
            (itemsHeading heading [.wildcard qualifier]).before := by
          simp only [itemsHeading, List.append_nil, Heading.before, List.filter_map]
          rfl
        have hafter : heading.after.filter (wildcardCovers qualifier) =
            (itemsHeading heading [.wildcard qualifier]).after := by
          simp only [itemsHeading, List.append_nil, Heading.after, List.filter_map]
          rfl
        have hempty : (itemsHeading heading [.wildcard qualifier]).after.isEmpty =
            (itemsHeading heading [.wildcard qualifier]).before.isEmpty := by
          simp [Heading.after, Heading.before]
        simp only [itemColumns, hbefore, hafter, hempty]
        split_ifs
        · exact .error _
        · exact .ok ⟨rfl, rfl⟩
      | expr expr asName => exact .ok ⟨by simp [itemsHeading]; rfl, by simp [itemsHeading]; rfl⟩
    refine hitem.bind ?_
    rintro first first' ⟨rfl, rfl⟩
    refine ih.bind ?_
    rintro rest rest' ⟨rfl, rfl⟩
    refine .ok ⟨?_, ?_⟩
    · rw [← Heading.before_append]
      cases item <;> simp [itemsHeading]
    · rw [← Heading.after_append]
      cases item <;> simp [itemsHeading]

variable {query : Query} {E E' : Evaluators} {out : Heading}

theorem heads_applySelection {selection selection' :
      Option (List BoundColumn → Row → Except Fault Value)}
    (h : Heads heading relation relation')
    (hselection : selection'.map (· heading.after) = selection.map (· heading.before)) :
    Both (Heads heading) (applySelection selection relation)
      (applySelection selection' relation') := by
  cases selection with
  | none =>
    rw [Option.map_none, Option.map_eq_none_iff] at hselection
    subst hselection
    exact .ok h
  | some test =>
    obtain ⟨test', rfl, htest⟩ := Option.map_eq_some_iff.mp hselection
    simp only [applySelection, h.before, h.after, h.rows, htest]
    exact .bind_same _ fun rows => .ok ⟨rfl, rfl, rfl⟩

theorem orderCompare_congr {columns columns' : List BoundColumn}
    (h : E'.orderBy columns' = E.orderBy columns) :
    orderCompare E' columns' = orderCompare E columns := by
  unfold orderCompare
  rw [h]

theorem heads_orderSource (h : Heads heading relation relation')
    (hsorts : query.ordersSource heading.after = query.ordersSource heading.before)
    (horder : query.ordersSource heading.before = true →
      E'.orderBy heading.after = E.orderBy heading.before) :
    Both (Heads heading) (orderSource H query E relation) (orderSource H query E' relation') := by
  simp only [orderSource, h.before, h.after, hsorts]
  split_ifs with hsource
  · rw [orderCompare_congr (horder hsource), h.rows]
    exact .bind_same _ fun rows => .ok ⟨rfl, rfl, rfl⟩
  · exact .ok h

theorem heads_orderOutput {sorted : Bool} (h : Heads out relation relation')
    (horder : sorted = false → E'.orderBy out.after = E.orderBy out.before) :
    Both (Heads out) (orderOutput H query E sorted relation)
      (orderOutput H query E' sorted relation') := by
  simp only [orderOutput, h.before, h.after]
  split_ifs with hsorts
  · rw [Bool.and_eq_true, Bool.not_eq_true', Bool.not_eq_true'] at hsorts
    rw [orderCompare_congr (horder hsorts.2), h.rows]
    exact .bind_same _ fun rows => .ok ⟨rfl, rfl, rfl⟩
  · exact .ok h

theorem heads_distinctRows (h : Heads heading relation relation') :
    Heads heading (distinctRows query relation) (distinctRows query relation') := by
  rw [distinctRows, distinctRows, h.rows]
  split_ifs
  · exact ⟨h.before, h.after, rfl⟩
  · exact h

theorem heads_limitRows (h : Heads heading relation relation') :
    Heads heading (limitRows query relation) (limitRows query relation') := by
  rw [limitRows, limitRows, h.rows]
  split
  · exact ⟨h.before, h.after, rfl⟩
  · exact h

theorem acceptsGroup_heading {representative : Row} {group : List Row}
    (hhaving : E'.having.map (· heading.after) = E.having.map (· heading.before)) :
    acceptsGroup E' heading.after representative group =
      acceptsGroup E heading.before representative group := by
  cases hbefore : E.having with
  | none =>
    rw [hbefore, Option.map_none, Option.map_eq_none_iff] at hhaving
    rw [acceptsGroup, acceptsGroup, hbefore, hhaving]
  | some test =>
    rw [hbefore, Option.map_some] at hhaving
    obtain ⟨test', hafter, htest⟩ := Option.map_eq_some_iff.mp hhaving
    simp only [acceptsGroup, hbefore, hafter, htest]

/-- **Grouping or projection** of the same rows. -/
theorem heads_outputRelation (h : Heads heading relation relation')
    (hgroupBy : E'.groupBy heading.after = E.groupBy heading.before)
    (hhaving : E'.having.map (· heading.after) = E.having.map (· heading.before))
    (hproject : E'.project heading.after = E.project heading.before) :
    Both (Heads (itemsHeading heading query.projection)) (outputRelation query E relation)
      (outputRelation query E' relation') := by
  have hcolumns := @projectionColumns_heading heading query.projection
  rw [outputRelation, outputRelation]
  split_ifs
  · simp only [aggregateQuery, h.before, h.after, h.rows, hgroupBy]
    refine .bind_same _ fun groups => ?_
    refine hcolumns.bind ?_
    rintro columns columns' ⟨rfl, rfl⟩
    have hgroup : ∀ group : String × List Row, projectGroup E' heading.after group.2 =
        projectGroup E heading.before group.2 := fun group => by
      simp only [projectGroup, Heading.length_after, Heading.length_before,
        acceptsGroup_heading hhaving, hproject]
    simp only [hgroup]
    exact .bind_same _ fun rows => .ok ⟨rfl, rfl, rfl⟩
  · simp only [projectQuery, h.before, h.after, h.rows, hproject]
    refine hcolumns.bind ?_
    rintro columns columns' ⟨rfl, rfl⟩
    exact .bind_same _ fun rows => .ok ⟨rfl, rfl, rfl⟩

/-- **All stages** behind the joins. -/
theorem heads_finishQuery (h : Heads heading relation relation')
    (hselection : E'.selection.map (· heading.after) = E.selection.map (· heading.before))
    (hgroupBy : E'.groupBy heading.after = E.groupBy heading.before)
    (hhaving : E'.having.map (· heading.after) = E.having.map (· heading.before))
    (hproject : E'.project heading.after = E.project heading.before)
    (hsorts : query.ordersSource heading.after = query.ordersSource heading.before)
    (hsource : query.ordersSource heading.before = true →
      E'.orderBy heading.after = E.orderBy heading.before)
    (houtput : query.ordersSource heading.before = false →
      E'.orderBy (itemsHeading heading query.projection).after =
        E.orderBy (itemsHeading heading query.projection).before) :
    Both (Heads (itemsHeading heading query.projection)) (finishQuery H query E relation)
      (finishQuery H query E' relation') := by
  rw [finishQuery, finishQuery]
  refine (heads_applySelection h hselection).bind fun filtered filtered' hfiltered => ?_
  refine (heads_orderSource hfiltered hsorts hsource).bind fun ordered ordered' hordered => ?_
  refine (heads_outputRelation hordered hgroupBy hhaving hproject).bind
    fun projected projected' hprojected => ?_
  have hsorted : query.ordersSource filtered'.columns = query.ordersSource filtered.columns := by
    rw [hfiltered.before, hfiltered.after, hsorts]
  rw [hsorted]
  refine (heads_orderOutput (heads_distinctRows hprojected) fun hsorted => ?_).bind
    fun output output' houtput => .ok (heads_limitRows houtput)
  exact houtput (by rw [← hfiltered.before]; exact hsorted)

end Relations

/-! ## Unmoved queries return the same rows -/

/-- The scans that are unmoved return the same rows in two catalogs. -/
def ScansUnmoved (H : Host) (r : Renaming) (tables tables' : Tables) : Prop :=
  ∀ name selection, scanUnmoved tables r name selection = true →
    ∀ visibleName, Option.Rel
      (fun table table' => Heads (tableHeading tables r name visibleName)
        (relationFromTable H table visibleName selection)
        (relationFromTable H table' visibleName selection))
      (tables.lookup name) (tables'.lookup name)

section Evaluation

variable {H : Host} {r : Renaming} {tables tables' : Tables}

/-- A cell under a name that is kept. -/
theorem resolveColumn_of_keeps {heading : Heading} {qualifier : Option String} {name : String}
    (h : heading.keeps qualifier name = true) :
    resolveColumn heading.after qualifier name = resolveColumn heading.before qualifier name :=
  of_decide_eq_true h

theorem orderValue_heading {heading : Heading} {expr : Expr} {row : Row}
    {evaluated evaluated' : Except Fault Value}
    (hkeeps : expr.isAggregate = true → heading.keeps none (expressionName expr) = true)
    (hsame : expr.isAggregate = false → evaluated' = evaluated) :
    orderValue expr heading.after row evaluated' =
      orderValue expr heading.before row evaluated := by
  cases expr with
  | aggregate function operand distinct =>
    simp only [orderValue, resolveColumn_of_keeps (hkeeps rfl)]
  | _ => exact hsame rfl

variable (hscans : ScansUnmoved H r tables tables')

include hscans

-- the siblings take it for each other
set_option linter.unusedSectionVars false

mutual

theorem evalExpr_unmoved (e : Expr) {bound : CteHeadings} {heading : Heading} {ctes ctes' : Ctes}
    (hctes : CtesHead bound ctes ctes') (h : exprUnmoved tables r bound heading e = true)
    (row : Row) (group : Option (List Row)) :
    evalExpr H tables' e heading.after row group ctes' =
      evalExpr H tables e heading.before row group ctes := by
  match e with
  | .literal _ => simp only [evalExpr]
  | .parameter _ => simp only [evalExpr]
  | .incoming _ => simp only [evalExpr]
  | .column qualifier name =>
    rw [exprUnmoved] at h
    simp only [evalExpr, resolveColumn_of_keeps h]
  | .unary op expr =>
    rw [exprUnmoved] at h
    simp only [evalExpr, evalExpr_unmoved expr hctes h]
  | .binary left op right =>
    rw [exprUnmoved, Bool.and_eq_true] at h
    simp only [evalExpr, evalExpr_unmoved left hctes h.1, evalExpr_unmoved right hctes h.2]
  | .isNull expr negated =>
    rw [exprUnmoved] at h
    simp only [evalExpr, evalExpr_unmoved expr hctes h]
  | .like expr pattern negated =>
    rw [exprUnmoved, Bool.and_eq_true] at h
    simp only [evalExpr, evalExpr_unmoved expr hctes h.1, evalExpr_unmoved pattern hctes h.2]
  | .inList expr list negated =>
    rw [exprUnmoved, Bool.and_eq_true] at h
    simp only [evalExpr, evalExpr_unmoved expr hctes h.1, evalExprs_unmoved list hctes h.2]
  | .inSubquery expr query negated =>
    rw [exprUnmoved, Bool.and_eq_true] at h
    simp only [evalExpr, evalExpr_unmoved expr hctes h.1]
    refine Result.bind_congr_of_ok fun value _ => ?_
    refine ((executeQuery_unmoved query hctes h.2).bind_eq fun relation relation' hheads => ?_).symm
    rw [hheads.before, hheads.after, Heading.length_before, Heading.length_after,
      inSubqueryTruth, inSubqueryTruth, hheads.rows]
  | .exist query negated =>
    rw [exprUnmoved] at h
    simp only [evalExpr]
    refine ((executeQuery_unmoved query hctes h).bind_eq fun relation relation' hheads => ?_).symm
    rw [hheads.rows]
  | .scalarSubquery query =>
    rw [exprUnmoved] at h
    simp only [evalExpr]
    refine ((executeQuery_unmoved query hctes h).bind_eq fun relation relation' hheads => ?_).symm
    rw [scalarSubqueryValue, scalarSubqueryValue, hheads.before, hheads.after,
      Heading.length_before, Heading.length_after, hheads.rows]
  | .aggregate function none distinct => simp only [evalExpr]
  | .aggregate function (some expr) distinct =>
    rw [exprUnmoved] at h
    simp only [evalExpr, evalExpr_unmoved expr hctes h]

theorem evalExprs_unmoved (exprs : List Expr) {bound : CteHeadings} {heading : Heading}
    {ctes ctes' : Ctes} (hctes : CtesHead bound ctes ctes')
    (h : exprsUnmoved tables r bound heading exprs = true) (row : Row)
    (group : Option (List Row)) :
    evalExprs H tables' exprs heading.after row group ctes' =
      evalExprs H tables exprs heading.before row group ctes := by
  match exprs with
  | [] => simp only [evalExprs]
  | expr :: exprs =>
    rw [exprsUnmoved, Bool.and_eq_true] at h
    simp only [evalExprs, evalExpr_unmoved expr hctes h.1, evalExprs_unmoved exprs hctes h.2]

theorem projectRow_unmoved (items : List SelectItem) {bound : CteHeadings} {heading : Heading}
    {ctes ctes' : Ctes} (hctes : CtesHead bound ctes ctes')
    (h : itemsUnmoved tables r bound heading items = true) (row : Row)
    (group : Option (List Row)) :
    projectRow H tables' items heading.after row group ctes' =
      projectRow H tables items heading.before row group ctes := by
  match items with
  | [] => simp only [projectRow]
  | .wildcard qualifier :: items =>
    rw [itemsUnmoved] at h
    simp only [projectRow, wildcardValues_heading, projectRow_unmoved items hctes h]
  | .expr expr _ :: items =>
    rw [itemsUnmoved, Bool.and_eq_true] at h
    simp only [projectRow, evalExpr_unmoved expr hctes h.1, projectRow_unmoved items hctes h.2]

theorem evalOrderValues_unmoved (orders : List OrderBy) {bound : CteHeadings} {heading : Heading}
    {ctes ctes' : Ctes} (hctes : CtesHead bound ctes ctes')
    (h : ordersUnmoved tables r bound heading orders = true) (row : Row) :
    evalOrderValues H tables' orders heading.after row ctes' =
      evalOrderValues H tables orders heading.before row ctes := by
  match orders with
  | [] => simp only [evalOrderValues]
  | ⟨expr, descending⟩ :: orders =>
    rw [ordersUnmoved, Bool.and_eq_true] at h
    have hvalue : orderValue expr heading.after row
          (evalExpr H tables' expr heading.after row none ctes') =
        orderValue expr heading.before row
          (evalExpr H tables expr heading.before row none ctes) := by
      refine orderValue_heading (fun haggregate => ?_) fun hother => ?_
      · rw [if_pos haggregate] at h
        exact h.1
      · rw [hother, if_neg Bool.false_ne_true] at h
        exact evalExpr_unmoved expr hctes h.1 row none
    simp only [evalOrderValues, hvalue, evalOrderValues_unmoved orders hctes h.2]

theorem executeCtes_unmoved (clauses : List Cte) {bound : CteHeadings} {ctes ctes' : Ctes}
    (hctes : CtesHead bound ctes ctes') (h : ctesUnmoved tables r clauses bound = true) :
    Both (CtesHead (ctesHeadings tables r clauses bound)) (executeCtes H tables clauses ctes)
      (executeCtes H tables' clauses ctes') := by
  match clauses with
  | [] =>
    rw [executeCtes, executeCtes, ctesHeadings]
    exact .ok hctes
  | ⟨name, columns, query⟩ :: clauses =>
    rw [ctesUnmoved, Bool.and_eq_true] at h
    rw [executeCtes, executeCtes, ctesHeadings]
    refine (executeQuery_unmoved query hctes h.1).bind fun relation relation' hheads => ?_
    refine (heads_cteRelation hheads name columns).bind fun named named' hnamed => ?_
    exact executeCtes_unmoved clauses (hctes.insert name hnamed) h.2

theorem sourceRelation_unmoved (source : TableSource) {selection : Option Expr}
    {bound : CteHeadings} {ctes ctes' : Ctes} (hctes : CtesHead bound ctes ctes')
    (h : sourceUnmoved tables r bound source selection = true) :
    Both (Heads (sourceHeading tables r bound source))
      (sourceRelation H tables source ctes selection)
      (sourceRelation H tables' source ctes' selection) := by
  match source with
  | .table name asName =>
    rw [sourceUnmoved] at h
    simp only [sourceRelation, sourceHeading]
    have hbound := hctes name
    cases hheading : bound.lookup name with
    | some heading =>
      rw [hheading] at hbound
      obtain ⟨relation, relation', hrelation, hrelation', hheads⟩ := hbound
      simp only [hrelation, hrelation']
      exact .ok (hheads.renameTable _)
    | none =>
      rw [hheading] at hbound h
      simp only [hbound.1, hbound.2]
      have hscan := hscans name selection h (asName.getD name)
      cases htable : tables.lookup name with
      | none =>
        rw [htable] at hscan
        cases htable' : tables'.lookup name with
        | none => exact .error _
        | some table' =>
          rw [htable'] at hscan
          cases hscan
      | some table =>
        rw [htable] at hscan
        cases htable' : tables'.lookup name with
        | none =>
          rw [htable'] at hscan
          cases hscan
        | some table' =>
          rw [htable'] at hscan
          obtain ⟨hheads⟩ := hscan
          exact .ok hheads
  | .derived query asName =>
    rw [sourceUnmoved] at h
    simp only [sourceRelation, sourceHeading]
    exact (executeQuery_unmoved query hctes h).bind fun relation relation' hheads =>
      .ok (hheads.renameTable asName)

theorem executeJoins_unmoved (joins : List Join) {heading : Heading} {relation relation' : Relation}
    {bound : CteHeadings} {ctes ctes' : Ctes} (hctes : CtesHead bound ctes ctes')
    (hheads : Heads heading relation relation')
    (h : joinsUnmoved tables r bound joins heading = true) :
    Both (Heads (joinsHeading tables r bound joins heading))
      (executeJoins H tables joins relation ctes)
      (executeJoins H tables' joins relation' ctes') := by
  match joins with
  | [] =>
    rw [executeJoins, executeJoins, joinsHeading]
    exact .ok hheads
  | ⟨joinType, source, none⟩ :: joins =>
    rw [joinsUnmoved, Bool.and_eq_true] at h
    rw [executeJoins, executeJoins, joinsHeading]
    refine (sourceRelation_unmoved source hctes h.1).bind fun right right' hright => ?_
    refine (heads_joinRelations hheads hright (fun e he => by cases he) fun _ => rfl).bind
      fun joined joined' hjoined => ?_
    exact executeJoins_unmoved joins hctes hjoined h.2
  | ⟨joinType, source, some on⟩ :: joins =>
    simp only [joinsUnmoved, Bool.and_eq_true, Bool.or_eq_true, decide_eq_true_eq] at h
    obtain ⟨⟨⟨hsource, hhash⟩, hon⟩, hjoins⟩ := h
    rw [executeJoins, executeJoins, joinsHeading]
    refine (sourceRelation_unmoved source hctes hsource).bind fun right right' hright => ?_
    refine (heads_joinRelations hheads hright (fun e he => ?_) fun hnested => ?_).bind
      fun joined joined' hjoined => ?_
    · obtain rfl := Option.some.inj he
      exact hhash
    · rw [Option.bind_some] at hnested
      have hunmoved := hon.resolve_left (by simp [hnested])
      funext row
      simp only [evalExpr_unmoved on hctes hunmoved]
    · exact executeJoins_unmoved joins hctes hjoined hjoins

/-- **An unmoved query** returns the same rows. -/
theorem executeQuery_unmoved (query : Query) {bound : CteHeadings} {ctes ctes' : Ctes}
    (hctes : CtesHead bound ctes ctes') (h : queryUnmoved tables r bound query = true) :
    Both (Heads (queryHeading tables r bound query)) (executeQuery H tables query ctes)
      (executeQuery H tables' query ctes') := by
  match query with
  | ⟨clauses, distinct, projection, source, joins, selection, groupBy, having, orderBy, limit⟩ =>
    simp only [queryUnmoved, Bool.and_eq_true, decide_eq_true_eq] at h
    obtain ⟨⟨⟨⟨⟨⟨⟨⟨hclauses, hfrom⟩, hjoins⟩, hselection⟩, hgroupBy⟩, hhaving⟩, hprojection⟩,
      hsorts⟩, horders⟩ := h
    rw [executeQuery, executeQuery, queryHeading]
    refine (executeCtes_unmoved clauses hctes hclauses).bind fun ctes ctes' hctes => ?_
    have hrelation : Both (Heads
        (fromHeading tables r (ctesHeadings tables r clauses bound) source))
        (fromRelation H tables source ctes selection)
        (fromRelation H tables' source ctes' selection) := by
      match source with
      | none =>
        rw [fromRelation, fromRelation, fromHeading]
        exact .ok ⟨rfl, rfl, rfl⟩
      | some source =>
        rw [fromUnmoved] at hfrom
        rw [fromRelation, fromRelation, fromHeading]
        exact sourceRelation_unmoved source hctes hfrom
    refine hrelation.bind fun relation relation' hheads => ?_
    refine (executeJoins_unmoved joins hctes hheads hjoins).bind fun joined joined' hjoined => ?_
    refine heads_finishQuery hjoined ?_ ?_ ?_ ?_ hsorts (fun hsorted => ?_) fun hsorted => ?_
    · match selection with
      | none => simp only [whereEvaluator, Option.map_none]
      | some expr =>
        rw [optionUnmoved] at hselection
        simp only [whereEvaluator, Option.map_some, Option.some.injEq]
        funext row
        exact evalExpr_unmoved expr hctes hselection row none
    · funext row
      exact evalExprs_unmoved groupBy hctes hgroupBy row none
    · match having with
      | none => simp only [havingEvaluator, Option.map_none]
      | some expr =>
        rw [optionUnmoved] at hhaving
        simp only [havingEvaluator, Option.map_some, Option.some.injEq]
        funext row group
        exact evalExpr_unmoved expr hctes hhaving row (some group)
    · funext row group
      exact projectRow_unmoved projection hctes hprojection row group
    · rw [if_pos hsorted] at horders
      funext row
      exact evalOrderValues_unmoved orderBy hctes horders row
    · rw [hsorted, if_neg Bool.false_ne_true] at horders
      funext row
      exact evalOrderValues_unmoved orderBy hctes horders row

end

end Evaluation

end Sql
end RustyDB
