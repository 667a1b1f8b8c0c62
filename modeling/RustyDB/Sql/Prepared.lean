import Mathlib
import RustyDB.Sql.Parameters

/-!
# The prepared path

A prepared statement is optimized before its parameters are bound, and again afterwards;
a statement that comes in as text is optimized once.

* `FoldsTo` — what folding an expression keeps: its parameters, and what it folds to when
  they are bound.
* `foldsTo_expr`, `foldsTo_query`, `optimize_foldsTo` — **folding neither drops, reorders
  nor captures parameters, and commutes with substitution.**
* `prepared_path_agrees` — **the prepared path equals the direct path.**
-/

namespace RustyDB
namespace Sql

section Fold

variable {H : Host} {σ : Nat → Expr}

/-! ## Expressions -/

/-- `x'` is a folded form of `x`: it has the parameters of `x`, in their order, and with
them replaced it folds to what `x` does. -/
structure FoldsTo {α : Type} (parameters : α → List Nat) (subst : α → α)
    (fold : α → Except Fault α) (x x' : α) : Prop where
  parameters_eq : parameters x' = parameters x
  fold_eq : fold (subst x') = fold (subst x)

/-- Folded forms of expressions. -/
abbrev FoldsExpr (H : Host) (σ : Nat → Expr) : Expr → Expr → Prop :=
  FoldsTo exprParameters (substExpr σ) (foldExpr H)

theorem FoldsTo.refl {α : Type} {parameters : α → List Nat} {subst : α → α}
    {fold : α → Except Fault α} (x : α) : FoldsTo parameters subst fold x x :=
  ⟨rfl, rfl⟩

/-- A node over folded operands stays, or is a literal over literals. -/
theorem foldBinaryNode_cases {left right e : Expr} {op : BinaryOp}
    (h : foldBinaryNode H left op right = .ok e) :
    e = .binary left op right ∨
      ∃ a b v, left = .literal a ∧ right = .literal b ∧ e = .literal v := by
  unfold foldBinaryNode at h
  split at h
  · rename_i a b
    obtain ⟨folded, -, h⟩ := Result.bind_eq_ok.mp h
    cases folded with
    | some v => exact Or.inr ⟨a, b, v, rfl, rfl, (Except.ok.inj h).symm⟩
    | none => exact Or.inl (Except.ok.inj h).symm
  · exact Or.inl (Except.ok.inj h).symm

theorem foldUnaryNode_cases {op : UnaryOp} {expr e : Expr}
    (h : foldUnaryNode H op expr = .ok e) :
    e = .unary op expr ∨ ∃ a v, expr = .literal a ∧ e = .literal v := by
  unfold foldUnaryNode at h
  split at h
  · rename_i a
    obtain ⟨folded, -, h⟩ := Result.bind_eq_ok.mp h
    cases folded with
    | some v => exact Or.inr ⟨a, v, rfl, (Except.ok.inj h).symm⟩
    | none => exact Or.inl (Except.ok.inj h).symm
  · exact Or.inl (Except.ok.inj h).symm

theorem foldsTo_binary {left left' right right' e : Expr} {op : BinaryOp}
    (hleft : FoldsExpr H σ left left') (hright : FoldsExpr H σ right right')
    (h : foldBinaryNode H left' op right' = .ok e) :
    FoldsExpr H σ (.binary left op right) e := by
  have hparameters : exprParameters (.binary left' op right') =
      exprParameters (.binary left op right) := by
    rw [exprParameters, exprParameters, hleft.parameters_eq, hright.parameters_eq]
  have hfold : foldExpr H (substExpr σ (.binary left' op right')) =
      foldExpr H (substExpr σ (.binary left op right)) := by
    show (do
      let l ← foldExpr H (substExpr σ left')
      let r ← foldExpr H (substExpr σ right')
      foldBinaryNode H l op r) = _
    rw [hleft.fold_eq, hright.fold_eq]
    rfl
  rcases foldBinaryNode_cases h with rfl | ⟨a, b, v, rfl, rfl, rfl⟩
  · exact ⟨hparameters, hfold⟩
  · exact ⟨hparameters, h.symm.trans hfold⟩

theorem foldsTo_unary {expr expr' e : Expr} {op : UnaryOp} (hexpr : FoldsExpr H σ expr expr')
    (h : foldUnaryNode H op expr' = .ok e) : FoldsExpr H σ (.unary op expr) e := by
  have hfold : foldExpr H (substExpr σ (.unary op expr')) =
      foldExpr H (substExpr σ (.unary op expr)) := by
    show (do
      let e ← foldExpr H (substExpr σ expr')
      foldUnaryNode H op e) = _
    rw [hexpr.fold_eq]
    rfl
  rcases foldUnaryNode_cases h with rfl | ⟨a, v, rfl, rfl⟩
  · exact ⟨hexpr.parameters_eq, hfold⟩
  · exact ⟨hexpr.parameters_eq, h.symm.trans hfold⟩

theorem foldsTo_isNull {expr expr' : Expr} {negated : Bool} (hexpr : FoldsExpr H σ expr expr') :
    FoldsExpr H σ (.isNull expr negated) (foldIsNullNode expr' negated) := by
  have hfold : foldExpr H (substExpr σ (.isNull expr' negated)) =
      foldExpr H (substExpr σ (.isNull expr negated)) := by
    show (do
      let e ← foldExpr H (substExpr σ expr')
      pure (foldIsNullNode e negated)) = _
    rw [hexpr.fold_eq]
    rfl
  unfold foldIsNullNode
  split
  · exact ⟨hexpr.parameters_eq, hfold⟩
  · exact ⟨hexpr.parameters_eq, hfold⟩

theorem foldsTo_like {expr expr' pattern pattern' : Expr} {negated : Bool}
    (hexpr : FoldsExpr H σ expr expr') (hpattern : FoldsExpr H σ pattern pattern') :
    FoldsExpr H σ (.like expr pattern negated) (foldLikeNode H expr' pattern' negated) := by
  have hparameters : exprParameters (.like expr' pattern' negated) =
      exprParameters (.like expr pattern negated) := by
    rw [exprParameters, exprParameters, hexpr.parameters_eq, hpattern.parameters_eq]
  have hfold : foldExpr H (substExpr σ (.like expr' pattern' negated)) =
      foldExpr H (substExpr σ (.like expr pattern negated)) := by
    show (do
      let e ← foldExpr H (substExpr σ expr')
      let p ← foldExpr H (substExpr σ pattern')
      pure (foldLikeNode H e p negated)) = _
    rw [hexpr.fold_eq, hpattern.fold_eq]
    rfl
  unfold foldLikeNode
  split
  · exact ⟨hparameters, hfold⟩
  · exact ⟨hparameters, hfold⟩

/-- A node of one part that folding keeps. -/
theorem FoldsTo.node {α β : Type} {parametersα : α → List Nat} {substα : α → α}
    {foldα : α → Except Fault α} {parametersβ : β → List Nat} {substβ : β → β}
    {foldβ : β → Except Fault β} {x x' : α} (h : FoldsTo parametersα substα foldα x x')
    (node : α → β) (hparameters : ∀ x, parametersβ (node x) = parametersα x)
    (hfold : ∀ x, foldβ (substβ (node x)) = do let y ← foldα (substα x); pure (node y)) :
    FoldsTo parametersβ substβ foldβ (node x) (node x') where
  parameters_eq := by rw [hparameters, hparameters, h.parameters_eq]
  fold_eq := by rw [hfold, hfold, h.fold_eq]

/-- A node of two parts that folding keeps. -/
theorem FoldsTo.node₂ {α β γ : Type} {parametersα : α → List Nat} {substα : α → α}
    {foldα : α → Except Fault α} {parametersβ : β → List Nat} {substβ : β → β}
    {foldβ : β → Except Fault β} {parametersγ : γ → List Nat} {substγ : γ → γ}
    {foldγ : γ → Except Fault γ} {x x' : α} {y y' : β}
    (h : FoldsTo parametersα substα foldα x x') (h' : FoldsTo parametersβ substβ foldβ y y')
    (node : α → β → γ)
    (hparameters : ∀ x y, parametersγ (node x y) = parametersα x ++ parametersβ y)
    (hfold : ∀ x y, foldγ (substγ (node x y)) = do
      let x ← foldα (substα x)
      let y ← foldβ (substβ y)
      pure (node x y)) :
    FoldsTo parametersγ substγ foldγ (node x y) (node x' y') where
  parameters_eq := by rw [hparameters, hparameters, h.parameters_eq, h'.parameters_eq]
  fold_eq := by rw [hfold, hfold, h.fold_eq, h'.fold_eq]

mutual

/-- **Folding an expression** keeps its parameters and commutes with binding them. -/
theorem foldsTo_expr (σ : Nat → Expr) {e e' : Expr} (h : foldExpr H e = .ok e') :
    FoldsExpr H σ e e' := by
  match e, h with
  | .binary left op right, h =>
    obtain ⟨left', hleft, h⟩ := Result.bind_eq_ok.mp h
    obtain ⟨right', hright, h⟩ := Result.bind_eq_ok.mp h
    exact foldsTo_binary (foldsTo_expr σ hleft) (foldsTo_expr σ hright) h
  | .unary op expr, h =>
    obtain ⟨expr', hexpr, h⟩ := Result.bind_eq_ok.mp h
    exact foldsTo_unary (foldsTo_expr σ hexpr) h
  | .isNull expr negated, h =>
    obtain ⟨expr', hexpr, h⟩ := Result.bind_eq_ok.mp h
    obtain rfl := Except.ok.inj h
    exact foldsTo_isNull (foldsTo_expr σ hexpr)
  | .like expr pattern negated, h =>
    obtain ⟨expr', hexpr, h⟩ := Result.bind_eq_ok.mp h
    obtain ⟨pattern', hpattern, h⟩ := Result.bind_eq_ok.mp h
    obtain rfl := Except.ok.inj h
    exact foldsTo_like (foldsTo_expr σ hexpr) (foldsTo_expr σ hpattern)
  | .inList expr list negated, h =>
    obtain ⟨expr', hexpr, h⟩ := Result.bind_eq_ok.mp h
    obtain ⟨list', hlist, h⟩ := Result.bind_eq_ok.mp h
    obtain rfl := Except.ok.inj h
    exact (foldsTo_expr σ hexpr).node₂ (foldsTo_exprs σ hlist)
      (fun e l => Expr.inList e l negated) (fun _ _ => rfl) fun _ _ => rfl
  | .inSubquery expr query negated, h =>
    obtain ⟨expr', hexpr, h⟩ := Result.bind_eq_ok.mp h
    obtain ⟨query', hquery, h⟩ := Result.bind_eq_ok.mp h
    obtain rfl := Except.ok.inj h
    exact (foldsTo_expr σ hexpr).node₂ (foldsTo_query σ hquery)
      (fun e q => Expr.inSubquery e q negated) (fun _ _ => rfl) fun _ _ => rfl
  | .exist query negated, h =>
    obtain ⟨query', hquery, h⟩ := Result.bind_eq_ok.mp h
    obtain rfl := Except.ok.inj h
    exact (foldsTo_query σ hquery).node (fun q => Expr.exist q negated)
      (fun _ => rfl) fun _ => rfl
  | .scalarSubquery query, h =>
    obtain ⟨query', hquery, h⟩ := Result.bind_eq_ok.mp h
    obtain rfl := Except.ok.inj h
    exact (foldsTo_query σ hquery).node Expr.scalarSubquery
      (fun _ => rfl) fun _ => rfl
  | .aggregate function expr distinct, h =>
    obtain ⟨expr', hexpr, h⟩ := Result.bind_eq_ok.mp h
    obtain rfl := Except.ok.inj h
    exact (foldsTo_option σ hexpr).node
      (fun e => Expr.aggregate function e distinct) (fun _ => rfl) fun _ => rfl
  | .column qualifier name, h =>
    obtain rfl := Except.ok.inj h
    exact FoldsTo.refl _
  | .literal value, h =>
    obtain rfl := Except.ok.inj h
    exact FoldsTo.refl _
  | .parameter index, h =>
    obtain rfl := Except.ok.inj h
    exact FoldsTo.refl _
  | .incoming name, h =>
    obtain rfl := Except.ok.inj h
    exact FoldsTo.refl _
termination_by structural e

theorem foldsTo_exprs (σ : Nat → Expr) {es es' : List Expr} (h : foldExprs H es = .ok es') :
    FoldsTo exprsParameters (visitExprs (m := Id) σ) (foldExprs H) es es' := by
  match es, h with
  | [], h =>
    obtain rfl := Except.ok.inj h
    exact FoldsTo.refl _
  | e :: es, h =>
    obtain ⟨e', he, h⟩ := Result.bind_eq_ok.mp h
    obtain ⟨es', hes, h⟩ := Result.bind_eq_ok.mp h
    obtain rfl := Except.ok.inj h
    exact (foldsTo_expr σ he).node₂ (foldsTo_exprs σ hes) List.cons
      (fun _ _ => rfl) fun _ _ => rfl
termination_by structural es

theorem foldsTo_option (σ : Nat → Expr) {e e' : Option Expr} (h : foldOption H e = .ok e') :
    FoldsTo optionParameters (visitOption (m := Id) σ) (foldOption H) e e' := by
  match e, h with
  | none, h =>
    obtain rfl := Except.ok.inj h
    exact FoldsTo.refl _
  | some e, h =>
    obtain ⟨e', he, h⟩ := Result.bind_eq_ok.mp h
    obtain rfl := Except.ok.inj h
    exact (foldsTo_expr σ he).node some (fun _ => rfl) fun _ => rfl
termination_by structural e

theorem foldsTo_items (σ : Nat → Expr) {items items' : List SelectItem}
    (h : foldItems H items = .ok items') :
    FoldsTo itemsParameters (visitItems (m := Id) σ) (foldItems H) items items' := by
  match items, h with
  | [], h =>
    obtain rfl := Except.ok.inj h
    exact FoldsTo.refl _
  | .wildcard qualifier :: items, h =>
    obtain ⟨items', hitems, h⟩ := Result.bind_eq_ok.mp h
    obtain rfl := Except.ok.inj h
    exact (foldsTo_items σ hitems).node (fun items => SelectItem.wildcard qualifier :: items)
      (fun _ => rfl) fun _ => rfl
  | .expr expr asName :: items, h =>
    obtain ⟨expr', hexpr, h⟩ := Result.bind_eq_ok.mp h
    obtain ⟨items', hitems, h⟩ := Result.bind_eq_ok.mp h
    obtain rfl := Except.ok.inj h
    exact (foldsTo_expr σ hexpr).node₂ (foldsTo_items σ hitems)
      (fun e items => SelectItem.expr e asName :: items) (fun _ _ => rfl) fun _ _ => rfl
termination_by structural items

theorem foldsTo_orders (σ : Nat → Expr) {orders orders' : List OrderBy}
    (h : foldOrders H orders = .ok orders') :
    FoldsTo ordersParameters (visitOrders (m := Id) σ) (foldOrders H) orders orders' := by
  match orders, h with
  | [], h =>
    obtain rfl := Except.ok.inj h
    exact FoldsTo.refl _
  | ⟨expr, descending⟩ :: orders, h =>
    obtain ⟨expr', hexpr, h⟩ := Result.bind_eq_ok.mp h
    obtain ⟨orders', horders, h⟩ := Result.bind_eq_ok.mp h
    obtain rfl := Except.ok.inj h
    exact (foldsTo_expr σ hexpr).node₂ (foldsTo_orders σ horders)
      (fun e orders => (⟨e, descending⟩ :: orders : List OrderBy)) (fun _ _ => rfl) fun _ _ => rfl
termination_by structural orders

theorem foldsTo_ctes (σ : Nat → Expr) {clauses clauses' : List Cte}
    (h : optimizeCtes H clauses = .ok clauses') :
    FoldsTo ctesParameters (visitCtes (m := Id) σ) (optimizeCtes H) clauses clauses' := by
  match clauses, h with
  | [], h =>
    obtain rfl := Except.ok.inj h
    exact FoldsTo.refl _
  | ⟨name, columns, query⟩ :: clauses, h =>
    obtain ⟨query', hquery, h⟩ := Result.bind_eq_ok.mp h
    obtain ⟨clauses', hclauses, h⟩ := Result.bind_eq_ok.mp h
    obtain rfl := Except.ok.inj h
    exact (foldsTo_query σ hquery).node₂ (foldsTo_ctes σ hclauses)
      (fun q clauses => (⟨name, columns, q⟩ :: clauses : List Cte)) (fun _ _ => rfl) fun _ _ => rfl
termination_by structural clauses

theorem foldsTo_source (σ : Nat → Expr) {source source' : TableSource}
    (h : optimizeSource H source = .ok source') :
    FoldsTo sourceParameters (visitSource (m := Id) σ) (optimizeSource H) source source' := by
  match source, h with
  | .derived query asName, h =>
    obtain ⟨query', hquery, h⟩ := Result.bind_eq_ok.mp h
    obtain rfl := Except.ok.inj h
    exact (foldsTo_query σ hquery).node (fun q => TableSource.derived q asName)
      (fun _ => rfl) fun _ => rfl
  | .table name asName, h =>
    obtain rfl := Except.ok.inj h
    exact FoldsTo.refl _
termination_by structural source

theorem foldsTo_from (σ : Nat → Expr) {source source' : Option TableSource}
    (h : optimizeFrom H source = .ok source') :
    FoldsTo fromParameters (visitFrom (m := Id) σ) (optimizeFrom H) source source' := by
  match source, h with
  | none, h =>
    obtain rfl := Except.ok.inj h
    exact FoldsTo.refl _
  | some source, h =>
    obtain ⟨source', hsource, h⟩ := Result.bind_eq_ok.mp h
    obtain rfl := Except.ok.inj h
    exact (foldsTo_source σ hsource).node some (fun _ => rfl) fun _ => rfl
termination_by structural source

theorem foldsTo_joins (σ : Nat → Expr) {joins joins' : List Join}
    (h : optimizeJoins H joins = .ok joins') :
    FoldsTo joinsParameters (visitJoins (m := Id) σ) (optimizeJoins H) joins joins' := by
  match joins, h with
  | [], h =>
    obtain rfl := Except.ok.inj h
    exact FoldsTo.refl _
  | ⟨joinType, source, on⟩ :: joins, h =>
    obtain ⟨source', hsource, h⟩ := Result.bind_eq_ok.mp h
    obtain ⟨on', hon, h⟩ := Result.bind_eq_ok.mp h
    obtain ⟨joins', hjoins, h⟩ := Result.bind_eq_ok.mp h
    obtain rfl := Except.ok.inj h
    have hfsource := foldsTo_source σ hsource
    have hfon := foldsTo_option σ hon
    have hfjoins := foldsTo_joins σ hjoins
    refine ⟨?_, ?_⟩
    · rw [joinsParameters, joinsParameters, hfsource.parameters_eq, hfon.parameters_eq,
        hfjoins.parameters_eq]
    · show (do
        let source ← optimizeSource H (visitSource (m := Id) σ source')
        let on ← foldOption H (visitOption (m := Id) σ on')
        let joins ← optimizeJoins H (visitJoins (m := Id) σ joins')
        pure (⟨joinType, source, on⟩ :: joins : List Join)) = _
      rw [hfsource.fold_eq, hfon.fold_eq, hfjoins.fold_eq]
      rfl
termination_by structural joins

/-- **Optimizing a query** keeps its parameters and commutes with binding them. -/
theorem foldsTo_query (σ : Nat → Expr) {query query' : Query}
    (h : optimizeQuery H query = .ok query') :
    FoldsTo queryParameters (substQuery σ) (optimizeQuery H) query query' := by
  match query, h with
  | ⟨clauses, distinct, projection, source, joins, selection, groupBy, having, orderBy, limit⟩,
      h =>
    obtain ⟨clauses', hclauses, h⟩ := Result.bind_eq_ok.mp h
    obtain ⟨projection', hprojection, h⟩ := Result.bind_eq_ok.mp h
    obtain ⟨source', hsource, h⟩ := Result.bind_eq_ok.mp h
    obtain ⟨joins', hjoins, h⟩ := Result.bind_eq_ok.mp h
    obtain ⟨selection', hselection, h⟩ := Result.bind_eq_ok.mp h
    obtain ⟨groupBy', hgroupBy, h⟩ := Result.bind_eq_ok.mp h
    obtain ⟨having', hhaving, h⟩ := Result.bind_eq_ok.mp h
    obtain ⟨orderBy', horderBy, h⟩ := Result.bind_eq_ok.mp h
    obtain rfl := Except.ok.inj h
    have hfclauses := foldsTo_ctes σ hclauses
    have hfprojection := foldsTo_items σ hprojection
    have hfsource := foldsTo_from σ hsource
    have hfjoins := foldsTo_joins σ hjoins
    have hfselection := foldsTo_option σ hselection
    have hfgroupBy := foldsTo_exprs σ hgroupBy
    have hfhaving := foldsTo_option σ hhaving
    have hforderBy := foldsTo_orders σ horderBy
    refine ⟨?_, ?_⟩
    · rw [queryParameters, queryParameters, hfclauses.parameters_eq, hfprojection.parameters_eq,
        hfsource.parameters_eq, hfjoins.parameters_eq, hfselection.parameters_eq,
        hfgroupBy.parameters_eq, hfhaving.parameters_eq, hforderBy.parameters_eq]
    · show (do
        let clauses ← optimizeCtes H (visitCtes (m := Id) σ clauses')
        let projection ← foldItems H (visitItems (m := Id) σ projection')
        let source ← optimizeFrom H (visitFrom (m := Id) σ source')
        let joins ← optimizeJoins H (visitJoins (m := Id) σ joins')
        let selection ← foldOption H (visitOption (m := Id) σ selection')
        let groupBy ← foldExprs H (visitExprs (m := Id) σ groupBy')
        let having ← foldOption H (visitOption (m := Id) σ having')
        let orderBy ← foldOrders H (visitOrders (m := Id) σ orderBy')
        pure (⟨clauses, distinct, projection, source, joins, selection, groupBy, having, orderBy,
          limit⟩ : Query)) = _
      rw [hfclauses.fold_eq, hfprojection.fold_eq, hfsource.fold_eq, hfjoins.fold_eq,
        hfselection.fold_eq, hfgroupBy.fold_eq, hfhaving.fold_eq, hforderBy.fold_eq]
      rfl
termination_by structural query

end

/-! ## Statements -/

/-- A loop whose rounds fold. -/
theorem foldsTo_mapM {α : Type} {parameters : α → List Nat} {subst : α → Id α}
    {fold : α → Except Fault α}
    (hfold : ∀ a a', fold a = .ok a' → FoldsTo parameters subst fold a a') {as as' : List α}
    (h : as.mapM fold = .ok as') :
    FoldsTo (fun as => as.flatMap parameters) (List.mapM (m := Id) subst) (List.mapM fold)
      as as' := by
  induction as generalizing as' with
  | nil =>
    rw [List.mapM_nil] at h
    obtain rfl := Except.ok.inj h
    exact FoldsTo.refl _
  | cons a as ih =>
    rw [List.mapM_cons] at h
    obtain ⟨a', ha, h⟩ := Result.bind_eq_ok.mp h
    obtain ⟨rest, has, h⟩ := Result.bind_eq_ok.mp h
    obtain rfl := Except.ok.inj h
    refine (hfold a a' ha).node₂ (ih has) List.cons (fun _ _ => rfl) fun x xs => ?_
    rw [List.mapM_cons]
    exact List.mapM_cons

theorem foldsTo_assignments (σ : Nat → Expr) {assignments assignments' : List (String × Expr)}
    (h : foldAssignments H assignments = .ok assignments') :
    FoldsTo (fun assignments => assignments.flatMap fun entry => exprParameters entry.2)
      (List.mapM (m := Id) (visitAssignment σ)) (foldAssignments H) assignments assignments' := by
  refine foldsTo_mapM (fun entry entry' hentry => ?_) h
  obtain ⟨expr', hexpr, hentry⟩ := Result.bind_eq_ok.mp hentry
  obtain rfl := Except.ok.inj hentry
  exact (foldsTo_expr σ hexpr).node (fun e => (entry.1, e)) (fun _ => rfl) fun _ => rfl

theorem foldsTo_insertSource (σ : Nat → Expr) {source source' : InsertSource}
    (h : optimizeInsertSource H source = .ok source') :
    FoldsTo insertSourceParameters (visitInsertSource (m := Id) σ) (optimizeInsertSource H)
      source source' := by
  cases source with
  | values values =>
    obtain ⟨values', hvalues, h⟩ := Result.bind_eq_ok.mp h
    obtain rfl := Except.ok.inj h
    exact (foldsTo_mapM (fun _ _ => foldsTo_exprs σ) hvalues).node InsertSource.values
      (fun _ => rfl) fun _ => rfl
  | query query =>
    obtain ⟨query', hquery, h⟩ := Result.bind_eq_ok.mp h
    obtain rfl := Except.ok.inj h
    exact (foldsTo_query σ hquery).node InsertSource.query (fun _ => rfl) fun _ => rfl

/-- **Optimizing a statement** keeps its parameters and commutes with binding them. -/
theorem optimize_foldsTo (σ : Nat → Expr) {statement statement' : Statement}
    (h : optimizeStatement H statement = .ok statement') :
    FoldsTo statementParameters (substStatement σ) (optimizeStatement H) statement statement' := by
  induction statement generalizing statement' with
  | query query =>
    obtain ⟨query', hquery, h⟩ := Result.bind_eq_ok.mp h
    obtain rfl := Except.ok.inj h
    exact (foldsTo_query σ hquery).node Statement.query (fun _ => rfl) fun _ => rfl
  | insert tableName columns source onDuplicate =>
    obtain ⟨source', hsource, h⟩ := Result.bind_eq_ok.mp h
    obtain ⟨onDuplicate', honDuplicate, h⟩ := Result.bind_eq_ok.mp h
    obtain rfl := Except.ok.inj h
    exact (foldsTo_insertSource σ hsource).node₂ (foldsTo_assignments σ honDuplicate)
      (Statement.insert tableName columns) (fun _ _ => rfl) fun _ _ => rfl
  | update tableName assignments selection =>
    obtain ⟨assignments', hassignments, h⟩ := Result.bind_eq_ok.mp h
    obtain ⟨selection', hselection, h⟩ := Result.bind_eq_ok.mp h
    obtain rfl := Except.ok.inj h
    exact (foldsTo_assignments σ hassignments).node₂ (foldsTo_option σ hselection)
      (Statement.update tableName) (fun _ _ => rfl) fun _ _ => rfl
  | delete tableName selection =>
    obtain ⟨selection', hselection, h⟩ := Result.bind_eq_ok.mp h
    obtain rfl := Except.ok.inj h
    exact (foldsTo_option σ hselection).node (Statement.delete tableName) (fun _ => rfl)
      fun _ => rfl
  | explain statement ih =>
    obtain ⟨next, hnext, h⟩ := Result.bind_eq_ok.mp h
    obtain rfl := Except.ok.inj h
    exact (ih hnext).node Statement.explain (fun _ => rfl) fun _ => rfl
  | _ =>
    obtain rfl := Except.ok.inj h
    exact FoldsTo.refl _

end Fold

/-! ## The two paths -/

/-- **The prepared path equals the direct path.**  For every statement and what it is
optimized to: both have the same number of parameters; with as many values binding succeeds
on both, leaves no parameter in any expression position, and the optimizer makes the same of
the two; with any other number of values binding fails on both. -/
theorem prepared_path_agrees (H : Host) (statement optimized : Statement) (values : List Value)
    (h : optimizeStatement H statement = .ok optimized) :
    parameterCount optimized = parameterCount statement ∧
      (values.length = parameterCount statement → ∃ bound bound',
        bindParameters statement values = .ok bound ∧
        bindParameters optimized values = .ok bound' ∧
        statementParameters bound = [] ∧ statementParameters bound' = [] ∧
        optimizeStatement H bound' = optimizeStatement H bound) ∧
      (values.length ≠ parameterCount statement → ∃ error,
        bindParameters statement values = .error (.error error) ∧
        bindParameters optimized values = .error (.error error)) := by
  have hfolds := optimize_foldsTo (boundValue values) h
  have hcount : parameterCount optimized = parameterCount statement := by
    rw [parameterCount_eq, parameterCount_eq, hfolds.parameters_eq]
  have hclosed : ∀ index, exprParameters (boundValue values index) = [] := fun _ => rfl
  refine ⟨hcount, fun hlength => ?_, fun hlength => ?_⟩
  · exact ⟨_, _, bindParameters_eq_ok hlength, bindParameters_eq_ok (hlength.trans hcount.symm),
      closed_statement hclosed statement, closed_statement hclosed optimized, hfolds.fold_eq⟩
  · refine ⟨s!"Expected {parameterCount statement} parameters, got {values.length}", ?_, ?_⟩
    · rw [bindParameters, if_pos hlength]
    · rw [bindParameters, hcount, if_pos hlength]

/-- `SELECT 1 + 1, ? WHERE ? = 2 - 1`, with its parameters numbered. -/
def twoParameters : Statement :=
  assignParameters (.query
    { ctes := []
      distinct := false
      projection := [.expr (.binary (.literal (.integer 1)) .add (.literal (.integer 1))) none,
        .expr (.parameter 7) none]
      source := none
      joins := []
      selection := some (.binary (.parameter 7) (.compare .equal)
        (.binary (.literal (.integer 2)) .subtract (.literal (.integer 1))))
      groupBy := []
      having := none
      orderBy := []
      limit := none })

theorem two_parameters_agree : ∃ optimized bound bound',
    optimizeStatement Host.reference twoParameters = .ok optimized ∧
      parameterCount twoParameters = 2 ∧
      bindParameters twoParameters [.integer 5, .integer 1] = .ok bound ∧
      bindParameters optimized [.integer 5, .integer 1] = .ok bound' ∧
      optimizeStatement Host.reference bound' = optimizeStatement Host.reference bound := by
  have hsome : (optimizeStatement Host.reference twoParameters).toOption.isSome = true := by
    decide +kernel
  obtain ⟨optimized, hsome⟩ := Option.isSome_iff_exists.mp hsome
  have hoptimized := Result.toOption_eq_some.mp hsome
  have hcount : parameterCount twoParameters = 2 := by decide
  obtain ⟨-, hbound, -⟩ :=
    prepared_path_agrees Host.reference twoParameters optimized [.integer 5, .integer 1] hoptimized
  obtain ⟨bound, bound', h, h', -, -, heq⟩ := hbound hcount.symm
  exact ⟨optimized, bound, bound', hoptimized, hcount, h, h', heq⟩

end Sql
end RustyDB
