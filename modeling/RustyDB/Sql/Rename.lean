import Mathlib
import RustyDB.Sql.Altered

/-!
# What RENAME COLUMN means to an expression

In the CHECK expressions of a table `rename_expr` follows the renamed column under every node
but three: the operand of `IN (subquery)`, the subqueries, and the argument of an aggregate.

* `positionOf` — where a name stands among names that ignore case, before and after one of
  them is replaced.
* `untexted`, `answer` — results up to the text of their error, and to the names of columns.
* `arrives`, `loses`, `mixes` — the evaluation of an expression arrives at a name or a query: at
  the old name where `rename_expr` passes over it; at what the renaming may give another meaning.
* `Renames`, `evalExpr_shown` — **what a renamed expression evaluates to**: what it did before,
  unless the evaluation arrives there.
-/

namespace RustyDB
namespace Sql

/-! ## Names of one table -/

section Names

variable {names : List String} {index : Nat} {old new name : String}

/-- The position of a name, ignoring case. -/
def positionOf (names : List String) (name : String) : Option Nat :=
  names.findIdx? (fun other => eqIgnoreAsciiCase other name)

theorem columnIndex_eq_positionOf (schema : TableSchema) (name : String) :
    schema.columnIndex name = positionOf (schema.columns.map ColumnDef.name) name :=
  (List.findIdx?_map (p := fun other => eqIgnoreAsciiCase other name) (f := ColumnDef.name)
    (l := schema.columns)).symm

theorem positionOf_eq_none : positionOf names name = none ↔
    ∀ other ∈ names, eqIgnoreAsciiCase other name = false :=
  List.findIdx?_eq_none_iff

theorem positionOf_congr (h : eqIgnoreAsciiCase name old = true) :
    positionOf names name = positionOf names old := by
  unfold positionOf
  congr 1
  funext other
  refine Bool.eq_iff_iff.mpr ⟨fun hname => eqIgnoreAsciiCase_trans hname h, fun hold => ?_⟩
  exact eqIgnoreAsciiCase_trans hold (eqIgnoreAsciiCase_symm h)

theorem not_eq_of_eq {a b c : String} (hab : eqIgnoreAsciiCase a b = true)
    (hcb : eqIgnoreAsciiCase c b = false) : eqIgnoreAsciiCase a c = false := by
  rw [← Bool.not_eq_true] at hcb ⊢
  exact fun hac => hcb (eqIgnoreAsciiCase_trans (eqIgnoreAsciiCase_symm hac) hab)

/-- A name that is neither the old nor the new one stands where it stood. -/
theorem positionOf_set_other (hindex : positionOf names old = some index)
    (hold : eqIgnoreAsciiCase name old = false) (hnew : eqIgnoreAsciiCase name new = false) :
    positionOf (names.set index new) name = positionOf names name := by
  induction names generalizing index with
  | nil => rfl
  | cons other names ih =>
    simp only [positionOf, List.findIdx?_cons] at hindex ih ⊢
    split_ifs at hindex with hother
    · obtain rfl := Option.some.inj hindex
      rw [List.set_cons_zero, List.findIdx?_cons, not_eq_of_eq hother hold,
        eqIgnoreAsciiCase_comm new name, hnew]
    · obtain ⟨rest, hrest, rfl⟩ := Option.map_eq_some_iff.mp hindex
      rw [List.set_cons_succ, List.findIdx?_cons, ih hrest]

/-- The new name stands where the old one stood. -/
theorem positionOf_set_new (hindex : positionOf names old = some index)
    (hnew : positionOf names new = none) :
    positionOf (names.set index new) new = some index := by
  induction names generalizing index with
  | nil => simp [positionOf] at hindex
  | cons other names ih =>
    rw [positionOf_eq_none, List.forall_mem_cons, ← positionOf_eq_none] at hnew
    simp only [positionOf, List.findIdx?_cons] at hindex ih ⊢
    split_ifs at hindex with hother
    · obtain rfl := Option.some.inj hindex
      rw [List.set_cons_zero, List.findIdx?_cons, if_pos (eqIgnoreAsciiCase_refl new)]
    · obtain ⟨rest, hrest, rfl⟩ := Option.map_eq_some_iff.mp hindex
      rw [List.set_cons_succ, List.findIdx?_cons, hnew.1, ih hrest hnew.2]
      rfl

/-- The old name is gone. -/
theorem positionOf_set_old (hdistinct : DistinctNames names)
    (hindex : positionOf names old = some index) (hnew : positionOf names new = none) :
    positionOf (names.set index new) old = none := by
  obtain ⟨hlt, hfound, -⟩ := List.findIdx?_eq_some_iff_getElem.mp hindex
  rw [positionOf_eq_none]
  intro other hmem
  obtain ⟨i, hi⟩ := List.mem_iff_getElem?.mp hmem
  rw [← Bool.not_eq_true]
  intro hsame
  rw [List.getElem?_set] at hi
  split_ifs at hi with heq
  · obtain rfl := Option.some.inj hi
    have habsent := positionOf_eq_none.mp hnew _ (List.getElem_mem hlt)
    rw [eqIgnoreAsciiCase_trans hfound (eqIgnoreAsciiCase_symm hsame)] at habsent
    cases habsent
  · refine heq (hdistinct index i _ other (List.getElem?_eq_getElem hlt) hi ?_)
    exact eqIgnoreAsciiCase_trans hfound (eqIgnoreAsciiCase_symm hsame)

end Names

/-! ## Results without the text of their error -/

section Untexted

variable {α β : Type} {x x' : Except Fault α}

/-- The kind of a failure. -/
def Fault.isPanic : Fault → Bool
  | .error _ => false
  | .panic => true

/-- A result, of whose error only the kind is left. -/
def untexted (x : Except Fault α) : Except Bool α := x.mapError Fault.isPanic

theorem untexted_bind (x : Except Fault α) (f : α → Except Fault β) :
    untexted (x >>= f) = untexted x >>= fun a => untexted (f a) := by
  cases x <;> rfl

theorem untexted_map (x : Except Fault α) (f : α → β) :
    untexted (x.map f) = (untexted x).map f := by
  cases x <;> rfl

/-- What follows a result that succeeds. -/
def thenSome (x : Except Fault α) (p : α → Bool) : Bool :=
  match x with
  | .ok a => p a
  | .error _ => false

@[simp]
theorem thenSome_never (x : Except Fault α) : thenSome x (fun _ => false) = false := by
  cases x <;> rfl

/-- **Two computations in step**, the second of which may be refused where the first goes on:
first at their beginning, then behind it. -/
theorem untexted_bind_step {lost : Bool} {lostAfter : α → Bool} {f f' : α → Except Fault β}
    (hx : untexted x' = if lost then .error false else untexted x)
    (hf : ∀ a, x = .ok a →
      untexted (f' a) = if lostAfter a then .error false else untexted (f a)) :
    untexted (x' >>= f') =
      if lost || thenSome x lostAfter then .error false else untexted (x >>= f) := by
  rw [untexted_bind, hx]
  cases lost with
  | true => rfl
  | false =>
    rw [untexted_bind]
    cases x with
    | error fault => rfl
    | ok a => exact hf a rfl

/-- The rest of the two computations is the same. -/
theorem untexted_bind_same {lost : Bool} {f f' : α → Except Fault β}
    (hx : untexted x' = if lost then .error false else untexted x)
    (hf : ∀ a, untexted (f' a) = untexted (f a)) :
    untexted (x' >>= f') = if lost then .error false else untexted (x >>= f) := by
  have hstep := @untexted_bind_step _ _ x x' lost (fun _ => false) f f' hx fun a _ => hf a
  rwa [thenSome_never, Bool.or_false] at hstep

/-- What an expression uses of the rows of a subquery: how many columns they have, and their
values. -/
def answer (x : Except Fault Relation) : Except Bool (Nat × List Row) :=
  untexted (x.map fun relation => (relation.columns.length, relation.rows))

theorem untexted_of_answer {x x' : Except Fault Relation} (h : answer x' = answer x)
    {f : Relation → Except Fault β} (hf : ∀ relation relation' : Relation,
      relation'.columns.length = relation.columns.length → relation'.rows = relation.rows →
        f relation' = f relation) :
    untexted (x' >>= f) = untexted (x >>= f) := by
  cases x with
  | error fault =>
    cases x' with
    | error fault' => exact congrArg Except.error (Except.error.inj h)
    | ok relation' => cases h
  | ok relation =>
    cases x' with
    | error fault' => cases h
    | ok relation' =>
      obtain ⟨hcolumns, hrows⟩ := Prod.mk.inj (Except.ok.inj h)
      rw [Result.ok_bind, Result.ok_bind, hf relation relation' hcolumns hrows]

end Untexted

/-! ## Evaluation -/

/-- **A name in one table** resolves to the position of the column that has it, when the
qualifier is that of the table. -/
theorem untexted_resolveColumn {schema : TableSchema} (visibleName : String)
    (hdistinct : DistinctNames (schema.columns.map ColumnDef.name)) (qualifier : Option String)
    (name : String) :
    untexted (resolveColumn (boundColumns visibleName schema) qualifier name) =
      ((if qualifier.all (fun table => eqIgnoreAsciiCase visibleName table) then
        positionOf (schema.columns.map ColumnDef.name) name
      else none).elim (.error false) .ok) := by
  rw [← columnIndex_eq_positionOf]
  have hfound : ∀ start, ((boundColumns visibleName schema).zipIdx start).filterMap
      (fun entry => if eqIgnoreAsciiCase entry.1.name name &&
        qualifier.all (fun table => eqIgnoreAsciiCase entry.1.table table) then some entry.2
      else none) =
      if qualifier.all (fun table => eqIgnoreAsciiCase visibleName table) then
        (schema.columnIndex name).toList.map (start + ·)
      else [] := by
    unfold boundColumns TableSchema.columnIndex
    generalize schema.columns = columns at hdistinct
    induction columns with
    | nil => intro start; simp
    | cons column columns ih =>
      intro start
      have hrest := ih hdistinct.tail (start + 1)
      rw [List.map_cons, List.zipIdx_cons, List.filterMap_cons, hrest, List.findIdx?_cons]
      by_cases hqualifier : qualifier.all (fun table => eqIgnoreAsciiCase visibleName table) = true
      · simp only [hqualifier, Bool.and_true, if_true]
        by_cases hnamed : eqIgnoreAsciiCase column.name name = true
        · have hnone : columns.findIdx? (fun column => eqIgnoreAsciiCase column.name name) =
              none := by
            rw [List.findIdx?_eq_none_iff]
            intro other hother
            have hne := hdistinct.not_mem other.name (List.mem_map_of_mem hother)
            rw [← Bool.not_eq_true] at hne ⊢
            exact fun hsame => hne (eqIgnoreAsciiCase_trans hnamed (eqIgnoreAsciiCase_symm hsame))
          simp [hnamed, hnone]
        · cases hindex : columns.findIdx? (fun column => eqIgnoreAsciiCase column.name name) with
          | none => simp [hnamed]
          | some index =>
            simp only [hnamed, Option.map_some, Option.toList_some, List.map_cons, List.map_nil]
            simp
            omega
      · simp [hqualifier]
  have hstart := hfound 0
  unfold resolveColumn
  simp only [hstart]
  split_ifs with hqualifier
  · cases schema.columnIndex name with
    | none => rfl
    | some index => simp [untexted, Except.mapError]
  · rfl

/-- Whether the right operand is evaluated behind a left one. -/
def needsRight (op : BinaryOp) (left : Value) : Bool :=
  match op with
  | .and => left.truth != .false
  | .or => left.truth != .true
  | _ => true

section Arrives

variable (H : Host) (tables : Tables) (columns : List BoundColumn) (row : Row)
  (names : Bool → String → Bool) (queries : Query → Bool)

mutual

/-- Evaluating an expression on a row arrives at one of some names or queries.  `rename_expr`
passes over the names in the operand of `IN (subquery)`. -/
def arrives (passed : Bool) : Expr → Bool
  | .column _ name => names passed name
  | .binary left op right =>
    arrives passed left ||
      thenSome (evalExpr H tables left columns row none ∅) fun value =>
        needsRight op value && arrives passed right
  | .unary _ expr => arrives passed expr
  | .isNull expr _ => arrives passed expr
  | .like expr pattern _ =>
    arrives passed expr ||
      thenSome (evalExpr H tables expr columns row none ∅) fun _ => arrives passed pattern
  | .inList expr list _ =>
    arrives passed expr ||
      thenSome (evalExpr H tables expr columns row none ∅) fun _ => arrivesAny passed list
  | .inSubquery expr query _ =>
    arrives true expr ||
      thenSome (evalExpr H tables expr columns row none ∅) fun _ => queries query
  | .exist query _ => queries query
  | .scalarSubquery query => queries query
  | _ => false

/-- The expressions of a list, up to the first that fails. -/
def arrivesAny (passed : Bool) : List Expr → Bool
  | [] => false
  | expr :: exprs =>
    arrives passed expr ||
      thenSome (evalExpr H tables expr columns row none ∅) fun _ => arrivesAny passed exprs

end

end Arrives

/-- The old name of the column, where `rename_expr` passes over it. -/
def lostName (old : String) (passed : Bool) (name : String) : Bool :=
  passed && eqIgnoreAsciiCase name old

/-- Evaluating an expression arrives at the old name where `rename_expr` passes over it. -/
def loses (H : Host) (tables : Tables) (columns : List BoundColumn) (row : Row) (old : String) :
    Bool → Expr → Bool :=
  arrives H tables columns row (lostName old) fun _ => false

/-- Evaluating an expression arrives at the new name, or at a query that moves. -/
def mixes (H : Host) (tables : Tables) (columns : List BoundColumn) (row : Row) (new : String)
    (moves : Query → Bool) : Bool → Expr → Bool :=
  arrives H tables columns row (fun _ name => eqIgnoreAsciiCase name new) moves

/-- What RENAME COLUMN makes of an expression: nothing where it is passed over. -/
def shown (old new : String) (passed : Bool) (expr : Expr) : Expr :=
  if passed then expr else renameExpr old new expr

/-- What it makes of a list of expressions. -/
def shownAll (old new : String) (passed : Bool) (exprs : List Expr) : List Expr :=
  if passed then exprs else renameExprs old new exprs

section Evaluation

variable {H : Host} {tables tables' : Tables} {columns columns' : List BoundColumn} {row : Row}
  {old new : String} {passed : Bool}

/-- How names resolve before and after a column has got its new name. -/
structure Renames (old new : String) (columns columns' : List BoundColumn) : Prop where
  other : ∀ qualifier name, eqIgnoreAsciiCase name old = false →
    eqIgnoreAsciiCase name new = false →
      untexted (resolveColumn columns' qualifier name) =
        untexted (resolveColumn columns qualifier name)
  renamed : ∀ qualifier name, eqIgnoreAsciiCase name old = true →
    untexted (resolveColumn columns' qualifier new) =
      untexted (resolveColumn columns qualifier name)
  gone : ∀ qualifier name, eqIgnoreAsciiCase name old = true →
    untexted (resolveColumn columns' qualifier name) = .error false

/-- The cell at a resolved position; only the text of its error has the name. -/
theorem untexted_cell (name other : String) {x x' : Except Fault Nat}
    (h : untexted x' = untexted x) :
    untexted (x' >>= fun index => match row[index]? with
      | some value => (.ok value : Except Fault Value)
      | none => .error (.error s!"Column '{other}' is unavailable")) =
    untexted (x >>= fun index => match row[index]? with
      | some value => (.ok value : Except Fault Value)
      | none => .error (.error s!"Column '{name}' is unavailable")) := by
  rw [untexted_bind, untexted_bind, h]
  congr 1
  funext index
  cases row[index]? <;> rfl

theorem inSubquery_congr (value : Value) (negated : Bool) (relation relation' : Relation)
    (hcolumns : relation'.columns.length = relation.columns.length)
    (hrows : relation'.rows = relation.rows) :
    (if relation'.columns.length ≠ 1 then
        .error (.error "IN subquery must return one column")
      else
        let truth := inSubqueryTruth value relation'
        pure (truthValue (if negated then truth.negate else truth)) : Except Fault Value) =
    (if relation.columns.length ≠ 1 then
        .error (.error "IN subquery must return one column")
      else
        let truth := inSubqueryTruth value relation
        pure (truthValue (if negated then truth.negate else truth)) : Except Fault Value) := by
  rw [hcolumns, inSubqueryTruth, inSubqueryTruth, hrows]

theorem scalarSubqueryValue_congr (relation relation' : Relation)
    (hcolumns : relation'.columns.length = relation.columns.length)
    (hrows : relation'.rows = relation.rows) :
    scalarSubqueryValue relation' = scalarSubqueryValue relation := by
  rw [scalarSubqueryValue, scalarSubqueryValue, hcolumns, hrows]

/-- The part of an expression that is evaluated behind another part. -/
theorem of_thenSome {α : Type} {x : Except Fault α} {p : α → Bool} (h : thenSome x p = false)
    {a : α} (ha : x = .ok a) : p a = false := by
  rw [ha] at h
  exact h

variable {moves : Query → Bool}

mutual

/-- **What a renamed expression evaluates to**: what it did before, unless the evaluation
arrives at the old name where it is passed over; then it is refused. -/
theorem evalExpr_shown (hrenames : Renames old new columns columns')
    (hqueries : ∀ query, moves query = false →
      answer (executeQuery H tables' query ∅) = answer (executeQuery H tables query ∅))
    (passed : Bool) (e : Expr) (h : mixes H tables columns row new moves passed e = false) :
    untexted (evalExpr H tables' (shown old new passed e) columns' row none ∅) =
      if loses H tables columns row old passed e then .error false
      else untexted (evalExpr H tables e columns row none ∅) := by
  match e with
  | .literal _ => cases passed <;> rfl
  | .parameter _ => cases passed <;> rfl
  | .incoming _ => cases passed <;> rfl
  | .column qualifier name =>
    rw [mixes, arrives] at h
    cases passed with
    | false =>
      simp only [shown, renameExpr, loses, arrives, lostName, Bool.false_and, evalExpr,
        Bool.false_eq_true, if_false]
      refine untexted_cell name _ ?_
      rw [renameName]
      split_ifs with hold
      · exact hrenames.renamed qualifier name hold
      · exact hrenames.other qualifier name (by simpa using hold) h
    | true =>
      simp only [shown, if_true, loses, arrives, lostName, Bool.true_and, evalExpr]
      split_ifs with hold
      · rw [untexted_bind, hrenames.gone qualifier name hold]
        rfl
      · exact untexted_cell name name (hrenames.other qualifier name (by simpa using hold) h)
  | .unary op expr =>
    have hshown : shown old new passed (.unary op expr) =
        .unary op (shown old new passed expr) := by
      cases passed <;> rfl
    rw [mixes, arrives] at h
    simp only [hshown, evalExpr, loses, arrives]
    exact untexted_bind_same (evalExpr_shown hrenames hqueries passed expr h) fun _ => rfl
  | .isNull expr negated =>
    have hshown : shown old new passed (.isNull expr negated) =
        .isNull (shown old new passed expr) negated := by
      cases passed <;> rfl
    rw [mixes, arrives] at h
    simp only [hshown, evalExpr, loses, arrives]
    exact untexted_bind_same (evalExpr_shown hrenames hqueries passed expr h) fun _ => rfl
  | .binary left op right =>
    rw [mixes, arrives, Bool.or_eq_false_iff] at h
    have hleft := evalExpr_shown hrenames hqueries passed left h.1
    have hshown : shown old new passed (.binary left op right) =
        .binary (shown old new passed left) op (shown old new passed right) := by
      cases passed <;> rfl
    simp only [hshown, evalExpr, loses, arrives]
    refine untexted_bind_step hleft fun value hvalue => ?_
    have hbehind := of_thenSome h.2 hvalue
    have hright : needsRight op value = true → _ := fun hneeds =>
      evalExpr_shown hrenames hqueries passed right (by rwa [hneeds, Bool.true_and] at hbehind)
    cases op with
    | and =>
      by_cases hfalse : value.truth = .false
      · have hneeds : needsRight .and value = false := by simp [needsRight, hfalse]
        rw [if_pos hfalse, if_pos hfalse, hneeds]
        rfl
      · have hneeds : needsRight .and value = true := by simp [needsRight, hfalse]
        rw [if_neg hfalse, if_neg hfalse, hneeds, Bool.true_and]
        exact untexted_bind_same (hright hneeds) fun _ => rfl
    | or =>
      by_cases htrue : value.truth = .true
      · have hneeds : needsRight .or value = false := by simp [needsRight, htrue]
        rw [if_pos htrue, if_pos htrue, hneeds]
        rfl
      · have hneeds : needsRight .or value = true := by simp [needsRight, htrue]
        rw [if_neg htrue, if_neg htrue, hneeds, Bool.true_and]
        exact untexted_bind_same (hright hneeds) fun _ => rfl
    | _ => exact untexted_bind_same (hright rfl) fun _ => rfl
  | .like expr pattern negated =>
    rw [mixes, arrives, Bool.or_eq_false_iff] at h
    have hexpr := evalExpr_shown hrenames hqueries passed expr h.1
    have hshown : shown old new passed (.like expr pattern negated) =
        .like (shown old new passed expr) (shown old new passed pattern) negated := by
      cases passed <;> rfl
    simp only [hshown, evalExpr, loses, arrives]
    refine untexted_bind_step hexpr fun value hvalue => ?_
    have hpattern := evalExpr_shown hrenames hqueries passed pattern (of_thenSome h.2 hvalue)
    exact untexted_bind_same hpattern fun _ => rfl
  | .inList expr list negated =>
    rw [mixes, arrives, Bool.or_eq_false_iff] at h
    have hexpr := evalExpr_shown hrenames hqueries passed expr h.1
    have hshown : shown old new passed (.inList expr list negated) =
        .inList (shown old new passed expr) (shownAll old new passed list) negated := by
      cases passed <;> rfl
    simp only [hshown, evalExpr, loses, arrives]
    refine untexted_bind_step hexpr fun value hvalue => ?_
    have hlist := evalExprs_shown hrenames hqueries passed list (of_thenSome h.2 hvalue)
    exact untexted_bind_same hlist fun _ => rfl
  | .inSubquery expr query negated =>
    have hshown : shown old new passed (.inSubquery expr query negated) =
        .inSubquery expr query negated := by
      cases passed <;> rfl
    rw [mixes, arrives, Bool.or_eq_false_iff] at h
    have hexpr := evalExpr_shown hrenames hqueries true expr h.1
    simp only [hshown, evalExpr, loses, arrives]
    refine untexted_bind_step hexpr fun value hvalue => ?_
    rw [if_neg Bool.false_ne_true]
    have hquery := hqueries query (of_thenSome h.2 hvalue)
    exact untexted_of_answer hquery fun relation relation' hcolumns hrows =>
      inSubquery_congr value negated relation relation' hcolumns hrows
  | .exist query negated =>
    have hshown : shown old new passed (.exist query negated) = .exist query negated := by
      cases passed <;> rfl
    rw [mixes, arrives] at h
    simp only [hshown, evalExpr, loses, arrives, Bool.false_eq_true, if_false]
    exact untexted_of_answer (hqueries query h) fun relation relation' _ hrows => by rw [hrows]
  | .scalarSubquery query =>
    have hshown : shown old new passed (.scalarSubquery query) = .scalarSubquery query := by
      cases passed <;> rfl
    rw [mixes, arrives] at h
    simp only [hshown, evalExpr, loses, arrives, Bool.false_eq_true, if_false]
    exact untexted_of_answer (hqueries query h) scalarSubqueryValue_congr
  | .aggregate function none distinct => cases passed <;> rfl
  | .aggregate function (some expr) distinct => cases passed <;> rfl

theorem evalExprs_shown (hrenames : Renames old new columns columns')
    (hqueries : ∀ query, moves query = false →
      answer (executeQuery H tables' query ∅) = answer (executeQuery H tables query ∅))
    (passed : Bool) (es : List Expr)
    (h : arrivesAny H tables columns row (fun _ name => eqIgnoreAsciiCase name new) moves passed
      es = false) :
    untexted (evalExprs H tables' (shownAll old new passed es) columns' row none ∅) =
      if arrivesAny H tables columns row (lostName old) (fun _ => false) passed es then
        .error false
      else untexted (evalExprs H tables es columns row none ∅) := by
  match es with
  | [] => cases passed <;> rfl
  | e :: es =>
    rw [arrivesAny, Bool.or_eq_false_iff] at h
    have hexpr := evalExpr_shown hrenames hqueries passed e h.1
    have hshown : shownAll old new passed (e :: es) =
        shown old new passed e :: shownAll old new passed es := by
      cases passed <;> rfl
    simp only [hshown, evalExprs, arrivesAny]
    refine untexted_bind_step hexpr fun value hvalue => ?_
    have hexprs := evalExprs_shown hrenames hqueries passed es (of_thenSome h.2 hvalue)
    exact untexted_bind_same hexprs fun _ => rfl

end

end Evaluation

end Sql
end RustyDB
