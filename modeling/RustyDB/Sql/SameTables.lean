import Mathlib
import RustyDB.Sql.Reads

/-!
# Catalogs that look the same

Two catalogs of sound tables with the same names, schemas and rows give every query
the same result and pass the same checks.

* `Tables.SameView` — the same names, schemas and rows.
* `SameScans`, `executeQuery_same` — every scan, and so every query, is the same.
* `Tables.SameView.validateCatalog` — the checks after a write.
-/

namespace RustyDB
namespace Sql

open KeyedIndex

/-- The same names, and tables with the same schemas and rows. -/
structure Tables.SameView (tables tables' : Tables) : Prop where
  keys : tables'.keys = tables.keys
  tables : ∀ name, Option.Rel Table.SameView (tables.lookup name) (tables'.lookup name)

/-- Tables with the same schemas and rows under every name, in whatever order the
catalogs hold them. -/
def Tables.SameLookups (tables tables' : Tables) : Prop :=
  ∀ name, Option.Rel Table.SameView (tables.lookup name) (tables'.lookup name)

/-- A catalog of sound tables. -/
abbrev Tables.Sound (H : Host) (inserted : Nat) (tables : Tables) : Prop :=
  tables.All (Table.Sound H inserted)

/-! ## Queries -/

/-- Every scan of one catalog returns what it returns on the other. -/
def SameScans (H : Host) (tables tables' : Tables) : Prop :=
  ∀ name visibleName selection,
    (tables'.lookup name).map (fun table => relationFromTable H table visibleName selection) =
      (tables.lookup name).map (fun table => relationFromTable H table visibleName selection)

section Queries

variable {H : Host} {tables tables' : Tables}

theorem SameScans.sameScan (h : SameScans H tables tables') (read : Read) :
    SameScan H H.toProcess tables tables' read := fun visibleName => h read.1 visibleName read.2

theorem evalExpr_same (hscans : SameScans H tables tables') (e : Expr)
    (columns : List BoundColumn) (row : Row) (group : Option (List Row)) (ctes : Ctes) :
    evalExpr H tables' e columns row group ctes = evalExpr H tables e columns row group ctes :=
  evalExpr_frame e (fun read _ => hscans.sameScan read) columns row group ctes

theorem executeQuery_same (hscans : SameScans H tables tables') (query : Query)
    (inherited : Ctes) :
    executeQuery H tables' query inherited = executeQuery H tables query inherited :=
  executeQuery_frame query (fun read _ => hscans.sameScan read) inherited

end Queries

/-! ## Scans and checks -/

section Checks

variable {H : Host} {tables tables' : Tables} {table table' : Table} {inserted : Nat}

theorem Table.SameView.relationFromTable (h : table.SameView table') (hs : table.Sound H inserted)
    (hs' : table'.Sound H inserted) (visibleName : String) (selection : Option Expr) :
    relationFromTable H table' visibleName selection =
      relationFromTable H table visibleName selection := by
  simp only [Sql.relationFromTable, h.schema, h.rows, h.isCandidate hs hs']

/-- Looking a name up in both catalogs. -/
theorem Tables.SameLookups.cases (h : tables.SameLookups tables') (name : String) :
    (tables.lookup name = none ∧ tables'.lookup name = none) ∨
    ∃ table table', tables.lookup name = some table ∧ tables'.lookup name = some table' ∧
      table.SameView table' := by
  have hrel := h name
  cases hlookup : tables.lookup name with
  | none =>
    rw [hlookup] at hrel
    cases hlookup' : tables'.lookup name with
    | none => exact Or.inl ⟨rfl, rfl⟩
    | some table' => rw [hlookup'] at hrel; cases hrel
  | some table =>
    rw [hlookup] at hrel
    cases hlookup' : tables'.lookup name with
    | none => rw [hlookup'] at hrel; cases hrel
    | some table' =>
      rw [hlookup'] at hrel
      cases hrel with
      | some hview => exact Or.inr ⟨table, table', rfl, rfl, hview⟩

theorem Tables.SameView.cases (h : tables.SameView tables') (name : String) :
    (tables.lookup name = none ∧ tables'.lookup name = none) ∨
    ∃ table table', tables.lookup name = some table ∧ tables'.lookup name = some table' ∧
      table.SameView table' :=
  Tables.SameLookups.cases h.tables name

theorem Tables.SameLookups.scans (h : tables.SameLookups tables') (hs : tables.Sound H inserted)
    (hs' : tables'.Sound H inserted) : SameScans H tables tables' := by
  intro name visibleName selection
  rcases h.cases name with ⟨hnone, hnone'⟩ | ⟨table, table', hlookup, hlookup', hview⟩
  · rw [hnone, hnone']
  · rw [hlookup, hlookup', Option.map_some, Option.map_some,
      hview.relationFromTable (hs name table hlookup) (hs' name table' hlookup')]

theorem Tables.SameView.scans (h : tables.SameView tables') (hs : tables.Sound H inserted)
    (hs' : tables'.Sound H inserted) : SameScans H tables tables' :=
  Tables.SameLookups.scans h.tables hs hs'

/-- Two entries that the hash maps yield at the same place. -/
def PairedTable (tables tables' : Tables) (entry entry' : String × Table) : Prop :=
  entry'.1 = entry.1 ∧ entry.2.SameView entry'.2 ∧ tables.lookup entry.1 = some entry.2 ∧
    tables'.lookup entry.1 = some entry'.2

theorem Tables.SameView.inOrder (h : tables.SameView tables') :
    List.Forall₂ (PairedTable tables tables') (tables.inOrder H) (tables'.inOrder H) := by
  rw [Tables.inOrder, Tables.inOrder, h.keys]
  generalize H.hashOrder none tables.keys = names
  induction names with
  | nil => exact List.Forall₂.nil
  | cons name names ih =>
    rw [List.filterMap_cons, List.filterMap_cons]
    rcases h.cases name with ⟨hnone, hnone'⟩ | ⟨table, table', hlookup, hlookup', hview⟩
    · rw [hnone, hnone']
      exact ih
    · rw [hlookup, hlookup']
      exact List.Forall₂.cons ⟨rfl, hview, hlookup, hlookup'⟩ ih

theorem Table.SameView.validateChecks (h : table.SameView table')
    (hscans : SameScans H tables tables') (row : Row) :
    validateChecks H tables' table' row = validateChecks H tables table row := by
  simp only [Sql.validateChecks, h.schema, evalExpr_same hscans]

theorem Table.SameView.validateTable (h : table.SameView table') (hs : table.Sound H inserted)
    (hs' : table'.Sound H inserted) (hscans : SameScans H tables tables') :
    validateTable H tables' table' = validateTable H tables table := by
  simp only [Sql.validateTable, h.rows, h.schema, h.validateChecks hscans,
    h.validateUniqueIndexes hs hs']

theorem Tables.SameLookups.validateForeignKey (h : tables.SameLookups tables')
    (hview : table.SameView table') (foreignKey : ForeignKeyConstraint) :
    validateForeignKey tables' table' foreignKey = validateForeignKey tables table foreignKey := by
  simp only [Sql.validateForeignKey]
  rcases h.cases foreignKey.foreignTable with ⟨hnone, hnone'⟩ |
    ⟨parent, parent', hlookup, hlookup', hparent⟩
  · simp only [hnone, hnone']
  · simp only [hlookup, hlookup', hparent.schema, hparent.rows, hview.schema, hview.rows]

/-- **The checks after a write** come out the same. -/
theorem Tables.SameView.validateCatalog (h : tables.SameView tables')
    (hs : tables.Sound H inserted) (hs' : tables'.Sound H inserted) :
    validateCatalog H tables' = validateCatalog H tables := by
  have hscans := h.scans hs hs'
  have horder := h.inOrder (H := H)
  have htables : (tables'.inOrder H).forM (fun entry => validateTable H tables' entry.2) =
      (tables.inOrder H).forM (fun entry => validateTable H tables entry.2) := by
    refine (Result.forM_congr_of_forall₂ (horder.imp ?_)).symm
    rintro entry entry' ⟨-, hview, hlookup, hlookup'⟩
    exact (hview.validateTable (hs _ _ hlookup) (hs' _ _ hlookup') hscans).symm
  have hkeys : validateForeignKeys H tables' = validateForeignKeys H tables := by
    refine (Result.forM_congr_of_forall₂ (horder.imp ?_)).symm
    rintro entry entry' ⟨-, hview, -, -⟩
    rw [hview.schema]
    congr 1
    funext constraint
    cases constraint with
    | foreignKey foreignKey =>
      exact (Tables.SameLookups.validateForeignKey h.tables hview foreignKey).symm
    | _ => rfl
  rw [Sql.validateCatalog, Sql.validateCatalog, htables, hkeys]

/-- The checks pass in whatever order the catalogs hold their tables. -/
theorem Tables.SameLookups.validateCatalog (h : tables.SameLookups tables')
    (hs : tables.Sound H inserted) (hs' : tables'.Sound H inserted)
    (hvalid : validateCatalog H tables = .ok ()) : validateCatalog H tables' = .ok () := by
  rw [validateCatalog_eq_ok, validateForeignKeys_eq_ok] at hvalid ⊢
  obtain ⟨htables, hkeys⟩ := hvalid
  have hscans := h.scans hs hs'
  constructor
  · intro name table' hlookup'
    rcases h.cases name with ⟨-, hnone'⟩ | ⟨table, found, hlookup, hfound, hview⟩
    · rw [hnone'] at hlookup'
      cases hlookup'
    · obtain rfl : found = table' := Option.some.inj (hfound.symm.trans hlookup')
      rw [hview.validateTable (hs _ _ hlookup) (hs' _ _ hlookup') hscans]
      exact htables name table hlookup
  · intro name table' hlookup' foreignKey hmem
    rcases h.cases name with ⟨-, hnone'⟩ | ⟨table, found, hlookup, hfound, hview⟩
    · rw [hnone'] at hlookup'
      cases hlookup'
    · obtain rfl : found = table' := Option.some.inj (hfound.symm.trans hlookup')
      rw [h.validateForeignKey hview]
      exact hkeys name table hlookup foreignKey (hview.schema ▸ hmem)

theorem Tables.SameView.insert (h : tables.SameView tables') (name : String)
    (hview : table.SameView table') :
    Tables.SameView (AList.insert name table tables) (AList.insert name table' tables') := by
  refine ⟨by rw [AList.keys_insert, AList.keys_insert, h.keys], fun other => ?_⟩
  by_cases hname : other = name
  · subst hname
    rw [AList.lookup_insert, AList.lookup_insert]
    exact Option.Rel.some hview
  · rw [AList.lookup_insert_ne hname, AList.lookup_insert_ne hname]
    exact h.tables other

theorem Tables.SameView.erase (h : tables.SameView tables') (name : String) :
    Tables.SameView (AList.erase name tables) (AList.erase name tables') := by
  refine ⟨by rw [AList.keys_erase, AList.keys_erase, h.keys], fun other => ?_⟩
  by_cases hname : other = name
  · subst hname
    rw [AList.lookup_erase, AList.lookup_erase]
    exact Option.Rel.none
  · rw [AList.lookup_erase_ne hname, AList.lookup_erase_ne hname]
    exact h.tables other

theorem Tables.SameView.mapValues (h : tables.SameView tables')
    {f f' : String → Table → Table} (hf : ∀ name table table', table.SameView table' →
      (f name table).SameView (f' name table')) :
    Tables.SameView (KeyedIndex.mapValues f tables) (KeyedIndex.mapValues f' tables') := by
  refine ⟨by rw [keys_mapValues, keys_mapValues, h.keys], fun name => ?_⟩
  rw [lookup_mapValues, lookup_mapValues]
  rcases h.cases name with ⟨hnone, hnone'⟩ | ⟨table, table', hlookup, hlookup', hview⟩
  · rw [hnone, hnone']
    exact Option.Rel.none
  · rw [hlookup, hlookup']
    exact Option.Rel.some (hf name table table' hview)

theorem Tables.SameView.refl (tables : Tables) : tables.SameView tables :=
  ⟨rfl, fun name => rel_refl Table.SameView.refl (tables.lookup name)⟩

theorem Tables.SameView.symm (h : tables.SameView tables') : tables'.SameView tables :=
  ⟨h.keys.symm, fun name => rel_swap (h.tables name) fun _ _ hview => hview.symm⟩

theorem Tables.SameView.trans {tables'' : Tables} (h : tables.SameView tables')
    (h' : tables'.SameView tables'') : tables.SameView tables'' :=
  ⟨h'.keys.trans h.keys, fun name =>
    rel_trans (h.tables name) (h'.tables name) fun _ _ _ hview hview' => hview.trans hview'⟩

/-- A change of every table that nobody sees. -/
theorem Tables.sameView_mapValues {f : String → Table → Table}
    (hf : ∀ name (table : Table), table.SameView (f name table)) :
    tables.SameView (KeyedIndex.mapValues f tables) := by
  refine ⟨keys_mapValues _ _, fun name => ?_⟩
  rw [lookup_mapValues]
  cases tables.lookup name with
  | none => exact Option.Rel.none
  | some table => exact Option.Rel.some (hf name table)

end Checks

end Sql
end RustyDB
