import Mathlib
import SchemaLedger.Proofs.Database.Sound
import SchemaLedger.Proofs.Lowering.CreateTable
import SchemaLedger.Proofs.Reconciliation.Rows

/-!
# The side table is made

The statement for the side table is one statement of the database under any name. Where the side
table is missing it makes one that facts can be written to, and where there is one it changes
nothing.
-/

namespace SchemaLedger

open Text Identifier

namespace SideTable

/-- The columns of the side table as they are written. -/
def clauses : List ColumnClause :=
  [⟨"table", .string, some (.size 255), false, true, false⟩,
    ⟨"column", .string, some (.size 255), false, true, false⟩,
    ⟨"type", .string, some (.size 255), false, true, false⟩,
    ⟨"value", .string, some .max, false, false, false⟩]

/-- The key of the side table as it is written. -/
def keyParts : List KeyPart := keyColumns.map fun c ↦ ⟨c, .asc⟩

/-- The statement of the database that creates the side table where it is missing. -/
def ddl (sideTable : String) : Ddl := .createTable sideTable true clauses keyParts []

/-! ## The statement -/

theorem resolve?_varchar : (⟨"varchar", some (.size 255), false⟩ : DataType).resolve?
    = some (.string, some (.size 255)) := by decide +kernel

theorem resolve?_text :
    (⟨"text", none, false⟩ : DataType).resolve? = some (.string, some .max) := by
  decide +kernel

/-- A column without a default and without an update is written with its type alone. -/
theorem lower_column (table : String) {c : ColumnDef} {type : ColumnType}
    {length : Option ColumnLength}
    (htype : c.dataType.resolve? = some (type, length)) (hdefault : c.resolveDefault = none)
    (hupdate : c.onUpdate = none) :
    c.lower table = .ok
      ⟨c, ⟨c.name, type, length, c.dataType.array, c.notNull || c.primaryKey, false⟩, none⟩ := by
  rw [ColumnDef.lower, htype]
  dsimp only
  rw [hdefault, hupdate]
  rfl

theorem add_column {table : String} {d : TableDraft} {c : ColumnDef} {x : LoweredColumn}
    (hc : c.lower table = .ok x) (ha : c.autoIncrement = false) :
    d.add table (.column c) = .ok { d with columns := d.columns ++ [x] } := by
  rw [TableDraft.add, ha, hc]
  rfl

theorem lower_statement (sideTable : String) :
    (statement sideTable).lower = .ok ⟨[ddl sideTable], []⟩ := by
  have hshort {name : String} :
      (⟨name, ⟨"varchar", some (.size 255), false⟩, true, none, none, false,
      none, false, false⟩ : ColumnDef).lower sideTable = _ :=
    lower_column sideTable resolve?_varchar rfl rfl
  have hlong {name : String} : (⟨name, ⟨"text", none, false⟩, false, none, none, false, none, false,
      false⟩ : ColumnDef).lower sideTable = _ :=
    lower_column sideTable resolve?_text rfl rfl
  rw [statement, Statement.lower, CreateTable.lower, CreateTable.draft]
  dsimp only
  rw [List.foldlM_cons, add_column hshort rfl, ok_bind, List.foldlM_cons, add_column hshort rfl,
    ok_bind, List.foldlM_cons, add_column hshort rfl, ok_bind, List.foldlM_cons,
    add_column hlong rfl, ok_bind, List.foldlM_cons, TableDraft.add, if_neg (by decide), ok_bind,
    List.foldlM_nil, pure_bind]
  rfl

theorem sql_ddl (sideTable : String) :
    (⟨[ddl sideTable], []⟩ : Lowered).sql = [(ddl sideTable).text] := rfl

theorem ofText?_ddl {sideTable : String} (h : Legible sideTable) :
    Command.ofText? (ddl sideTable).text = some (.createTable sideTable true) := by
  rw [ddl, Command.ofText?_createTable h.noBacktick, if_neg h.ne_empty]

/-- The side table as its statement declares it. -/
def table (sideTable : String) : Table := .declared sideTable clauses keyParts none

theorem isSideTable_table (sideTable : String) : (table sideTable).IsSideTable := by
  refine ⟨?_, rfl⟩
  rw [table, Table.columnNames_declared]
  exact fun c hc ↦ hc

theorem listable_columns : ∀ c ∈ columns, Listable c := by
  have hwritable : ∀ c ∈ columns, Writable c := by decide
  exact fun c hc ↦ (hwritable c hc).listable

theorem hasLength_clauses : ∀ c ∈ clauses, Dump.HasLength c.type c.length := by
  unfold Dump.HasLength
  decide

theorem declarable {sideTable : String} (h : Legible sideTable) :
    Table.Declarable sideTable clauses keyParts none := by
  have hkey : ∀ p ∈ keyParts, p.name ∈ columns := by decide
  constructor
  case legible => exact h
  case closed => exact fun c hc ↦ (listable_columns c.name (List.mem_map_of_mem hc)).toClosed
  case lengths => exact hasLength_clauses
  case distinct => decide
  case listable => exact fun p hp ↦ listable_columns p.name (hkey p hp)
  case declaresKey => exact hkey
  case parents => exact fun i hi ↦ absurd hi (Option.not_mem_none i)

theorem parse_ddl {sideTable : String} (h : Legible sideTable) :
    Dump.parse [(ddl sideTable).text] = .ok ((∅ : Schema).insert sideTable (table sideTable)) := by
  have hnone {p : Index → Prop} : ∀ i ∈ ([] : List Index), p i :=
    fun _ hi ↦ absurd hi List.not_mem_nil
  have hparse := Dump.parse_declared (declarable h) true hnone hnone hnone
  rwa [List.map_nil, List.foldl_nil, Option.toList_none] at hparse

/-! ## Running it -/

variable {sideTable : String} {db db' : Database}

/-- A side table that is there stays as it is. -/
theorem run_ddl_of_some (h : db.Sound) {t : StoredTable} (ht : db.tables[sideTable]? = some t) :
    db.run (ddl sideTable).text = .ok db := h.run_createTable ht clauses keyParts []

/-- Whatever table has the name of the side table afterwards is one. -/
theorem isSideTable_of_run (h : db.Sound)
    (hside : ∀ t, db.tables[sideTable]? = some t → t.schema.IsSideTable)
    (hok : db.run (ddl sideTable).text = .ok db') {t : StoredTable}
    (ht : db'.tables[sideTable]? = some t) : t.schema.IsSideTable := by
  have hsound := h.run hok
  have hlegible : Legible sideTable :=
    hsound.named sideTable t ht ▸ (hsound.tables sideTable t ht).schema.legible
  rw [Database.run, ofText?_ddl hlegible] at hok
  rcases Database.createTable_eq_ok hok with ⟨-, -, rfl⟩ | ⟨parsed, u, -, hparse, hu, -, rfl⟩
  · exact hside t ht
  · rw [parse_ddl hlegible] at hparse
    obtain rfl := Except.ok.inj hparse
    rw [Std.ExtTreeMap.getElem?_insert_self] at hu
    rw [Database.getElem?_store, if_pos rfl] at ht
    rw [← Option.some.inj ht, ← Option.some.inj hu]
    exact isSideTable_table sideTable

end SideTable

end SchemaLedger
