import SchemaLedger.Ddl
import SchemaLedger.Fact.Delta
import SchemaLedger.Identifier.Derived
import SchemaLedger.Statement

/-!
# Lowering statements

A general statement becomes statements of the database and a delta of the ledger. The database
statements come in an order in which they can be executed, indices last, and the delta holds what
they leave unsaid: generations and defaults.

Lowering is all or nothing, for a statement as for a batch: an error yields neither statements nor
a delta. Definitions are looked at in the order in which they stand, so the first one that cannot
be expressed decides the error; where keys and indices stand between the columns does not matter
otherwise.
-/

namespace SchemaLedger

/-- What a statement becomes. -/
structure Lowered where
  ddl : List Ddl
  delta : Delta
  deriving DecidableEq, Repr

/-- The texts of the database statements. -/
def Lowered.sql (l : Lowered) : List String := l.ddl.map Ddl.text

/-- One after the other. -/
def Lowered.join (ls : List Lowered) : Lowered := ⟨ls.flatMap (·.ddl), ls.flatMap (·.delta)⟩

/-! ## Columns -/

/-- The default that a spelling means; `NULL` means none. -/
def DefaultExpr.value? : DefaultExpr → Option ColumnDefault
  | null => none
  | literal text =>
    some (.expression (String.ofList ('\'' :: (text.toList.flatMap escape ++ ['\'']))))
  | number text => some (.expression text)
  | bool b => some (.expression (if b then "true" else "false"))
  | currentTimestamp => some .commitTimestamp
  | expression text => some (ColumnDefault.ofExpression text)
where
  /-- A character inside a literal: a backslash or a quote has a backslash in front. -/
  escape (c : Char) : List Char := if c = '\\' ∨ c = '\'' then ['\\', c] else [c]

/-- A column of a statement, what it is written as, and the default that becomes a fact. -/
structure LoweredColumn where
  source : ColumnDef
  clause : ColumnClause
  defaultValue : Option ColumnDefault
  deriving DecidableEq, Repr

namespace ColumnDef

/-- The default that a column ends up with: what it is set to on update wins. -/
def resolveDefault (c : ColumnDef) : Option ColumnDefault :=
  (c.onUpdate.bind DefaultExpr.value?).or (c.defaultExpr.bind DefaultExpr.value?)

/-- The generation that a column ends up with: a stated one wins over `AUTO_INCREMENT`. -/
def resolveGeneration (c : ColumnDef) : Option Generation :=
  c.generation.or (if c.autoIncrement then some .increment else none)

/-- Lowers a column of a table. -/
def lower (table : String) (c : ColumnDef) : Except SchemaError LoweredColumn :=
  let place : Place := ⟨table, some c.name, none⟩
  match c.dataType.resolve? with
  | none => .error (.unsupported (.columnType c.dataType.name) place)
  | some (type, length) =>
    let onUpdate := c.onUpdate.bind DefaultExpr.value?
    let default := c.resolveDefault
    if onUpdate.isSome && onUpdate != some .commitTimestamp then
      .error (.unsupported .onUpdate place)
    else if default == some .commitTimestamp && type != .timestamp then
      .error (.unsupported .commitTimestamp place)
    else
      .ok
        { source := c
          clause :=
            { name := c.name
              type
              length
              array := c.dataType.array
              notNull := c.notNull || c.primaryKey
              commitTimestamp := default == some .commitTimestamp }
          defaultValue := default }

end ColumnDef

/-- The facts of a lowered column. -/
def LoweredColumn.facts (table : String) (c : LoweredColumn) : List Fact :=
  Fact.ofColumn table c.source.name c.source.resolveGeneration c.defaultValue

/-! ## Indices -/

namespace IndexDef

/-- The given name, or one made of table and columns. -/
def nameIn (i : IndexDef) (table : String) (unique : Bool) : String :=
  i.name.getD (Identifier.indexName table (i.columns.map (·.name)) unique)

/-- Lowers an index; with `declared` given, it may name no other columns. -/
def lower (table : String) (kind : IndexKind) (interleaveIn : Option String)
    (declared : Option (List String)) (i : IndexDef) : Except SchemaError Index :=
  let unique := kind == .unique
  let name := i.nameIn table unique
  let index : Index := ⟨name, table, i.columns, unique, i.nullFiltered, i.storing, interleaveIn⟩
  if i.columns.isEmpty then
    .error (.unsupported .emptyIndex (some ⟨table, none, some name⟩))
  else
    match declared.bind fun names ↦ index.referenced.find? (!names.contains ·) with
    | some missing => .error (.dangling table (some missing) ("index " ++ name))
    | none => .ok index

end IndexDef

/-! ## Tables -/

/-- What has been gathered from the body of a table. -/
structure TableDraft where
  columns : List LoweredColumn := []
  keyClause : Option (List KeyPart) := none
  indices : List (IndexKind × IndexDef) := []

namespace TableDraft

/-- The names of the columns. -/
def declared (d : TableDraft) : List String := d.columns.map (·.source.name)

/-- The columns that say themselves that they are the key. -/
def inlineKey (d : TableDraft) : List String :=
  (d.columns.filter (·.source.primaryKey)).map (·.source.name)

/-- The columns that say themselves that they are unique, the key apart. -/
def uniqueColumns (d : TableDraft) : List String :=
  (d.columns.filter fun c ↦ c.source.unique && !c.source.primaryKey).map (·.source.name)

/-- Takes in one more definition. -/
def add (table : String) (d : TableDraft) : Definition → Except SchemaError TableDraft
  | .column c =>
    match if c.autoIncrement then d.columns.find? (·.source.autoIncrement) else none with
    | some first =>
      .error (.unsupported (.secondAutoIncrement first.source.name c.name)
        (some ⟨table, none, none⟩))
    | none => do
      let column ← c.lower table
      return { d with columns := d.columns ++ [column] }
  | .primaryKey parts =>
    if d.keyClause.isSome then .error (.unsupported .secondKeyClause (some ⟨table, none, none⟩))
    else .ok { d with keyClause := some parts }
  | .index kind i => .ok { d with indices := d.indices ++ [(kind, i)] }
  | .foreignKey key =>
    .error (.unsupported (.foreignKey key.referencesTable) (some ⟨table, none, none⟩))
  | .check c => .error (.unsupported (.check c.expression) (some ⟨table, none, none⟩))

/-- The key: the one that a column declares, or the clause, which may repeat it. -/
def key (table : String) (d : TableDraft) : Except SchemaError (List KeyPart) := do
  let parts ← match d.inlineKey, d.keyClause with
    | [], clause => Except.ok (clause.getD [])
    | [column], none => .ok [⟨column, .asc⟩]
    | [column], some clause =>
      if clause.map (·.name) = [column] then .ok clause
      else .error (.unsupported (.keyConflict column) (some ⟨table, none, none⟩))
    | columns, _ => .error (.unsupported (.inlineKeys columns) (some ⟨table, none, none⟩))
  match parts.find? (!d.declared.contains ·.name) with
  | some missing => .error (.dangling table (some missing.name) "primary key")
  | none => .ok parts

/-- The indices: one for each unique column, then the declared ones. -/
def lowerIndices (table : String) (d : TableDraft) : Except SchemaError (List Index) := do
  let uniques ← d.uniqueColumns.mapM fun c ↦ (IndexDef.on [c]).lower table .unique none d.declared
  let declared ← d.indices.mapM fun i ↦ i.2.lower table i.1 none d.declared
  return uniques ++ declared

end TableDraft

/-- The parents that the options of a table name. -/
def TableOption.interleaves (options : List TableOption) : List Interleave :=
  options.filterMap fun
    | .interleave i => some i
    | _ => none

namespace CreateTable

/-- Gathers the body of a table. -/
def draft (c : CreateTable) : Except SchemaError TableDraft :=
  c.definitions.foldlM (TableDraft.add c.table) {}

/-- Lowers the declaration of a table. -/
def lower (c : CreateTable) : Except SchemaError Lowered := do
  let d ← c.draft
  let key ← d.key c.table
  let indices ← d.lowerIndices c.table
  let table := Ddl.createTable c.table c.ifNotExists (d.columns.map (·.clause)) key
    (TableOption.interleaves c.options)
  return ⟨table :: indices.map .createIndex,
    (d.columns.flatMap (LoweredColumn.facts c.table)).map .upsert⟩

end CreateTable

/-! ## Changes to tables -/

/-- What one change to a table becomes; the indices are created after all changes. -/
structure LoweredAction where
  ddl : List Ddl := []
  indices : List Index := []
  delta : Delta := []
  deriving DecidableEq, Repr

/-- Lowers one change to a table. -/
def AlterAction.lower (table : String) : AlterAction → Except SchemaError LoweredAction
  | addColumn c =>
    if c.primaryKey then
      .error (.unsupported (.addedKeyColumn c.name) (some ⟨table, none, none⟩))
    else do
      let column ← c.lower table
      let indices ← if c.unique then
          List.singleton <$> (IndexDef.on [c.name]).lower table .unique none none
        else Except.ok []
      return { ddl := [.addColumn table column.clause]
               indices
               delta := (column.facts table).map .upsert }
  | dropColumn column =>
    .ok { ddl := [.dropColumn table column], delta := [.removeColumn table column] }
  | changeColumn old c =>
    if old ≠ c.name then
      .error (.unsupported (.renamedColumn old c.name) (some ⟨table, none, none⟩))
    else if c.primaryKey then
      .error (.unsupported (.changedKeyColumn c.name) (some ⟨table, none, none⟩))
    else do
      let column ← c.lower table
      let allow := if column.clause.commitTimestamp then
          [Ddl.allowCommitTimestamp table c.name]
        else []
      return { ddl := .alterColumn table column.clause :: allow
               delta := .removeColumn table c.name :: (column.facts table).map .upsert }
  | addIndex i => return { indices := [← i.lower table .plain none none] }
  | addSpatialIndex i => return { indices := [← i.lower table .spatial none none] }
  | addUniqueKey i => return { indices := [← i.lower table .unique none none] }
  | dropIndex name => .ok { ddl := [.dropIndex name] }
  | addForeignKey key =>
    .error (.unsupported (.addedForeignKey key.referencesTable) (some ⟨table, none, none⟩))
  | addPrimaryKey _ => .error (.unsupported .addedKey (some ⟨table, none, none⟩))

/-- Lowers changes to a table. -/
def AlterTable.lower (a : AlterTable) : Except SchemaError Lowered := do
  let actions ← a.actions.mapM (AlterAction.lower a.table)
  return ⟨actions.flatMap (·.ddl) ++ (actions.flatMap (·.indices)).map .createIndex,
    actions.flatMap (·.delta)⟩

/-! ## Statements and batches -/

namespace Statement

/-- Lowers a statement. -/
def lower : Statement → Except SchemaError Lowered
  | createTable c => c.lower
  | alterTable a => a.lower
  | createIndex c => do
    return ⟨[.createIndex (← c.index.lower c.table c.kind c.interleaveIn none)], []⟩
  | dropIndex name _ => .ok ⟨[.dropIndex name], []⟩
  | renameTable renames =>
    .ok ⟨renames.map fun r ↦ .renameTable r.old r.new, renames.map fun r ↦ .renameTable r.old r.new⟩
  | dropTable tables ifExists =>
    .ok ⟨tables.map (.dropTable · ifExists), tables.map .removeTable⟩

/-- Lowers a statement and adds to the delta at hand what it leaves unsaid. -/
def lowerInto (s : Statement) : EStateM SchemaError Delta (List String) := do
  let l ← MonadExcept.ofExcept s.lower
  modify (· ++ l.delta)
  return l.sql

/-- Lowers a batch. -/
def lowerAll (statements : List Statement) : Except SchemaError Lowered :=
  Lowered.join <$> statements.mapM lower

end Statement

/-- The texts of the statements that create a table again, its indices last. -/
def Table.sql (t : Table) : Except SchemaError (List String) :=
  Lowered.sql <$> Statement.lowerAll t.statements

end SchemaLedger
