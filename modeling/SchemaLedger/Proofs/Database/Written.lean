import Mathlib
import SchemaLedger.Proofs.Database.Creation
import SchemaLedger.Proofs.Lowering.Mirror

/-!
# What written statements do

A statement with tame names, if it is accepted, has been taken for what it was written for. So what
a command does when it succeeds is said here of the statements that give it, with the columns that
they write in place of the texts of columns.
-/

namespace SchemaLedger

open Identifier

/-! ## Clauses -/

namespace ColumnClause

/-- The clause without the permission to hold the commit timestamp. -/
def plain (c : ColumnClause) : ColumnClause := { c with commitTimestamp := false }

/-- A clause is read as the column that it declares. -/
theorem column_of_columnOfText {c : ColumnClause} (h : '\x60' ∉ c.name.toList) {d : Column}
    (hread : Dump.columnOfText c.text.toList = .ok d) : d = c.column ∧ c.Readable := by
  have hread := Dump.reading_eq_ok.1 hread
  have hreadable := Dump.readable_of_readColumn h hread
  rw [Dump.readColumn_text hreadable] at hread
  exact ⟨(Except.ok.inj hread).symm, hreadable⟩

end ColumnClause

namespace Database

variable {db db' : Database}

section

variable {d : Ddl} (h : d.Tame) (hok : db.run d.text = .ok db')

include h hok

theorem legible_targets : ∀ n ∈ d.targets, Legible n :=
  legible_of_run (fun n hn ↦ (h.targets n hn).noBacktick) (fun c hc ↦ (h.clauses c hc).noBacktick)
    hok

/-- An accepted statement has given its command. -/
theorem command_of_run : Command.ofText? d.text = some d.command :=
  Command.ofText?_text (legible_targets h hok) fun c hc ↦ (h.clauses c hc).noBacktick

end

/-! ## Columns -/

theorem of_run_addColumn {table : String} {c : ColumnClause} (h : (Ddl.addColumn table c).Tame)
    (hok : db.run (Ddl.addColumn table c).text = .ok db') :
    ∃ t, db.tables[table]? = some t ∧ c.Readable ∧ c.name ∉ t.schema.columnNames ∧
      db' = db.store table { t with schema := t.schema.appendColumn c.column } := by
  have hcommand := command_of_run h hok
  rw [run, hcommand] at hok
  obtain ⟨d, t, hread, ht, hnew, rfl⟩ := addColumn_eq_ok hok
  obtain ⟨rfl, hreadable⟩ :=
    ColumnClause.column_of_columnOfText (h.clauses c List.mem_cons_self).noBacktick hread
  exact ⟨t, ht, hreadable, hnew, rfl⟩

theorem of_run_alterColumn {table : String} {c : ColumnClause} (h : (Ddl.alterColumn table c).Tame)
    (hok : db.run (Ddl.alterColumn table c).text = .ok db') :
    ∃ t, db.tables[table]? = some t ∧ c.Readable ∧ c.name ∈ t.schema.columnNames ∧
      db' = db.store table
        { t with schema := t.schema.modifyColumn c.name (Column.alter c.plain.column) } := by
  have hcommand := command_of_run h hok
  rw [run, hcommand] at hok
  obtain ⟨d, t, hread, ht, hmem, rfl⟩ := alterColumn_eq_ok hok
  obtain ⟨rfl, hreadable⟩ :=
    c.plain.column_of_columnOfText (h.clauses c List.mem_cons_self).noBacktick hread
  exact ⟨t, ht, ⟨hreadable.name, hreadable.length⟩, hmem, rfl⟩

theorem of_run_dropColumn {table column : String} (h : (Ddl.dropColumn table column).Tame)
    (hok : db.run (Ddl.dropColumn table column).text = .ok db') :
    ∃ t, db.tables[table]? = some t ∧ column ∈ t.schema.columnNames ∧ column ∉ t.schema.primaryKey ∧
      (∀ i ∈ t.schema.indices, column ∉ i.referenced) ∧
      db' = db.store table
        { schema := t.schema.eraseColumn column,
          rows := t.rows.map fun _ row ↦ row.erase column } := by
  have hcommand := command_of_run h hok
  rw [run, hcommand] at hok
  exact dropColumn_eq_ok hok

theorem of_run_allowCommitTimestamp {table column : String}
    (h : (Ddl.allowCommitTimestamp table column).Tame)
    (hok : db.run (Ddl.allowCommitTimestamp table column).text = .ok db') :
    ∃ t, db.tables[table]? = some t ∧ column ∈ t.schema.columnNames ∧
      db' = db.store table
        { t with schema := t.schema.modifyColumn column (Column.permit true) } := by
  have hcommand := command_of_run h hok
  rw [run, hcommand] at hok
  exact allowCommitTimestamp_eq_ok hok

/-! ## Tables -/

theorem of_run_renameTable {old new : String} (h : (Ddl.renameTable old new).Tame)
    (hok : db.run (Ddl.renameTable old new).text = .ok db') :
    Legible new ∧ ∃ t, db.tables[old]? = some t ∧ db.tables[new]? = none ∧
      db' = db.renamed old new t := by
  have hcommand := command_of_run h hok
  have hlegible := legible_targets h hok
  rw [run, hcommand] at hok
  exact ⟨hlegible new (List.mem_cons_of_mem _ List.mem_cons_self), renameTable_eq_ok hok⟩

theorem of_run_dropTable {name : String} {ifExists : Bool} (h : (Ddl.dropTable name ifExists).Tame)
    (hok : db.run (Ddl.dropTable name ifExists).text = .ok db') :
    (db.tables[name]? = none ∧ db' = db) ∨
      ∃ t, db.tables[name]? = some t ∧ db.child? name = none ∧
        db' = { db with tables := db.tables.erase name } := by
  have hcommand := command_of_run h hok
  rw [run, hcommand] at hok
  exact dropTable_eq_ok hok

/-! ## Indices -/

theorem of_run_dropIndex {name : String} (h : (Ddl.dropIndex name).Tame)
    (hok : db.run (Ddl.dropIndex name).text = .ok db') :
    ∃ owner t, db.indexOwner? name = some owner ∧ db.tables[owner.name]? = some t ∧
      db' = db.store owner.name { t with schema := t.schema.dropIndex name } := by
  have hcommand := command_of_run h hok
  rw [run, hcommand] at hok
  exact dropIndex_eq_ok hok

theorem of_run_createIndex {i : Index} (h : (Ddl.createIndex i).Tame)
    (hok : db.run i.sql = .ok db') :
    Legible i.name ∧ ∃ t own parsed u, db.indexOwner? i.name = none ∧ db.tables[i.table]? = some t ∧
      t.schema.sql = .ok own ∧ Dump.parse (own ++ [i.sql]) = .ok parsed ∧
      parsed[i.table]? = some u ∧ db' = db.store i.table { t with schema := u } := by
  have hcommand := command_of_run (d := .createIndex i) h hok
  have hlegible := legible_targets (d := .createIndex i) h hok
  rw [run] at hok
  change Command.ofText? i.sql = _ at hcommand
  rw [hcommand] at hok
  exact ⟨hlegible i.name List.mem_cons_self, createIndex_eq_ok hok⟩

end Database

end SchemaLedger
