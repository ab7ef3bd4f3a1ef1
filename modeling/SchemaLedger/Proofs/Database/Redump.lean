import Mathlib
import SchemaLedger.Proofs.Database.Described
import SchemaLedger.Proofs.Database.Rows
import SchemaLedger.Proofs.Dump.Dangling
import SchemaLedger.Proofs.Dump.Storable

/-!
# Dumps of dumps

A database that is made from a dump is dumped as the same tables, up to three losses. Defaults are
not written but for the commit timestamp: the others come out as facts when a table is written down,
and whoever dumps a database drops these. Nothing is written at all when a column of another type is
to hold the commit timestamp. And a name that is not read to its end where it is written spoils the
statement that it is in. Dumps can say all three.
-/

namespace SchemaLedger

open Text Identifier

/-! ## Statements of many tables -/

namespace Dump

theorem readItems_append_ok {a b : List String} {xs ys : List Item} (ha : readItems a = .ok xs)
    (hb : readItems b = .ok ys) : readItems (a ++ b) = .ok (xs ++ ys) := by
  rw [readItems] at ha hb
  rw [readItems, List.map_append, List.filter_append, List.mapM_append, ha, hb]
  rfl

/-- Tables with names of their own are added. -/
theorem exists_foldlM_addTable {texts : List TableText} {ts : List Table}
    (hbuilt : texts.mapM TableText.build = .ok ts) (hdistinct : (ts.map (·.name)).Nodup)
    {s : Schema}
    (hfresh : ∀ t ∈ ts, s[t.name]? = none) : ∃ s', texts.foldlM addTable s = .ok s' := by
  induction texts generalizing ts s with
  | nil => exact ⟨s, rfl⟩
  | cons text texts ih =>
    obtain ⟨t, ts, hbuild, hrest, rfl⟩ := mapM_cons_eq_ok hbuilt
    rw [List.map_cons, List.nodup_cons] at hdistinct
    have hcontains : ¬s.contains t.name = true := by
      rw [Std.ExtTreeMap.contains_eq_isSome_getElem?, hfresh t List.mem_cons_self]
      exact Bool.false_ne_true
    have hadd : addTable s text = .ok (s.insert t.name t) := by
      rw [addTable, hbuild, ok_bind, if_neg hcontains]
      rfl
    rw [List.foldlM_cons, hadd]
    refine ih hrest hdistinct.2 fun u hu ↦ ?_
    rw [Std.ExtTreeMap.getElem?_insert, if_neg fun e ↦ hdistinct.1 ?_]
    · exact hfresh u (List.mem_cons_of_mem t hu)
    · exact Std.LawfulEqOrd.compare_eq_iff_eq.1 e ▸ List.mem_map_of_mem hu

/-- Statements are read if they build tables with names of their own and their indices name columns
that are there. -/
theorem exists_parse {statements : List String} {items : List Item} {ts : List Table}
    (hitems : readItems statements = .ok items)
    (hbuilt : (tables items).mapM TableText.build = .ok ts) (hdistinct : (ts.map (·.name)).Nodup)
    (hdeclared : ∀ i ∈ indices items, ∃ t ∈ ts, t.name = i.table ∧
      ∀ c ∈ i.referenced, c ∈ t.columnNames) :
    ∃ s, parse statements = .ok s := by
  obtain ⟨s, hs⟩ :=
    exists_foldlM_addTable hbuilt hdistinct (s := ∅) fun _ _ ↦ Std.ExtTreeMap.getElem?_empty
  obtain ⟨us, hus, -, -, hlookup⟩ := of_foldlM_addTable hs
  obtain rfl := Except.ok.inj (hbuilt.symm.trans hus)
  obtain ⟨s', hs'⟩ : ∃ s', (indices items).foldlM addIndex s = .ok s' :=
    exists_foldlM_addIndex fun i hi ↦ by
    obtain ⟨t, ht, hname, hcolumns⟩ := hdeclared i hi
    refine ⟨t, ?_, hcolumns⟩
    rw [hlookup, ← hname, find?_eq_some_of_mem hdistinct ht]
    rfl
  exact ⟨s', by rw [parse, hitems, ok_bind, hs, ok_bind, hs']⟩

/-- The statements of tables that can be stored are read as these tables and their indices. -/
theorem exists_readItems_creation {ts : List Table} (h : ∀ t ∈ ts, t.Storable) :
    ∃ items, readItems (ts.flatMap Table.creation) = .ok items ∧
      (tables items).mapM TableText.build = .ok (ts.map Table.bare) ∧
      indices items = ts.flatMap (·.indices) := by
  induction ts with
  | nil => exact ⟨[], rfl, rfl, rfl⟩
  | cons t ts ih =>
    obtain ⟨items, hitems, hbuilt, hindices⟩ := ih fun u hu ↦ h u (List.mem_cons_of_mem t hu)
    have hdeclarable := (h t List.mem_cons_self).declarable (KeyPart.map_name_asc _)
    have hown := readItems_declared hdeclarable.legible false hdeclarable.closed
      (t.primaryKey.map fun c ↦ ⟨c, .asc⟩) t.interleave.toList (h t List.mem_cons_self).readable
    refine ⟨_, readItems_append_ok hown hitems, ?_, ?_⟩
    · rw [tables_append]
      change (_ :: (tables (t.indices.map .index) ++ tables items)).mapM TableText.build = _
      rw [tables_map_index, List.nil_append, List.mapM_cons, build_declared hdeclarable, hbuilt]
      rfl
    · rw [indices_append, hindices, List.flatMap_cons]
      exact congrArg (· ++ _) (indices_map_index t.indices)

/-- The statements of tables that can be stored describe a schema. -/
theorem exists_parse_creation {ts : List Table} (h : ∀ t ∈ ts, t.Storable)
    (hdistinct : (ts.map (·.name)).Nodup) : ∃ s, parse (ts.flatMap Table.creation) = .ok s := by
  obtain ⟨items, hitems, hbuilt, hindices⟩ := exists_readItems_creation h
  have hbare : ((ts.map Table.bare).map (·.name)).Nodup := by
    rw [List.map_map]
    exact hdistinct
  refine exists_parse hitems hbuilt hbare fun i hi ↦ ?_
  rw [hindices] at hi
  obtain ⟨t, ht, hi⟩ := List.mem_flatMap.1 hi
  refine ⟨t.bare, List.mem_map_of_mem ht, ((h t ht).named i hi).symm, fun c hc ↦ ?_⟩
  rw [Table.columnNames_bare]
  exact (h t ht).declaresIndexed i hi c hc

end Dump

/-! ## Databases that are made from a dump -/

namespace Database

theorem schema_ofSchema (s : Schema) : (ofSchema s).schema = s := by
  refine Std.ExtTreeMap.ext_getElem? fun n ↦ ?_
  rw [getElem?_schema, ofSchema, Std.ExtTreeMap.getElem?_map, Option.map_map]
  exact congrFun Option.map_id s[n]?

section

variable {statements : List String} {s : Schema} (h : Dump.parse statements = .ok s)

include h

theorem dumpStatements_of_parse :
    (∃ ss, dumpStatements s = .ok ss) ↔ ∀ (n : String) (t : Table), s[n]? = some t → t.Timed := by
  constructor
  · rintro ⟨ss, hss⟩ n t ht
    obtain ⟨owns, howns, -⟩ := map_eq_ok hss
    obtain ⟨own, -, hsql⟩ := exists_of_mapM howns (mem_dumpOrder.2 ⟨n, ht⟩)
    exact Table.timed_of_sql hsql
  · intro htimed
    refine ⟨_, dumpStatements_eq fun t ht ↦ ?_⟩
    obtain ⟨n, hn⟩ := mem_dumpOrder.1 ht
    exact (Dump.sound_of_parse h hn).1.sql_of_timed (htimed n t hn)

/-- What is read is written down and read again without the defaults that are expressions. -/
theorem parse_dumpStatements
    (hbalanced : ∀ (n : String) (t : Table), s[n]? = some t → ∀ c ∈ t.columnNames, Balanced c)
    {ss : List String} (hss : dumpStatements s = .ok ss) :
    Dump.parse ss = .ok (s.map fun _ t ↦ t.withoutExpressions) := by
  have htimed := (dumpStatements_of_parse h).1 ⟨ss, hss⟩
  have hmem {t : Table} (ht : t ∈ dumpOrder s) : ∃ n : String, s[n]? = some t := mem_dumpOrder.1 ht
  have hss' : ss = (dumpOrder s).flatMap Table.creation := by
    refine Except.ok.inj (hss.symm.trans (dumpStatements_eq fun t ht ↦ ?_))
    obtain ⟨n, hn⟩ := hmem ht
    exact (Dump.sound_of_parse h hn).1.sql_of_timed (htimed n t hn)
  have hstorable : ∀ t ∈ dumpOrder s, t.Storable := fun t ht ↦ by
    obtain ⟨n, hn⟩ := hmem ht
    exact Dump.storable_of_parse h hn (hbalanced n t hn)
  obtain ⟨r, hr⟩ :=
    Dump.exists_parse_creation hstorable (nodup_dumpOrder fun n t ht ↦ (Dump.sound_of_parse h ht).2)
  have hsound : (ofSchema s).Sound := sound_ofSchema h
  have hdescribed : (ofSchema s).described = .ok r := by
    rw [described, schema_ofSchema, hss, ok_bind, hss', hr]
  rw [hss', hr]
  refine congrArg Except.ok (Std.ExtTreeMap.ext_getElem? fun n ↦ ?_)
  rw [getElem?_of_described hsound hdescribed, Std.ExtTreeMap.getElem?_map, ofSchema,
    Std.ExtTreeMap.getElem?_map, Option.map_map]
  refine Option.map_congr fun t ht ↦ ?_
  exact ((Dump.storable_of_parse h ht (hbalanced n t ht)).foldl_registerIndex
    (KeyPart.map_name_asc _)).trans (Dump.shown_of_parse h ht)

end

/-- Of a dump whose columns have names that are read to their ends, a database makes a dump of the
same tables with the same columns, keys, indices and parents. Only the defaults that are expressions
are gone. It makes none when a column of another type is to hold the commit timestamp. -/
theorem redump {dump : String} {db : Database} (h : ofDump dump = .ok db)
    (hbalanced : ∀ (n : String) (t : StoredTable), db.tables[n]? = some t →
      ∀ c ∈ t.schema.columnNames, Balanced c) :
    ∃ s, Dump.parseText dump = .ok s ∧
      ((∃ statements, schemaDdl db = .ok statements db) ↔
        ∀ (n : String) (t : Table), s[n]? = some t → ∀ c ∈ t.columns,
          c.defaultValue = some .commitTimestamp → c.type = .timestamp) ∧
      ∀ statements db', schemaDdl db = .ok statements db' →
        Dump.parse statements = .ok (s.map fun _ t ↦ t.withoutExpressions) := by
  obtain ⟨s, hs, rfl⟩ := map_eq_ok h
  refine ⟨s, hs, ?_, fun statements db' hok ↦ ?_⟩
  · simp only [schemaDdl_eq_ok, and_true, schema_ofSchema]
    rw [dumpStatements_of_parse hs]
    exact forall₂_congr fun n t ↦ forall_congr' fun ht ↦ Dump.timed_iff_of_parse hs ht
  · rw [schemaDdl_eq_ok, schema_ofSchema] at hok
    refine parse_dumpStatements hs (fun n t ht ↦ ?_) hok.1
    refine hbalanced n { schema := t } ?_
    rw [ofSchema, Std.ExtTreeMap.getElem?_map, ht]
    rfl

/-- A table with a default of each kind and an index. -/
def signatures : String :=
  "CREATE TABLE t (s STRING(9) DEFAULT ('x'), at TIMESTAMP DEFAULT (NOW())) PRIMARY KEY (s);\n"
    ++ "INDEX i ON t (at DESC)"

theorem parseText_signatures :
    (Dump.parseText signatures).toOption.map (fun s ↦ s.values.map fun t ↦
        (t.columnNames, t.columns.map fun c ↦ (c.type, c.defaultValue)))
      = some [(["s", "at"], [(.string, some (.expression "'x'")),
        (.timestamp, some .commitTimestamp)])] := by
  decide +kernel

theorem signatures_redump :
    ∃ db s statements, ofDump signatures = .ok db ∧ Dump.parseText signatures = .ok s ∧
      schemaDdl db = .ok statements db ∧
      Dump.parse statements = .ok (s.map fun _ t ↦ t.withoutExpressions) := by
  obtain ⟨s, hs, hvalues⟩ := Option.map_eq_some_iff.1 parseText_signatures
  have hs := eq_ok_of_toOption hs
  have hdb : ofDump signatures = .ok (ofSchema s) := by rw [ofDump, hs]; rfl
  have htable {n : String} {t : Table} (ht : s[n]? = some t) : t.columnNames = ["s", "at"] ∧
      t.columns.map (fun c ↦ (c.type, c.defaultValue))
        = [(.string, some (.expression "'x'")), (.timestamp, some .commitTimestamp)] := by
    have hmem := List.mem_map_of_mem (f := fun t : Table ↦
      (t.columnNames, t.columns.map fun c ↦ (c.type, c.defaultValue))) (mem_values.2 ⟨n, ht⟩)
    rw [hvalues, List.mem_singleton] at hmem
    exact Prod.mk.inj hmem
  have hbalanced : ∀ (n : String) (t : StoredTable), (ofSchema s).tables[n]? = some t →
      ∀ c ∈ t.schema.columnNames, Balanced c := by
    intro n t ht c hc
    rw [ofSchema, Std.ExtTreeMap.getElem?_map] at ht
    obtain ⟨u, hu, rfl⟩ := Option.map_eq_some_iff.1 ht
    rw [(htable hu).1] at hc
    rcases List.mem_cons.1 hc with rfl | hc
    · exact ⟨by decide, by decide⟩
    · rw [List.mem_singleton.1 hc]
      exact ⟨by decide, by decide⟩
  obtain ⟨s', hs', htimed, hparse⟩ := redump hdb hbalanced
  obtain rfl := Except.ok.inj (hs.symm.trans hs')
  obtain ⟨statements, hok⟩ := htimed.2 fun n t ht c hc hdefault ↦ by
    have hmem := List.mem_map_of_mem (f := fun c : Column ↦ (c.type, c.defaultValue)) hc
    rw [(htable ht).2, hdefault] at hmem
    simpa using hmem
  exact ⟨_, s, statements, hdb, hs, hok, hparse _ _ hok⟩

/-- A default that is an expression. -/
def greeted : String := "CREATE TABLE t (s DATE DEFAULT ('x'))"

/-- The commit timestamp in a column of dates. -/
def undated : String := "CREATE TABLE t (s DATE DEFAULT (NOW()))"

/-- The defaults of the columns of all tables. -/
def defaults (s : Schema) : List (Option ColumnDefault) :=
  s.values.flatMap fun t ↦ t.columns.map (·.defaultValue)

theorem defaults_greeted :
    (do
      let s ← Dump.parseText greeted
      let statements ← dumpStatements s
      let r ← Dump.parse statements
      return (defaults s, defaults r)) = .ok ([some (.expression "'x'")], [none]) := by
  decide +kernel

theorem dumpStatements_undated :
    (do
      let s ← Dump.parseText undated
      return (dumpStatements s).toOption.isSome) = .ok false := by
  decide +kernel

/-- A column whose name ends in a backslash. It is read here because a later backtick closes what
the backslash leaves open. -/
def unclosed : String := "CREATE TABLE t (`a\\` STRING(9) DEFAULT ('`(\\''))"

/-- Without the default there is no later backtick. -/
theorem dumpStatements_unclosed :
    (do
      let s ← Dump.parseText unclosed
      let statements ← dumpStatements s
      return (Dump.parse statements).toOption.isSome) = .ok false := by
  decide +kernel

theorem schemaDdl_ofSchema {s : Schema} {statements : List String}
    (h : dumpStatements s = .ok statements) :
    schemaDdl (ofSchema s) = .ok statements (ofSchema s) := by
  rw [schemaDdl_eq_ok, schema_ofSchema]
  exact ⟨h, rfl⟩

/-- A default that is an expression does not come back, a column of another type with the commit
timestamp is not dumped, and a name that ends in a backslash is not read again. -/
theorem not_redumped :
    (∃ db s statements r, ofDump greeted = .ok db ∧ Dump.parseText greeted = .ok s ∧
      schemaDdl db = .ok statements db ∧ Dump.parse statements = .ok r ∧ r ≠ s) ∧
    (∃ db e, ofDump undated = .ok db ∧ schemaDdl db = .error e db) ∧
    ∃ db statements e, ofDump unclosed = .ok db ∧ schemaDdl db = .ok statements db ∧
      Dump.parse statements = .error e := by
  refine ⟨?_, ?_, ?_⟩
  · obtain ⟨s, hs, hrest⟩ := bind_eq_ok defaults_greeted
    obtain ⟨statements, hstatements, hrest⟩ := bind_eq_ok hrest
    obtain ⟨r, hr, hdefaults⟩ := bind_eq_ok hrest
    obtain ⟨hold, hnew⟩ := Prod.mk.inj (Except.ok.inj hdefaults)
    refine ⟨ofSchema s, s, statements,
      r, by rw [ofDump, hs]; rfl, hs, schemaDdl_ofSchema hstatements, hr, ?_⟩
    rintro rfl
    exact absurd (hold.symm.trans hnew) (by decide)
  · obtain ⟨s, hs, hnone⟩ := bind_eq_ok dumpStatements_undated
    obtain ⟨e, he⟩ := exists_error_of_toOption (Except.ok.inj hnone)
    refine ⟨ofSchema s, .schema e, by rw [ofDump, hs]; rfl, ?_⟩
    rw [schemaDdl, run_bind_of_ok (m := get) (a := ofSchema s) (t := ofSchema s) rfl,
      schema_ofSchema, he]
    rfl
  · obtain ⟨s, hs, hrest⟩ := bind_eq_ok dumpStatements_unclosed
    obtain ⟨statements, hstatements, hnone⟩ := bind_eq_ok hrest
    obtain ⟨e, he⟩ := exists_error_of_toOption (Except.ok.inj hnone)
    exact ⟨ofSchema s, statements, e, by rw [ofDump, hs]; rfl, schemaDdl_ofSchema hstatements, he⟩

end Database

end SchemaLedger
