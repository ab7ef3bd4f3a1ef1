import Mathlib
import SchemaLedger.Proofs.Json.Decode
import SchemaLedger.Statement.Json

/-!
# Statements are read back

Every statement is read from the value that it is written as, with the fields of its objects in any
order. So what a value was read as does not change when it is written and read again, however the
value itself was written.
-/

namespace SchemaLedger

open Json Json.RecordReader Json.Decoder

/-! ## Columns -/

theorem ColumnLength.inverts_decoder : decoder.Inverts toJson
  | max => reads_constant rfl
  | size n => reads_content rfl ((inverts_uint32 n).map size)

theorem Generation.inverts_decoder : decoder.Inverts toJson
  | increment => reads_constant rfl
  | uuid => reads_constant rfl
  | custom g => reads_content rfl ((inverts_string g).map custom)

theorem DataType.inverts_decoder : decoder.Inverts toJson :=
  .record (fun d ↦ by simp) fun d fields h ↦
    (h.field (inverts_string d.name) (by simp)).bind <|
    (h.optionalD ColumnLength.inverts_decoder (fun _ ↦ rfl) (by simp)).bind <|
    (h.fieldD (inverts_bool d.array) false (by simp)).bind <| .pure _

theorem DefaultExpr.inverts_decoder : decoder.Inverts toJson
  | null => reads_withContent_constant rfl (by decide)
  | literal text => reads_withContent rfl (by decide) ((inverts_string text).map literal)
  | number text => reads_withContent rfl (by decide) ((inverts_string text).map number)
  | bool value => reads_withContent rfl (by decide) ((inverts_bool value).map bool)
  | currentTimestamp => reads_withContent_constant rfl (by decide)
  | expression text => reads_withContent rfl (by decide) ((inverts_string text).map expression)

theorem ColumnDef.yields_reader {c : ColumnDef} {fields : List (String × Json)}
    (h : Shows fields c.jsonFields) : Yields reader fields c :=
  (h.field (inverts_string c.name) (by simp [jsonFields])).bind <|
  (h.field (DataType.inverts_decoder c.dataType) (by simp [jsonFields])).bind <|
  (h.fieldD (inverts_bool c.notNull) false (by simp [jsonFields])).bind <|
  (h.optionalD DefaultExpr.inverts_decoder (fun _ ↦ rfl) (by simp [jsonFields])).bind <|
  (h.optionalD DefaultExpr.inverts_decoder (fun _ ↦ rfl) (by simp [jsonFields])).bind <|
  (h.fieldD (inverts_bool c.autoIncrement) false (by simp [jsonFields])).bind <|
  (h.optionalD Generation.inverts_decoder (fun _ ↦ rfl) (by simp [jsonFields])).bind <|
  (h.fieldD (inverts_bool c.primaryKey) false (by simp [jsonFields])).bind <|
  (h.fieldD (inverts_bool c.unique) false (by simp [jsonFields])).bind <| .pure _

theorem ColumnDef.nodup_jsonFields (c : ColumnDef) : (c.jsonFields.map (·.1)).Nodup := by
  simp [jsonFields]

theorem ColumnDef.inverts_decoder : decoder.Inverts fun c ↦ .object c.jsonFields :=
  .record nodup_jsonFields fun _ _ ↦ yields_reader

/-! ## Keys and indices -/

theorem SortOrder.inverts_decoder : decoder.Inverts toJson
  | asc => reads_constant rfl
  | desc => reads_constant rfl

theorem KeyPart.inverts_decoder : decoder.Inverts toJson :=
  .record (fun p ↦ by simp) fun p fields h ↦
    (h.field (inverts_string p.name) (by simp)).bind <|
    (h.fieldD (SortOrder.inverts_decoder p.order) .asc (by simp)).bind <| .pure _

theorem KeyPart.yields_listReader {parts : List KeyPart} {fields known : List (String × Json)}
    (h : Shows fields known) (hmem : jsonField parts ∈ known) : Yields listReader fields parts :=
  h.field (inverts_decoder.list parts) hmem

theorem IndexDef.yields_reader {i : IndexDef} {fields : List (String × Json)}
    (h : Shows fields i.jsonFields) : Yields reader fields i :=
  (h.optionalD inverts_string (fun _ ↦ rfl) (by simp [jsonFields])).bind <|
  (KeyPart.yields_listReader h (by simp [jsonFields])).bind <|
  (h.fieldD (inverts_bool i.nullFiltered) false (by simp [jsonFields])).bind <|
  (h.fieldD (inverts_string.list i.storing) [] (by simp [jsonFields, ofStrings])).bind <| .pure _

theorem ForeignKeyDef.yields_reader {k : ForeignKeyDef} {fields : List (String × Json)}
    (h : Shows fields k.jsonFields) : Yields reader fields k :=
  (h.optionalD inverts_string (fun _ ↦ rfl) (by simp [jsonFields])).bind <|
  (h.field (inverts_string.list k.columns) (by simp [jsonFields, ofStrings])).bind <|
  (h.field (inverts_string k.referencesTable) (by simp [jsonFields])).bind <|
  (h.field (inverts_string.list k.referencesColumns)
    (by simp [jsonFields, ofStrings])).bind <| .pure _

theorem CheckDef.yields_reader {c : CheckDef} {fields : List (String × Json)}
    (h : Shows fields c.jsonFields) : Yields reader fields c :=
  (h.optionalD inverts_string (fun _ ↦ rfl) (by simp [jsonFields])).bind <|
  (h.field (inverts_string c.expression) (by simp [jsonFields])).bind <| .pure _

theorem IndexKind.inverts_decoder : decoder.Inverts fun k ↦ .string k.text
  | plain => reads_constant rfl
  | unique => reads_constant rfl
  | fulltext => reads_constant rfl
  | spatial => reads_constant rfl

/-! ## Tables -/

theorem Definition.inverts_decoder : decoder.Inverts toJson
  | column c => reads_tagged rfl (by simp [ColumnDef.jsonFields]) fun _ h ↦
    (ColumnDef.yields_reader h).map column
  | primaryKey parts =>
    reads_tagged rfl (by simp [KeyPart.jsonField]) fun _ h ↦
      (KeyPart.yields_listReader h List.mem_cons_self).map primaryKey
  | index kind i => by
    have hcase : cases.lookup kind.definitionName = some (index kind <$> IndexDef.reader) := by
      cases kind <;> rfl
    exact reads_tagged hcase (by simp [IndexDef.jsonFields, KeyPart.jsonField]) fun _ h ↦
      (IndexDef.yields_reader h).map (index kind)
  | foreignKey k =>
    reads_tagged rfl (by simp [ForeignKeyDef.jsonFields]) fun _ h ↦
      (ForeignKeyDef.yields_reader h).map foreignKey
  | check c =>
    reads_tagged rfl (by simp [CheckDef.jsonFields]) fun _ h ↦ (CheckDef.yields_reader h).map check

theorem TableOption.inverts_parent : parent.Inverts Interleave.toJson := by
  intro i p j hj
  obtain ⟨fields, rfl, h⟩ := hj.exists_shows (by simp)
  refine Yields.record_eq_some ?_ p
  exact (h.field (inverts_string i.parent) (by simp)).bind <|
    (h.fieldD (inverts_bool i.onDeleteCascade) false (by simp)).bind <| .pure i

theorem TableOption.inverts_decoder : decoder.Inverts toJson
  | interleave i => reads_withContent rfl (by decide) ((inverts_parent i).map interleave)
  | engine text => reads_withContent rfl (by decide) ((inverts_string text).map engine)
  | charset text => reads_withContent rfl (by decide) ((inverts_string text).map charset)
  | collate text => reads_withContent rfl (by decide) ((inverts_string text).map collate)
  | comment text => reads_withContent rfl (by decide) ((inverts_string text).map comment)

theorem CreateTable.yields_reader {c : CreateTable} {fields : List (String × Json)}
    (h : Shows fields c.jsonFields) : Yields reader fields c :=
  (h.field (inverts_string c.table) (by simp [jsonFields])).bind <|
  (h.fieldD (inverts_bool c.ifNotExists) false (by simp [jsonFields])).bind <|
  (h.field (Definition.inverts_decoder.list c.definitions) (by simp [jsonFields])).bind <|
  (h.fieldD (TableOption.inverts_decoder.list c.options) [] (by simp [jsonFields])).bind <| .pure _

/-! ## Statements -/

theorem AlterAction.inverts_decoder : decoder.Inverts toJson
  | addColumn c =>
    reads_tagged rfl (by simp [ColumnDef.jsonFields]) fun _ h ↦
      (ColumnDef.yields_reader h).map addColumn
  | dropColumn name =>
    reads_tagged rfl (by simp) fun _ h ↦ (h.field (inverts_string name) (by simp)).map dropColumn
  | changeColumn old c =>
    reads_tagged rfl (by simp) fun _ h ↦
      ((h.field (inverts_string old) (by simp)).map changeColumn).seq
        (h.field (ColumnDef.inverts_decoder c) (by simp))
  | addIndex i =>
    reads_tagged rfl (by simp [IndexDef.jsonFields, KeyPart.jsonField]) fun _ h ↦
      (IndexDef.yields_reader h).map addIndex
  | addSpatialIndex i =>
    reads_tagged rfl (by simp [IndexDef.jsonFields, KeyPart.jsonField]) fun _ h ↦
      (IndexDef.yields_reader h).map addSpatialIndex
  | addUniqueKey i =>
    reads_tagged rfl (by simp [IndexDef.jsonFields, KeyPart.jsonField]) fun _ h ↦
      (IndexDef.yields_reader h).map addUniqueKey
  | dropIndex name =>
    reads_tagged rfl (by simp) fun _ h ↦ (h.field (inverts_string name) (by simp)).map dropIndex
  | addForeignKey k =>
    reads_tagged rfl (by simp [ForeignKeyDef.jsonFields]) fun _ h ↦
      (ForeignKeyDef.yields_reader h).map addForeignKey
  | addPrimaryKey parts =>
    reads_tagged rfl (by simp [KeyPart.jsonField]) fun _ h ↦
      (KeyPart.yields_listReader h List.mem_cons_self).map addPrimaryKey

theorem CreateIndex.yields_reader {c : CreateIndex} {fields : List (String × Json)}
    (h : Shows fields c.jsonFields) : Yields reader fields c :=
  (h.optionalD inverts_string (fun _ ↦ rfl) (by simp [jsonFields])).bind <|
  (h.field (inverts_string c.table) (by simp [jsonFields])).bind <|
  (h.fieldD (IndexKind.inverts_decoder c.kind) .plain (by simp [jsonFields])).bind <|
  (KeyPart.yields_listReader h (by simp [jsonFields])).bind <|
  (h.fieldD (inverts_bool c.index.nullFiltered) false (by simp [jsonFields])).bind <|
  (h.fieldD (inverts_string.list c.index.storing) [] (by simp [jsonFields, ofStrings])).bind <|
  (h.optionalD inverts_string (fun _ ↦ rfl) (by simp [jsonFields])).bind <| .pure _

theorem TableRename.inverts_decoder : decoder.Inverts toJson :=
  .record (fun r ↦ by simp) fun r fields h ↦
    (h.field (inverts_string r.old) (by simp)).bind <|
    (h.field (inverts_string r.new) (by simp)).bind <| .pure _

theorem Statement.inverts_decoder : decoder.Inverts toJson
  | createTable c =>
    reads_tagged rfl (by simp [CreateTable.jsonFields]) fun _ h ↦
      (CreateTable.yields_reader h).map createTable
  | alterTable a => by
    refine reads_tagged rfl (by simp) fun _ h ↦ ?_
    exact (h.field (inverts_string a.table) (by simp)).bind <|
      (h.field (AlterAction.inverts_decoder.list a.actions) (by simp)).bind <| .pure _
  | createIndex c =>
    reads_tagged rfl (by simp [CreateIndex.jsonFields, KeyPart.jsonField]) fun _ h ↦
      (CreateIndex.yields_reader h).map createIndex
  | dropIndex name table =>
    reads_tagged rfl (by simp) fun _ h ↦
      ((h.field (inverts_string name) (by simp)).map dropIndex).seq
        (h.optionalD inverts_string (fun _ ↦ rfl) (by simp))
  | renameTable renames =>
    reads_tagged rfl (by simp) fun _ h ↦
      (h.field (TableRename.inverts_decoder.list renames) (by simp)).map renameTable
  | dropTable tables ifExists =>
    reads_tagged rfl (by simp) fun _ h ↦
      ((h.field (inverts_string.list tables) (by simp [ofStrings])).map dropTable).seq
        (h.fieldD (inverts_bool ifExists) false (by simp))

namespace Statement

/-- A statement is read from what it is written as, in whatever order the fields stand there. So a
value that reads as a statement, with more or fewer fields or other spellings than are written, is
written as a value that reads as the same statement. -/
theorem read_toJson :
    (∀ s : Statement, decoder.read s.toJson = some s) ∧
      (∀ (s : Statement) (j : Json), s.toJson.Rearranged j → decoder.read j = some s) ∧
      ∀ (j : Json) (s : Statement), decoder.read j = some s → decoder.read s.toJson = some s := by
  have hback (s : Statement) (j : Json) (hj : s.toJson.Rearranged j) : decoder.read j = some s :=
    inverts_decoder s .outer j hj
  refine ⟨fun s ↦ hback s _ (.refl _), hback, fun j s _ ↦ ?_⟩
  exact hback s _ (.refl _)

/-- A change of a table as it may come in: its own kind is not the first field, fields are missing
or unknown, and the constants `max`, `uuid` and `desc` are spelled as fields. -/
def loose : Json :=
  .object [("table", .string "rooms"), ("note", .array [.null]),
    ("statement", .string "alter_table"), ("actions", .array [
      .object [("name", .string "code"), ("action", .string "add_column"),
        ("data_type", .object [("name", .string "varchar"), ("length", .object [("max", .null)])]),
        ("default", .object [("value", .null), ("type", .string "null")]),
        ("generation", .object [("uuid", .null)])],
      .object [("action", .string "add_index"), ("name", .null),
        ("columns",
          .array [.object [("name", .string "code"), ("order", .object [("desc", .null)])]])]])]

/-- What `loose` says. -/
def strict : Statement :=
  .alterTable { table := "rooms", actions := [
    .addColumn { name := "code", dataType := ⟨"varchar", some .max, false⟩,
                 defaultExpr := some .null, generation := some .uuid },
    .addIndex { columns := [⟨"code", .desc⟩] }] }

theorem loose_read :
    decoder.read loose = some strict ∧ decoder.read strict.toJson = some strict := by
  have hread : decoder.read loose = some strict := by decide +kernel
  exact ⟨hread, read_toJson.2.2 loose strict hread⟩

end Statement

end SchemaLedger
