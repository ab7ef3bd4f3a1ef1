import Mathlib
import SchemaLedger.Proofs.Lowering.Alteration
import SchemaLedger.Proofs.Lowering.Expressible

/-!
# Columns that are counted up

A table has room for one column that is counted up. The definitions of a new table are gone through
with that in mind, and the second such column is refused under both names. The changes of a table
are looked at one by one, so there nothing is counted: changes that can be expressed are accepted,
whatever number of columns they count up.
-/

namespace SchemaLedger

/-! ## New tables -/

/-- The column that is declared, if it is counted up. -/
def Definition.counted? (x : Definition) : Option ColumnDef := x.column?.filter (·.autoIncrement)

theorem filter_autoIncrement_eq (ds : List Definition) :
    (ds.filterMap Definition.column?).filter (·.autoIncrement) = ds.filterMap Definition.counted? :=
  List.filter_filterMap

theorem Definition.counted?_eq_some_iff {x : Definition} {d : ColumnDef} :
    x.counted? = some d ↔ x = .column d ∧ d.autoIncrement = true := by
  rw [counted?, Option.filter_eq_some_iff]
  cases x <;> simp [column?]

namespace TableDraft

variable {table : String} {before : List Definition} {d : TableDraft} {first second : ColumnDef}

/-- Behind a column that is counted up there is no other. -/
theorem Gathers.add_counted (h : Gathers table before d)
    (hfirst : before.filterMap Definition.counted? = [first])
    (hsecond : second.autoIncrement = true) :
    d.add table (.column second)
      = .error
        (.unsupported (.secondAutoIncrement first.name second.name)
          (some ⟨table, none, none⟩)) := by
  have hfind : (d.columns.find? (·.source.autoIncrement)).map (·.source) = some first := by
    have hhead := congrArg List.head? hfirst
    rw [← filter_autoIncrement_eq, ← h.sources, List.head?_filter, List.find?_map] at hhead
    exact hhead
  obtain ⟨x, hx, rfl⟩ := Option.map_eq_some_iff.1 hfind
  rw [add, hsecond, if_pos rfl, hx]

end TableDraft

namespace CreateTable

variable {c : CreateTable}

/-- The second column that is counted up, with what stands before and after it. -/
theorem exists_second_counted (h : 2 ≤ (c.columnDefs.filter (·.autoIncrement)).length) :
    ∃ before first second after, c.definitions = before ++ .column second :: after ∧
      before.filterMap Definition.counted? = [first] ∧ second.autoIncrement = true := by
  rw [columnDefs_eq, filter_autoIncrement_eq] at h
  -- The first two of them cut the body at two places, and nothing between these is counted up.
  match hcounted : c.definitions.filterMap Definition.counted?, h with
  | first :: second :: others, _ =>
    obtain ⟨xs, x, ys, hdefinitions, hxs, hx, hys⟩ := List.filterMap_eq_cons_iff.1 hcounted
    obtain ⟨zs, z, after, rfl, hzs, hz, -⟩ := List.filterMap_eq_cons_iff.1 hys
    obtain ⟨rfl, hauto⟩ := Definition.counted?_eq_some_iff.1 hz
    refine ⟨xs ++ x :: zs, first, second,
      after, by rw [hdefinitions, List.append_assoc, List.cons_append], ?_, hauto⟩
    rw [List.filterMap_append, List.filterMap_eq_nil_iff.2 hxs, List.nil_append,
      List.filterMap_cons, hx, List.filterMap_eq_nil_iff.2 hzs]

/-- A declaration is refused over the two columns, unless it is refused before the second. -/
theorem lower_eq_secondAutoIncrement {before after : List Definition} {first second : ColumnDef}
    (hdefinitions : c.definitions = before ++ .column second :: after)
    (hfirst : before.filterMap Definition.counted? = [first])
    (hsecond : second.autoIncrement = true)
    {d : TableDraft} (hbefore : { c with definitions := before }.draft = .ok d) :
    c.lower =
      .error (.unsupported (.secondAutoIncrement first.name second.name)
        (some ⟨c.table, none, none⟩)) := by
  have hadd := (draft_eq_ok_iff.1 hbefore).add_counted hfirst hsecond
  have hfold : before.foldlM (TableDraft.add c.table) {} = .ok d := hbefore
  rw [lower, draft, hdefinitions, List.foldlM_append, hfold, ok_bind, List.foldlM_cons, hadd]
  rfl

/-- Two columns that are counted up keep the definitions from being gathered. -/
theorem unsupported_of_two_counted (h : 2 ≤ (c.columnDefs.filter (·.autoIncrement)).length) :
    ∃ what place, c.lower = .error (.unsupported what place) := by
  cases hdraft : c.draft with
  | ok d =>
    -- A body that is gathered has at most one of them, wherever they stand.
    have hone := (draft_eq_ok_iff.1 hdraft).autoIncrement
    rw [← columnDefs_eq] at hone
    omega
  | error e =>
    obtain ⟨d, x, -, hx⟩ := exists_of_foldlM_error hdraft
    have hobjection : Objection c.table [] [] e := TableDraft.objection_of_add hx
    obtain ⟨what, place, rfl⟩ := hobjection.exists_unsupported
    refine ⟨what, place, ?_⟩
    rw [lower, hdraft]
    rfl

end CreateTable

/-! ## Statements -/

namespace Statement

/-- The columns that a statement creates, adds or changes, and that are counted up. -/
def counted (s : Statement) : List ColumnDef :=
  (s.newColumns ++ s.changedColumns).filter (·.autoIncrement)

/-- A statement with two columns that are counted up is refused as unsupported and leaves the delta
at hand, unless it changes a table and all changes can be expressed. Over the two columns it is
refused if it creates a table and nothing before the second of them stands in the way. -/
theorem refused_of_two_counted {s : Statement} (h : 2 ≤ s.counted.length) (delta : Delta) :
    ((∀ a, s = .alterTable a → ∃ x ∈ a.actions, ¬x.Expressible) →
      ∃ what place, s.lowerInto delta = .error (.unsupported what place) delta) ∧
    (∀ a, s = .alterTable a → (∀ x ∈ a.actions, x.Expressible) →
      ∃ sql delta', s.lowerInto delta = .ok sql delta') ∧
    ∀ c, s = .createTable c →
      ∃ before first second after, c.definitions = before ++ .column second :: after ∧
      before.filterMap Definition.counted? = [first] ∧ second.autoIncrement = true ∧
      ∀ d, { c with definitions := before }.draft = .ok d → s.lowerInto delta
        = .error
          (.unsupported (.secondAutoIncrement first.name second.name) (some ⟨c.table, none, none⟩))
            delta := by
  rw [counted] at h
  refine ⟨fun hrefused ↦ ?_, ?_, ?_⟩
  · cases s with
    | createTable c =>
      rw [newColumns, changedColumns, List.append_nil] at h
      obtain ⟨what, place, hlower⟩ := CreateTable.unsupported_of_two_counted h
      exact ⟨what, place, by rw [lowerInto_eq, lower, hlower]⟩
    | alterTable a =>
      obtain ⟨x, hx, hnot⟩ := hrefused a rfl
      cases hlower : a.lower with
      | ok l => exact absurd (AlterTable.exists_lower_iff.1 ⟨l, hlower⟩ x hx) hnot
      | error e =>
        obtain ⟨what, place, rfl⟩ := AlterTable.unsupported_of_lower hlower
        exact ⟨what, place, by rw [lowerInto_eq, lower, hlower]⟩
    | createIndex c | dropIndex name table | renameTable renames | dropTable tables ifExists =>
      contradiction
  · rintro a rfl hexpressible
    obtain ⟨l, hlower⟩ := AlterTable.exists_lower_iff.2 hexpressible
    exact ⟨l.sql, delta ++ l.delta, by rw [lowerInto_eq, lower, hlower]⟩
  · rintro c rfl
    rw [newColumns, changedColumns, List.append_nil] at h
    obtain ⟨before, first, second, after, hdefinitions, hfirst, hsecond⟩ :=
      CreateTable.exists_second_counted h
    refine ⟨before, first, second, after, hdefinitions, hfirst, hsecond, fun d hd ↦ ?_⟩
    rw [lowerInto_eq, lower,
      CreateTable.lower_eq_secondAutoIncrement hdefinitions hfirst hsecond hd]

/-- A table with two columns that are counted up, a key before them and other things between
them. -/
def meters : Statement :=
  .createTable
    { table := "meter"
      definitions :=
        [.primaryKey [⟨"no", .asc⟩],
          .column { name := "no", dataType := ⟨"int", none, false⟩, autoIncrement := true },
          .index .unique { columns := [⟨"place", .asc⟩] },
          .column { name := "place", dataType := ⟨"varchar", some (.size 80), false⟩ },
          .column { name := "serial", dataType := ⟨"bigint", none, false⟩, autoIncrement := true },
          .check ⟨none, "serial > no"⟩] }

theorem refused_meters :
    2 ≤ meters.counted.length ∧
      ∃ what place, meters.lowerInto [.removeTable "gauge"] =
        .error (.unsupported what place) [.removeTable "gauge"] := by
  have hcounted : 2 ≤ meters.counted.length := by decide
  exact ⟨hcounted, (refused_of_two_counted hcounted [.removeTable "gauge"]).1 nofun⟩

/-- Two columns that are added and counted up. -/
def metering : Statement :=
  .alterTable
    { table := "t"
      actions :=
        [.addColumn { name := "a", dataType := ⟨"int", none, false⟩, autoIncrement := true },
          .addColumn { name := "b", dataType := ⟨"int", none, false⟩, autoIncrement := true }] }

/-- The changes are accepted, and both columns are counted up afterwards. -/
theorem metering_accepted :
    2 ≤ metering.counted.length ∧
      metering.lowerInto [] =
        .ok ["ALTER TABLE t ADD COLUMN a int64", "ALTER TABLE t ADD COLUMN b int64"]
          [.upsert ⟨"t", "a", .strategy, "increment"⟩,
           .upsert ⟨"t", "b", .strategy, "increment"⟩] :=
  ⟨by decide, lowerInto_of_lower (by decide +kernel) []⟩

end Statement

end SchemaLedger
