import Mathlib
import SchemaLedger.Proofs.Lowering.Draft

/-!
# Table declarations that are lowered

Lowering a declaration gives statements and facts that describe exactly the table that the
declaration asks for.
-/

namespace SchemaLedger

open Identifier

/-- A batch of one statement is lowered as that statement is. -/
theorem Statement.lowerAll_singleton (x : Statement) : lowerAll [x] = x.lower := by
  rw [lowerAll, List.mapM_cons, List.mapM_nil]
  cases x.lower with
  | error e => rfl
  | ok l =>
    change Except.ok (Lowered.join [l]) = _
    rw [Lowered.join, List.flatMap_singleton, List.flatMap_singleton]

namespace CreateTable

/-- What is known of a declaration that has been lowered, with the table that it asks for. -/
structure Meant (c : CreateTable) (l : Lowered) (t : Table) (columns : List LoweredColumn)
    (key : List KeyPart) : Prop where
  meaning : c.meaning? = some t
  source : columns.map (·.source) = c.columnDefs
  meant : ∀ x ∈ columns, x.Meant
  keyNames : key.map (·.name) = c.keyNames
  declaresKey : ∀ n ∈ c.keyNames, n ∈ c.columnDefs.map (·.name)
  indexes : ∀ i ∈ c.declaredIndices, i.columns ≠ []
  declaresIndexed : ∀ i ∈ c.declaredIndices, ∀ n ∈ i.referenced, n ∈ c.columnDefs.map (·.name)
  ddl : l.ddl = .createTable c.table c.ifNotExists (columns.map (·.clause)) key
    (TableOption.interleaves c.options) :: c.declaredIndices.map .createIndex
  delta : l.delta = (columns.flatMap (LoweredColumn.facts c.table)).map .upsert

theorem exists_of_lower {c : CreateTable} {l : Lowered} (h : c.lower = .ok l) :
    ∃ t columns key, c.Meant l t columns key := by
  rw [lower] at h
  obtain ⟨d, hdraft, h⟩ := bind_eq_ok h
  obtain ⟨key, hkey, h⟩ := bind_eq_ok h
  obtain ⟨indices, hindices, h⟩ := bind_eq_ok h
  obtain rfl := Except.ok.inj h
  have hd := draft_eq_ok_iff.1 hdraft
  have hdeclared : d.declared = c.columnDefs.map (·.name) := hd.declared_eq
  have hmeants : ∀ x ∈ d.columns, x.Meant := by
    intro x hx
    obtain ⟨_, -, hlowered⟩ := exists_of_mem_mapM hd.columns hx
    exact (ColumnDef.of_lower hlowered).2
  obtain ⟨hkeyNames, hkeyDeclared⟩ := TableDraft.of_key hkey
  have hkeyNames : key.map (·.name) = c.keyNames := by
    rw [hkeyNames, hd.inlineKey_eq, hd.keyClause]
    rfl
  -- The indices of unique columns come first, those that are declared as indices behind them.
  rw [TableDraft.lowerIndices] at hindices
  obtain ⟨uniques, huniques, hindices⟩ := bind_eq_ok hindices
  obtain ⟨others, hothers, hindices⟩ := bind_eq_ok hindices
  have hsplit : uniques ++ others = indices := Except.ok.inj hindices
  have hindices : c.declaredIndices = indices := by
    rw [← hsplit, eq_map_of_mapM huniques fun n _ i hi ↦ (IndexDef.of_lower hi).1,
      eq_map_of_mapM hothers fun i _ j hj ↦ (IndexDef.of_lower hj).1, hd.uniqueColumns_eq,
      hd.indices, List.map_map]
    rfl
  have hlowered : ∀ i ∈ indices, i.columns ≠ [] ∧ ∀ n ∈ i.referenced, n ∈ d.declared := by
    intro i hi
    rw [← hsplit] at hi
    rcases List.mem_append.1 hi with hi | hi
    · obtain ⟨n, -, hn⟩ := exists_of_mem_mapM huniques hi
      obtain ⟨-, hne, hreferenced⟩ := IndexDef.of_lower hn
      exact ⟨hne, hreferenced _ rfl⟩
    · obtain ⟨j, -, hj⟩ := exists_of_mem_mapM hothers hi
      obtain ⟨-, hne, hreferenced⟩ := IndexDef.of_lower hj
      exact ⟨hne, hreferenced _ rfl⟩
  have hmeaning : c.columnDefs.mapM ColumnDef.meaning? = some (d.columns.map (·.column)) := by
    rw [columnDefs_eq, ← hd.sources]
    exact mapM_some fun x hx ↦ (hmeants x hx).meaning
  refine ⟨_, d.columns, key,
    ⟨by rw [meaning?, hmeaning]; rfl, hd.sources, hmeants, hkeyNames, ?_, ?_,
    ?_, ?_, rfl⟩⟩
  · rw [← hkeyNames, ← hdeclared]
    exact hkeyDeclared
  · rw [hindices]
    exact fun i hi ↦ (hlowered i hi).1
  · rw [hindices, ← hdeclared]
    exact fun i hi ↦ (hlowered i hi).2
  · rw [hindices]

/-- The facts that are declared of the columns. -/
def declaredFacts (c : CreateTable) : List Fact :=
  c.columnDefs.flatMap fun d ↦ Fact.ofColumn c.table d.name d.resolveGeneration d.resolveDefault

/-- The names of the table, its columns, its indices and its parents, and those by which it refers
to them. -/
def names (c : CreateTable) : List String :=
  c.table :: (c.columnDefs.map (·.name) ++ c.keyClauses.flatMap (·.map (·.name)) ++
    c.indexDefs.flatMap (fun (_, i) ↦ i.name.toList ++ i.columns.map (·.name) ++ i.storing) ++
    (TableOption.interleaves c.options).map (·.parent))

/-- Can be written as text without losing anything. -/
structure Faithful (c : CreateTable) : Prop where
  writable : ∀ n ∈ c.names, Writable n
  distinct : (c.columnDefs.map (·.name)).Nodup
  sized : ∀ d ∈ c.columnDefs, ∀ m, d.meaning? = some m → m.type.isSized = true →
    d.dataType.length ≠ some (.size 0)
  parents : (TableOption.interleaves c.options).length ≤ 1
  numbers : ∀ d ∈ c.columnDefs, ∀ text, d.defaultExpr = some (.number text) → IsNumeric text

variable {c : CreateTable} {l : Lowered} {t : Table} {columns : List LoweredColumn}
  {key : List KeyPart}

theorem Meant.sql_eq (h : c.Meant l t columns key) :
    l.sql = (Ddl.createTable c.table c.ifNotExists (columns.map (·.clause)) key
      (TableOption.interleaves c.options)).text :: c.declaredIndices.map Index.sql := by
  rw [Lowered.sql, h.ddl, List.map_cons, List.map_map]
  rfl

theorem Meant.delta_eq (h : c.Meant l t columns key) : l.delta = c.declaredFacts.map .upsert := by
  rw [h.delta, declaredFacts, ← h.source, List.flatMap_map]
  refine congrArg _ (List.flatMap_congr fun x hx ↦ ?_)
  rw [LoweredColumn.facts, (h.meant x hx).resolveDefault_eq]

theorem Meant.table_eq (h : c.Meant l t columns key) :
    t = { name := c.table
          columns := columns.map fun x ↦
            { x.column with
              isPrimary := c.keyNames.contains x.source.name
              isUnique := c.declaredIndices.any (·.covers x.source.name) }
          primaryKey := c.keyNames
          indices := c.declaredIndices
          foreignKeys := ((TableOption.interleaves c.options).head?.map
            (Dump.parentKey c.table)).toList
          uniques := (c.declaredIndices.filter (·.unique)).map Index.constraint
          interleave := (TableOption.interleaves c.options).head? } := by
  have hmeaning : c.columnDefs.mapM ColumnDef.meaning? = some (columns.map (·.column)) := by
    rw [← h.source]
    exact mapM_some fun x hx ↦ (h.meant x hx).meaning
  have ht := h.meaning
  rw [meaning?, hmeaning, Option.map_some, Option.some_inj, List.map_map] at ht
  exact ht.symm

theorem Meant.columnNames_eq (h : c.Meant l t columns key) :
    t.columnNames = c.columnDefs.map (·.name) := by
  rw [h.table_eq, Table.columnNames, List.map_map, ← h.source, List.map_map]
  rfl

end CreateTable

theorem ColumnType.normalLength_normalLength (t : ColumnType) (length : Option ColumnLength) :
    t.normalLength (t.normalLength length) = t.normalLength length := by
  rw [← normalLength_effectiveLength, effectiveLength_normalLength, normalLength_effectiveLength]

/-- No name of a type implies the length zero. -/
theorem DataType.implied_ne_zero {names : List String} {t : ColumnType}
    {implied : Option ColumnLength} (h : (names, t, implied) ∈ families) :
    implied ≠ some (.size 0) := by
  have hall : ∀ f ∈ families, f.2.2 ≠ some (.size 0) := by decide
  exact hall _ h

theorem ColumnDef.hasLength_of_meaning? {d : ColumnDef} {m : Column} (h : d.meaning? = some m)
    (hsized : m.type.isSized = true → d.dataType.length ≠ some (.size 0)) :
    Dump.HasLength m.type m.length := by
  obtain ⟨⟨type, length⟩, hresolve, rfl⟩ := Option.map_eq_some_iff.1 h
  obtain ⟨⟨names, u, implied⟩, hfind, he⟩ := Option.map_eq_some_iff.1 hresolve
  obtain ⟨rfl, rfl⟩ := Prod.mk.inj he
  have himplied := DataType.implied_ne_zero (List.mem_of_find?_eq_some hfind)
  intro hzero
  dsimp only at hzero hsized
  -- Where a length of zero would stand, it is the one that is given, or that the type implies.
  -- Neither is zero.
  rw [ColumnType.effectiveLength_normalLength, ColumnType.effectiveLength_effectiveLength,
    ColumnType.effectiveLength] at hzero
  split at hzero
  · rename_i hs
    have hlength := hsized hs
    cases hl : d.dataType.length with
    | some l =>
      rw [hl] at hzero hlength
      exact hlength hzero
    | none =>
      rw [hl, Option.none_or] at hzero
      cases hi : implied with
      | some l =>
        rw [hi] at hzero himplied
        exact himplied hzero
      | none =>
        rw [hi, Option.none_or] at hzero
        cases u <;> contradiction
  · contradiction

/-- A default that a lowered column ends up with is read back from its fact. -/
theorem LoweredColumn.Meant.normal {x : LoweredColumn} (h : x.Meant)
    (hnumbers : ∀ text, x.source.defaultExpr = some (.number text) → IsNumeric text) :
    ∀ d ∈ x.defaultValue, d.Normal := by
  have hresolve : x.source.resolveDefault = x.defaultValue := by
    obtain ⟨⟨type, length⟩, -, hm⟩ := Option.map_eq_some_iff.1 h.meaning
    exact congrArg Column.defaultValue hm
  intro d hd
  rw [← hresolve, ColumnDef.resolveDefault] at hd
  cases hupdate : x.source.onUpdate.bind DefaultExpr.value? with
  | some v =>
    rw [hupdate, Option.some_or, Option.mem_def, Option.some_inj] at hd
    rw [← hd, h.onUpdate v hupdate]
    exact ColumnDefault.normal_commitTimestamp
  | none =>
    rw [hupdate, Option.none_or, Option.mem_def, Option.bind_eq_some_iff] at hd
    obtain ⟨e, he, hv⟩ := hd
    exact DefaultExpr.normal_of_value? (fun text ht ↦ hnumbers text (ht ▸ he)) hv

namespace CreateTable

variable {c : CreateTable} {l : Lowered} {t : Table} {columns : List LoweredColumn}
  {key : List KeyPart}

/-- A name of an index that is given or derived can be read back. -/
theorem legible_declaredIndices (h : ∀ n ∈ c.names, Writable n) :
    ∀ i ∈ c.declaredIndices, Legible i.name := by
  have htable : Writable c.table := h c.table List.mem_cons_self
  -- A derived name is made of names without backticks, and has some characters of its own.
  have hderived (ns : List String) (hns : ∀ n ∈ ns, Writable n) (unique : Bool) :
      Legible (indexName c.table ns unique) :=
    ⟨indexName_ne_empty _ _ _, notMem_indexName (by decide) (by decide) htable.noBacktick
      (fun n hn ↦ (hns n hn).noBacktick) unique⟩
  have hcolumn : ∀ d ∈ c.columnDefs, Writable d.name := fun d hd ↦
    h d.name (List.mem_cons_of_mem _ (List.mem_append_left _ (List.mem_append_left _
      (List.mem_append_left _ (List.mem_map_of_mem hd)))))
  have hindex : ∀ p ∈ c.indexDefs, ∀ n ∈ p.2.name.toList ++ p.2.columns.map (·.name)
      ++ p.2.storing, Writable n := fun p hp n hn ↦
    h n (List.mem_cons_of_mem _ (List.mem_append_left _ (List.mem_append_right _
      (List.mem_flatMap.2 ⟨p, hp, hn⟩))))
  intro i hi
  rcases List.mem_append.1 hi with hi | hi
  · obtain ⟨d, hd, rfl⟩ := List.mem_map.1 hi
    exact hderived [d.name] (by simpa using hcolumn d (List.mem_filter.1 hd).1) true
  · obtain ⟨⟨kind, i⟩, hp, rfl⟩ := List.mem_map.1 hi
    have hnames := hindex _ hp
    dsimp only at hnames ⊢
    cases hn : i.name with
    | some n =>
      refine (hnames n ?_).listable.toLegible
      simp [hn]
    | none =>
      refine hderived _ (fun n hn ↦ hnames n ?_) _
      exact List.mem_append_left _ (List.mem_append_right _ hn)

theorem Meant.storable (h : c.Meant l t columns key) (hf : c.Faithful) : t.Storable := by
  have hcolumn : ∀ n ∈ t.columnNames, Writable n := by
    rw [h.columnNames_eq]
    exact fun n hn ↦ hf.writable n (List.mem_cons_of_mem _ (List.mem_append_left _
      (List.mem_append_left _ (List.mem_append_left _ hn))))
  have hdeclaresIndexed : ∀ i ∈ c.declaredIndices, ∀ n ∈ i.referenced, n ∈ t.columnNames := by
    rw [h.columnNames_eq]
    exact h.declaresIndexed
  have hdeclaresKey : ∀ n ∈ c.keyNames, n ∈ t.columnNames := by
    rw [h.columnNames_eq]
    exact h.declaresKey
  have htable : Legible c.table := (hf.writable _ List.mem_cons_self).listable.toLegible
  have hnamed : ∀ i ∈ c.declaredIndices, i.table = c.table ∧ i.interleaveIn = none := by
    intro i hi
    rcases List.mem_append.1 hi with hi | hi <;> obtain ⟨x, -, rfl⟩ := List.mem_map.1 hi <;>
      exact ⟨rfl, rfl⟩
  have hsource : ∀ x ∈ columns, x.source ∈ c.columnDefs := fun x hx ↦
    h.source ▸ List.mem_map_of_mem hx
  -- All that is left to show is about the table that the declaration is known to mean.
  rw [h.table_eq] at hcolumn hdeclaresIndexed hdeclaresKey ⊢
  constructor
  case legible => exact htable
  case closed => exact fun n hn ↦ (hcolumn n hn).listable.toClosed
  case distinct =>
    have := h.columnNames_eq ▸ hf.distinct
    rwa [h.table_eq] at this
  case normal =>
    intro d hd
    obtain ⟨x, -, rfl⟩ := List.mem_map.1 hd
    exact ColumnType.normalLength_normalLength _ _
  case lengths =>
    intro d hd
    obtain ⟨x, hx, rfl⟩ := List.mem_map.1 hd
    have hmeaning := (h.meant x hx).meaning
    exact ColumnDef.hasLength_of_meaning? (m := x.column) hmeaning
      (hf.sized _ (hsource x hx) x.column hmeaning)
  case listable => exact fun n hn ↦ (hcolumn n (hdeclaresKey n hn)).listable
  case declaresKey => exact hdeclaresKey
  case readable =>
    intro i hi
    constructor
    case name => exact legible_declaredIndices hf.writable i hi
    case table => rw [(hnamed i hi).1]; exact htable
    case columns_ne_nil => exact h.indexes i hi
    case referenced => exact fun n hn ↦ (hcolumn n (hdeclaresIndexed i hi n hn)).listable
    case interleaveIn => simp [(hnamed i hi).2]
  case named => exact fun i hi ↦ (hnamed i hi).1
  case declaresIndexed => exact hdeclaresIndexed
  case parents =>
    intro i hi
    refine (hf.writable i.parent
      (List.mem_cons_of_mem _ (List.mem_append_right _ ?_))).listable.toLegible
    exact List.mem_map_of_mem (List.mem_of_mem_head? hi)
  case isPrimary =>
    intro d hd
    obtain ⟨x, -, rfl⟩ := List.mem_map.1 hd
    rfl
  case isUnique =>
    intro d hd
    obtain ⟨x, -, rfl⟩ := List.mem_map.1 hd
    rfl
  case uniques => rfl

/-- A declaration that is lowered is written as statements and facts that describe the table that it
asks for, and nothing else. -/
theorem parse_lower (h : c.lower = .ok l) (hf : c.Faithful) :
    ∃ t, c.meaning? = some t ∧ Dump.parse l.sql = .ok ((∅ : Schema).insert c.table t.shown) ∧
      ((∅ : Ledger).applyAll l.delta).decorate t.shown false = .ok t := by
  obtain ⟨t, columns, key, hm⟩ := exists_of_lower h
  have hstorable := hm.storable hf
  have hnormal : ∀ x ∈ columns, ∀ d ∈ x.defaultValue, d.Normal := fun x hx ↦
    (hm.meant x hx).normal (hf.numbers _ (hm.source ▸ List.mem_map_of_mem hx))
  -- A clause says no more of a default than whether it is the commit timestamp; the facts say the
  -- rest.
  have hstated : ∀ x ∈ columns, x.column.stated = x.defaultValue := fun x hx ↦
    Column.stated_eq (hnormal x hx)
  have hclauses : columns.map (·.clause) = t.columns.map Column.toClause := by
    rw [hm.table_eq, List.map_map]
    refine List.map_congr_left fun x hx ↦ ?_
    rw [(hm.meant x hx).clause, ← hstated x hx]
    rfl
  have hparents : TableOption.interleaves c.options = t.interleave.toList := by
    have hlength := hf.parents
    rw [hm.table_eq]
    cases hi : TableOption.interleaves c.options with
    | nil => rfl
    | cons i is =>
      rw [hi, List.length_cons] at hlength
      rw [List.length_eq_zero_iff.1 (Nat.le_zero.1 (Nat.le_of_succ_le_succ hlength))]
      rfl
  have hname : t.name = c.table := by rw [hm.table_eq]
  have hindices : t.indices = c.declaredIndices := by rw [hm.table_eq]
  have hkey : key.map (·.name) = t.primaryKey := by rw [hm.keyNames, hm.table_eq]
  have hsql : l.sql = (Ddl.createTable t.name c.ifNotExists (t.columns.map Column.toClause) key
      t.interleave.toList).text :: t.indices.map Index.sql := by
    rw [Lowered.sql, hm.ddl, List.map_cons, List.map_map, hclauses, hparents, hname, hindices]
    rfl
  have hfacts : columns.flatMap (LoweredColumn.facts c.table) = t.facts := by
    rw [Table.facts, hm.table_eq, List.flatMap_map]
    refine List.flatMap_congr fun x hx ↦ ?_
    rw [LoweredColumn.facts, ← hstated x hx]
    rfl
  refine ⟨t, hm.meaning, ?_, ?_⟩
  · rw [hsql, hstorable.parse_createTable hkey, hname]
  · rw [hm.delta, Ledger.applyAll_upserts, hfacts]
    refine hstorable.decorate_shown ?_ ?_
    · rw [hm.table_eq]
      intro d hd
      obtain ⟨x, hx, rfl⟩ := List.mem_map.1 hd
      exact hnormal x hx
    · rw [hm.table_eq]

/-- A declaration with an inline key and a clause that repeats it, an implied length, an array, a
unique column, a descending index with a given name and one without, and defaults of all kinds. -/
def invoices : CreateTable where
  table := "order"
  definitions :=
    [.column { name := "id", dataType := ⟨"uuid", none, false⟩, primaryKey := true },
      .primaryKey [⟨"id", .desc⟩],
      .column { name := "no", dataType := ⟨"int", none, false⟩, unique := true,
                autoIncrement := true },
      .index .plain { name := some "by no", columns := [⟨"no", .desc⟩], storing := ["sum"] },
      .column { name := "sum", dataType := ⟨"Decimal", none, false⟩, notNull := true,
                defaultExpr := some (.number "-0.5") },
      .column { name := "paid", dataType := ⟨"datetime", none, false⟩,
                defaultExpr := some (.literal "never"), onUpdate := some .currentTimestamp },
      .column { name := "tags", dataType := ⟨"varchar", some .max, true⟩,
                defaultExpr := some (.expression " f(1) ") },
      .index .unique { columns := [⟨"no", .asc⟩, ⟨"paid", .asc⟩] }]
  options := [.comment "paid or not", .interleave ⟨"people", false⟩]

theorem invoices_parse_lower :
    ∃ l, invoices.lower = .ok l ∧ ∃ t, invoices.meaning? = some t ∧
      Dump.parse l.sql = .ok ((∅ : Schema).insert invoices.table t.shown) ∧
      ((∅ : Ledger).applyAll l.delta).decorate t.shown false = .ok t := by
  have hlower : ∃ l, invoices.lower = .ok l := by
    have hok : (invoices.lower.toOption).isSome = true := by decide +kernel
    cases h : invoices.lower with
    | error e => rw [h] at hok; contradiction
    | ok l => exact ⟨l, rfl⟩
  obtain ⟨l, hl⟩ := hlower
  refine ⟨l, hl, parse_lower hl ?_⟩
  constructor
  case writable => decide
  case distinct => decide
  case sized =>
    have hlengths : ∀ d ∈ invoices.columnDefs, d.dataType.length ≠ some (.size 0) := by decide
    exact fun d hd _ _ _ ↦ hlengths d hd
  case parents => decide
  case numbers =>
    have hnumbers : ∀ d ∈ invoices.columnDefs, ∀ e ∈ d.defaultExpr,
        e = .number "-0.5" ∨ e = .literal "never" ∨ e = .expression " f(1) " := by decide
    intro d hd text ht
    rcases hnumbers d hd _ ht with h | h | h
    · obtain rfl := DefaultExpr.number.inj h
      exact ⟨by decide, by decide⟩
    · contradiction
    · contradiction

end CreateTable

end SchemaLedger
