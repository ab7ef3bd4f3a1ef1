import Mathlib
import SchemaLedger.Proofs.Lowering.Meaning

/-!
# What is gathered from the body of a table

The body of a table is gone through once, and what is found wrong on the way depends on where things
stand. What is gathered does not: the draft is there exactly if it is what the definitions say
(`Gathers`), and no condition for that mentions where a clause stands between the columns. Once it
is there, the draft alone decides about the key and about the indices.
-/

namespace SchemaLedger

/-! ## Why a declaration is refused -/

/-- The reasons for which a declaration is refused: it asks for what the database does not have, or
one of the columns that it refers to is not declared. -/
inductive Objection (table : String) (referenced declared : List String) : SchemaError → Prop
  | unsupported (what : Unsupported) (place : Option Place) :
    Objection table referenced declared (.unsupported what place)
  | dangling {n : String} (hreferenced : n ∈ referenced) (hundeclared : n ∉ declared)
    (context : String) : Objection table referenced declared (.dangling table (some n) context)

namespace Objection

variable {table : String} {referenced referenced' declared : List String} {e : SchemaError}

theorem mono (h : Objection table referenced declared e) (hsub : referenced ⊆ referenced') :
    Objection table referenced' declared e := by
  cases h with
  | unsupported what place => exact .unsupported what place
  | dangling hreferenced hundeclared context =>
    exact .dangling (hsub hreferenced) hundeclared context

theorem of_unsupported {α : Type} {what : Unsupported} {place : Option Place}
    (h : (Except.error (.unsupported what place) : Except SchemaError α) = .error e) :
    Objection table referenced declared e := by
  obtain rfl := Except.error.inj h
  exact .unsupported what place

end Objection

/-! ## Columns -/

/-- The type is known, what is set on update is the commit timestamp if anything, and the commit
timestamp stands in a column of timestamps. -/
@[mk_iff]
structure ColumnDef.Expressible (d : ColumnDef) : Prop where
  known : d.dataType.resolve? ≠ none
  onUpdate : ∀ v ∈ d.onUpdate.bind DefaultExpr.value?, v = .commitTimestamp
  timed : d.resolveDefault = some .commitTimestamp →
    d.dataType.resolve?.map Prod.fst = some .timestamp

instance : DecidablePred ColumnDef.Expressible :=
  fun d ↦ decidable_of_iff _ (ColumnDef.expressible_iff d).symm

theorem ColumnDef.exists_lower_iff (table : String) {d : ColumnDef} :
    (∃ x, d.lower table = .ok x) ↔ d.Expressible := by
  constructor
  · rintro ⟨x, hx⟩
    obtain ⟨rfl, hmeant⟩ := of_lower hx
    obtain ⟨⟨type, length⟩, hresolve, hcolumn⟩ := Option.map_eq_some_iff.1 hmeant.meaning
    have htype : type = x.clause.type := congrArg Column.type hcolumn
    refine ⟨by simp [hresolve], hmeant.onUpdate, fun htimestamp ↦ ?_⟩
    rw [hmeant.resolveDefault_eq] at htimestamp
    rw [hresolve, Option.map_some, htype, hmeant.timed htimestamp]
  · intro h
    rw [lower]
    cases hresolve : d.dataType.resolve? with
    | none => exact absurd hresolve h.known
    | some p =>
      obtain ⟨type, length⟩ := p
      dsimp only
      have hupdate : ¬(((d.onUpdate.bind DefaultExpr.value?).isSome &&
          d.onUpdate.bind DefaultExpr.value? != some .commitTimestamp) = true) := by
        intro hset
        rw [Bool.and_eq_true, bne_iff_ne] at hset
        obtain ⟨v, hv⟩ := Option.isSome_iff_exists.1 hset.1
        exact hset.2 (hv.trans (congrArg some (h.onUpdate v hv)))
      have htime : ¬((d.resolveDefault == some .commitTimestamp && type != .timestamp) = true) := by
        intro hset
        rw [Bool.and_eq_true, beq_iff_eq, bne_iff_ne] at hset
        have htype := h.timed hset.1
        rw [hresolve] at htype
        exact hset.2 (Option.some.inj htype)
      rw [if_neg hupdate, if_neg htime]
      exact ⟨_, rfl⟩

theorem ColumnDef.objection_of_lower {table : String} {referenced declared : List String}
    {d : ColumnDef}
    {e : SchemaError} (h : d.lower table = .error e) : Objection table referenced declared e := by
  unfold lower at h
  dsimp only at h
  split at h
  · exact .of_unsupported h
  · split at h
    · exact .of_unsupported h
    · split at h
      · exact .of_unsupported h
      · contradiction

/-! ## Indices -/

/-- The columns that an index refers to. -/
def IndexDef.referenced (i : IndexDef) : List String := i.columns.map (·.name) ++ i.storing

theorem IndexDef.exists_lower_iff (table : String) (kind : IndexKind) (parent : Option String)
    {names : List String} {i : IndexDef} :
    (∃ index, i.lower table kind parent (some names) = .ok index) ↔
      i.columns ≠ [] ∧ ∀ n ∈ i.referenced, n ∈ names := by
  constructor
  · rintro ⟨index, hindex⟩
    obtain ⟨rfl, hne, hreferenced⟩ := of_lower hindex
    exact ⟨hne, hreferenced names rfl⟩
  · rintro ⟨hne, hreferenced⟩
    have hfind (x : Index) (hx : x.referenced = i.referenced) :
        x.referenced.find? (!names.contains ·) = none :=
      List.find?_eq_none.2 fun n hn ↦ by simpa using hreferenced n (hx ▸ hn)
    unfold lower
    dsimp only
    rw [if_neg (by simpa using hne), Option.bind_some, hfind _ rfl]
    exact ⟨_, rfl⟩

theorem IndexDef.objection_of_lower {table : String} {kind : IndexKind} {parent : Option String}
    {declared : List String} {i : IndexDef} {e : SchemaError}
    (h : i.lower table kind parent (some declared) = .error e) :
    Objection table i.referenced declared e := by
  unfold lower at h
  dsimp only at h
  split at h
  · exact .of_unsupported h
  · split at h
    · rename_i n hn
      obtain rfl := Except.error.inj h
      rw [Option.bind_some] at hn
      exact .dangling (List.mem_of_find?_eq_some hn) (by simpa using List.find?_some hn) _
    · contradiction

/-! ## The draft -/

namespace Definition

/-- A foreign key or a check. -/
def isConstraint : Definition → Bool
  | foreignKey _ | check _ => true
  | column _ | primaryKey _ | index _ _ => false

/-- The column that is declared. -/
def column? : Definition → Option ColumnDef
  | column d => some d
  | _ => none

/-- The key that is declared. -/
def keyClause? : Definition → Option (List KeyPart)
  | primaryKey parts => some parts
  | _ => none

/-- The index that is declared. -/
def index? : Definition → Option (IndexKind × IndexDef)
  | index kind i => some (kind, i)
  | _ => none

end Definition

theorem CreateTable.columnDefs_eq (c : CreateTable) :
    c.columnDefs = c.definitions.filterMap Definition.column? :=
  rfl

theorem CreateTable.keyClauses_eq (c : CreateTable) :
    c.keyClauses = c.definitions.filterMap Definition.keyClause? :=
  rfl

theorem CreateTable.indexDefs_eq (c : CreateTable) :
    c.indexDefs = c.definitions.filterMap Definition.index? :=
  rfl

theorem filterMap_concat {α β : Type} (f : α → Option β) (xs : List α) (x : α) :
    (xs ++ [x]).filterMap f = xs.filterMap f ++ (f x).toList := by
  rw [List.filterMap_append]
  cases h : f x <;> simp [h]

namespace TableDraft

variable {table : String} {ds : List Definition} {d d' : TableDraft} {e : SchemaError}

/-- The draft is what the definitions say. -/
@[mk_iff]
structure Gathers (table : String) (ds : List Definition) (d : TableDraft) : Prop where
  columns : (ds.filterMap Definition.column?).mapM (ColumnDef.lower table) = .ok d.columns
  keyClause : d.keyClause = (ds.filterMap Definition.keyClause?).head?
  indices : d.indices = ds.filterMap Definition.index?
  autoIncrement : ((ds.filterMap Definition.column?).filter (·.autoIncrement)).length ≤ 1
  keyClauses : (ds.filterMap Definition.keyClause?).length ≤ 1
  unconstrained : ∀ x ∈ ds, x.isConstraint = false

theorem Gathers.sources (h : d.Gathers table ds) :
    d.columns.map (·.source) = ds.filterMap Definition.column? := by
  rw [map_eq_of_mapM (p := id) h.columns fun x _ y hy ↦ (ColumnDef.of_lower hy).1, List.map_id]

theorem Gathers.declared_eq (h : d.Gathers table ds) :
    d.declared = (ds.filterMap Definition.column?).map (·.name) := by
  rw [declared, ← h.sources, List.map_map]
  rfl

theorem Gathers.inlineKey_eq (h : d.Gathers table ds) :
    d.inlineKey = ((ds.filterMap Definition.column?).filter (·.primaryKey)).map (·.name) := by
  rw [inlineKey, ← h.sources, List.filter_map, List.map_map]
  rfl

theorem Gathers.uniqueColumns_eq (h : d.Gathers table ds) :
    d.uniqueColumns =
      ((ds.filterMap Definition.column?).filter fun c ↦ c.unique && !c.primaryKey).map
        (·.name) := by
  rw [uniqueColumns, ← h.sources, List.filter_map, List.map_map]
  rfl

/-- What all definitions say, those before the last one say of theirs. -/
theorem Gathers.exists_init {x : Definition} (h : Gathers table (ds ++ [x]) d) :
    ∃ d₀, Gathers table ds d₀ := by
  have hcolumns := h.columns
  rw [List.filterMap_append, List.mapM_append] at hcolumns
  obtain ⟨columns, hinit, -⟩ := bind_eq_ok hcolumns
  refine ⟨⟨columns, _, _⟩, hinit, rfl, rfl, ?_, ?_,
    fun y hy ↦ h.unconstrained y (List.mem_append_left _ hy)⟩
  · refine le_trans ?_ h.autoIncrement
    rw [List.filterMap_append, List.filter_append, List.length_append]
    exact Nat.le_add_right ..
  · refine le_trans ?_ h.keyClauses
    rw [List.filterMap_append, List.length_append]
    exact Nat.le_add_right ..

/-- A column is taken in if it can be lowered and no second one is counted up with it. -/
theorem add_column_eq_ok_iff {c : ColumnDef} :
    d.add table (.column c) = .ok d' ↔
      (c.autoIncrement = true → (d.columns.map (·.source)).filter (·.autoIncrement) = []) ∧
        ∃ x, c.lower table = .ok x ∧ d' = { d with columns := d.columns ++ [x] } := by
  have hfind :
      (if c.autoIncrement = true then d.columns.find? (·.source.autoIncrement) else none) = none ↔
        (c.autoIncrement = true → (d.columns.map (·.source)).filter (·.autoIncrement) = []) := by
    simp [List.filter_eq_nil_iff]
  rw [add]
  constructor
  · intro h
    split at h
    · contradiction
    · rename_i hnone
      obtain ⟨x, hx, h⟩ := bind_eq_ok h
      exact ⟨hfind.1 hnone, x, hx, (Except.ok.inj h).symm⟩
  · rintro ⟨hauto, x, hx, rfl⟩
    rw [hfind.2 hauto, hx]
    rfl

/-- One more definition is taken in exactly if the draft then is what the definitions up to it
say. -/
theorem Gathers.add_eq_ok_iff {x : Definition} (h : Gathers table ds d) :
    d.add table x = .ok d' ↔ Gathers table (ds ++ [x]) d' := by
  have hunconstrained : (∀ y ∈ ds ++ [x], y.isConstraint = false) ↔ x.isConstraint = false := by
    simpa [or_imp, forall_and] using fun _ ↦ h.unconstrained
  obtain ⟨columns', keyClause', indices'⟩ := d'
  rw [gathers_iff, hunconstrained, filterMap_concat, filterMap_concat, filterMap_concat]
  cases x with
  | column c =>
    have hcount :
        (c.autoIncrement = true → (ds.filterMap Definition.column?).filter (·.autoIncrement) = []) ↔
          ((ds.filterMap Definition.column? ++ [c]).filter (·.autoIncrement)).length ≤ 1 := by
      cases hauto : c.autoIncrement <;> simp [hauto, h.autoIncrement]
    dsimp only [Definition.column?, Definition.keyClause?, Definition.index?, Option.toList]
    rw [add_column_eq_ok_iff, h.sources, hcount, mapM_concat_eq_ok_iff, List.append_nil,
      List.append_nil]
    constructor
    · rintro ⟨hcount, x, hx, hd⟩
      obtain ⟨rfl, rfl, rfl⟩ := TableDraft.mk.inj hd
      exact ⟨⟨d.columns, x, h.columns, hx, rfl⟩, h.keyClause, h.indices, hcount, h.keyClauses, rfl⟩
    · rintro ⟨⟨columns, x, hcolumns, hx, rfl⟩, rfl, rfl, hcount, -, -⟩
      obtain rfl := Except.ok.inj (h.columns.symm.trans hcolumns)
      exact ⟨hcount, x, hx, by rw [h.keyClause, h.indices]⟩
  | primaryKey parts =>
    dsimp only [Definition.column?, Definition.keyClause?, Definition.index?, Option.toList]
    rw [List.append_nil, List.append_nil, h.columns, ← h.indices, add, h.keyClause]
    -- A clause is there already exactly if this one makes two.
    cases ds.filterMap Definition.keyClause? with
    | nil => simp [h.autoIncrement, Definition.isConstraint, eq_comm]
    | cons first others => simp
  | index kind i =>
    dsimp only [Definition.column?, Definition.keyClause?, Definition.index?, Option.toList]
    rw [List.append_nil, List.append_nil, h.columns, ← h.keyClause, ← h.indices, add]
    simp [h.keyClauses, h.autoIncrement, Definition.isConstraint, eq_comm]
  | foreignKey key => simp [add, Definition.isConstraint]
  | check c => simp [add, Definition.isConstraint]

theorem objection_of_add {referenced declared : List String} {x : Definition}
    (h : d.add table x = .error e) : Objection table referenced declared e := by
  cases x with
  | column c =>
    rw [add] at h
    split at h
    · exact .of_unsupported h
    · rcases bind_eq_error h with h | ⟨x, -, h⟩
      · exact ColumnDef.objection_of_lower h
      · contradiction
  | primaryKey parts =>
    rw [add] at h
    split at h
    · exact .of_unsupported h
    · contradiction
  | index kind i => contradiction
  | foreignKey key =>
    exact .of_unsupported h
  | check c =>
    exact .of_unsupported h

/-- The definitions are gathered exactly if the draft is what they say. -/
theorem foldlM_add_eq_ok_iff : ds.foldlM (add table) {} = .ok d ↔ Gathers table ds d := by
  induction ds using List.reverseRecOn generalizing d with
  | nil =>
    constructor
    · intro h
      obtain rfl := Except.ok.inj h
      exact ⟨rfl, rfl, rfl, Nat.zero_le _, Nat.zero_le _, fun x hx ↦ absurd hx List.not_mem_nil⟩
    · intro h
      obtain ⟨columns, keyClause, indices⟩ := d
      obtain rfl := Except.ok.inj h.columns
      obtain rfl := h.keyClause
      obtain rfl := h.indices
      rfl
  | append_singleton ds x ih =>
    -- The draft grows at the end, so the last definition is the step.
    rw [List.foldlM_append]
    constructor
    · intro h
      obtain ⟨d₁, hds, hx⟩ := bind_eq_ok h
      obtain ⟨d₂, hadd, hpure⟩ := bind_eq_ok hx
      obtain rfl := Except.ok.inj hpure
      exact (ih.1 hds).add_eq_ok_iff.1 hadd
    · intro h
      -- The fold over all definitions succeeds only if it does up to the last one, with a draft
      -- that is settled.
      obtain ⟨d₁, hgathers⟩ := h.exists_init
      rw [ih.2 hgathers, ok_bind, List.foldlM_cons, hgathers.add_eq_ok_iff.2 h]
      rfl

/-! ## The key and the indices -/

theorem inlineKey_subset (d : TableDraft) : d.inlineKey ⊆ d.declared :=
  List.map_subset _ (List.filter_subset_self _)

theorem uniqueColumns_subset (d : TableDraft) : d.uniqueColumns ⊆ d.declared :=
  List.map_subset _ (List.filter_subset_self _)

/-- The key as a column or the clause states it. -/
def statedKey (table : String) (d : TableDraft) : Except SchemaError (List KeyPart) :=
  match d.inlineKey, d.keyClause with
  | [], clause => .ok (clause.getD [])
  | [column], none => .ok [⟨column, .asc⟩]
  | [column], some clause =>
    if clause.map (·.name) = [column] then .ok clause
    else .error (.unsupported (.keyConflict column) (some ⟨table, none, none⟩))
  | columns, _ => .error (.unsupported (.inlineKeys columns) (some ⟨table, none, none⟩))

/-- The stated key, if it names declared columns. -/
def checkKey (table : String) (d : TableDraft) (parts : List KeyPart) :
    Except SchemaError (List KeyPart) :=
  match parts.find? (!d.declared.contains ·.name) with
  | some missing => .error (.dangling table (some missing.name) "primary key")
  | none => .ok parts

theorem key_eq : d.key table = d.statedKey table >>= d.checkKey table := by
  rw [key, statedKey]
  rcases d.inlineKey with _ | ⟨column, _ | ⟨second, others⟩⟩
  · rfl
  · cases d.keyClause with
    | none => rfl
    | some clause =>
      dsimp only
      split <;> rfl
  · rfl

variable (table) in
theorem exists_statedKey_iff :
    (∃ parts, d.statedKey table = .ok parts) ↔
      d.inlineKey.length ≤ 1 ∧
        ∀ n ∈ d.inlineKey, ∀ clause ∈ d.keyClause, clause.map (·.name) = [n] := by
  rw [statedKey]
  rcases d.inlineKey with _ | ⟨column, _ | ⟨second, others⟩⟩
  · simp
  · cases d.keyClause with
    | none => simp
    | some clause =>
      by_cases hagree : clause.map (·.name) = [column]
      · simp only [if_pos hagree]
        simpa using hagree
      · simp only [if_neg hagree]
        simpa using hagree
  · simp

/-- A column that declares itself to be the key is it, with or without a clause. -/
theorem names_of_statedKey {parts : List KeyPart} (h : d.statedKey table = .ok parts) :
    parts.map (·.name) =
      if d.inlineKey.isEmpty then (d.keyClause.getD []).map (·.name) else d.inlineKey := by
  rw [statedKey] at h
  split at h
  · rename_i hinline
    obtain rfl := Except.ok.inj h
    rw [hinline]
    rfl
  · rename_i hinline _
    obtain rfl := Except.ok.inj h
    rw [hinline]
    rfl
  · rename_i hinline _
    split at h
    · rename_i hagree
      obtain rfl := Except.ok.inj h
      rw [hinline, hagree]
      rfl
    · contradiction
  · contradiction

theorem checkKey_eq_ok_iff {parts key : List KeyPart} :
    d.checkKey table parts = .ok key ↔ key = parts ∧ ∀ n ∈ parts.map (·.name), n ∈ d.declared := by
  have hall : parts.find? (!d.declared.contains ·.name) = none ↔
      ∀ n ∈ parts.map (·.name), n ∈ d.declared := by
    simp [List.find?_eq_none]
  rw [checkKey, ← hall]
  cases parts.find? (!d.declared.contains ·.name) <;> simp [eq_comm]

/-- The key is the column that declares itself to be it, or else what the clause names, and is
declared. -/
theorem of_key {key : List KeyPart} (h : d.key table = .ok key) :
    key.map (·.name) =
      (if d.inlineKey.isEmpty then (d.keyClause.getD []).map (·.name) else d.inlineKey) ∧
      ∀ n ∈ key.map (·.name), n ∈ d.declared := by
  rw [key_eq] at h
  obtain ⟨parts, hparts, h⟩ := bind_eq_ok h
  obtain ⟨rfl, hdeclared⟩ := checkKey_eq_ok_iff.1 h
  exact ⟨names_of_statedKey hparts, hdeclared⟩

/-- A stated key is declared if the clause is, since a column that declares itself to be the key is
declared anyway. -/
theorem declared_of_statedKey_iff {parts : List KeyPart} (h : d.statedKey table = .ok parts) :
    (∀ n ∈ parts.map (·.name), n ∈ d.declared) ↔
      ∀ clause ∈ d.keyClause, ∀ n ∈ clause.map (·.name), n ∈ d.declared := by
  obtain ⟨-, hagree⟩ := (exists_statedKey_iff table).1 ⟨parts, h⟩
  rw [names_of_statedKey h]
  cases hinline : d.inlineKey with
  | nil => cases d.keyClause <;> simp
  | cons column others =>
    have hcolumn : column ∈ d.inlineKey := hinline ▸ List.mem_cons_self
    refine iff_of_true (fun n hn ↦ d.inlineKey_subset (hinline ▸ hn)) fun clause hclause n hn ↦ ?_
    rw [hagree column hcolumn clause hclause] at hn
    exact List.mem_singleton.1 hn ▸ d.inlineKey_subset hcolumn

/-- There is a key if at most one column declares itself to be it, no clause says otherwise, and the
clause names declared columns. -/
theorem exists_key_iff :
    (∃ key, d.key table = .ok key) ↔
      d.inlineKey.length ≤ 1 ∧
        (∀ n ∈ d.inlineKey, ∀ clause ∈ d.keyClause, clause.map (·.name) = [n]) ∧
        ∀ clause ∈ d.keyClause, ∀ n ∈ clause.map (·.name), n ∈ d.declared := by
  rw [key_eq, ← and_assoc, ← exists_statedKey_iff table]
  constructor
  · rintro ⟨key, h⟩
    obtain ⟨parts, hparts, h⟩ := bind_eq_ok h
    exact ⟨⟨parts, hparts⟩, (declared_of_statedKey_iff hparts).1 (checkKey_eq_ok_iff.1 h).2⟩
  · rintro ⟨⟨parts, hparts⟩, h⟩
    rw [hparts]
    exact ⟨parts, checkKey_eq_ok_iff.2 ⟨rfl, (declared_of_statedKey_iff hparts).2 h⟩⟩

theorem objection_of_statedKey {referenced declared : List String}
    (h : d.statedKey table = .error e) :
    Objection table referenced declared e := by
  rw [statedKey] at h
  split at h
  · contradiction
  · contradiction
  · split at h
    · contradiction
    · exact .of_unsupported h
  · exact .of_unsupported h

theorem objection_of_checkKey {parts : List KeyPart} (h : d.checkKey table parts = .error e) :
    Objection table (parts.map (·.name)) d.declared e := by
  rw [checkKey] at h
  split at h
  · rename_i missing hmissing
    obtain rfl := Except.error.inj h
    exact .dangling (List.mem_map_of_mem (List.mem_of_find?_eq_some hmissing))
      (by simpa using List.find?_some hmissing) _
  · contradiction

/-- A column that is missing from the key is one that the clause names. -/
theorem objection_of_key (h : d.key table = .error e) :
    Objection table (d.keyClause.toList.flatMap (·.map (·.name))) d.declared e := by
  rw [key_eq] at h
  rcases bind_eq_error h with h | ⟨parts, hparts, h⟩
  · exact objection_of_statedKey h
  · cases objection_of_checkKey h with
    | unsupported what place => exact .unsupported what place
    | dangling hn hundeclared context =>
      refine .dangling ?_ hundeclared context
      rw [names_of_statedKey hparts] at hn
      split at hn
      · cases hclause : d.keyClause with
        | none => simp [hclause] at hn
        | some clause => simpa [hclause] using hn
      · exact absurd (d.inlineKey_subset hn) hundeclared

variable (table) in
/-- The index of a unique column is no obstacle. -/
theorem exists_lower_uniqueColumn {n : String} (h : n ∈ d.uniqueColumns) :
    ∃ index, (IndexDef.on [n]).lower table .unique none d.declared = .ok index :=
  (IndexDef.exists_lower_iff ..).2 ⟨List.cons_ne_nil _ _, by
    simpa [IndexDef.referenced, IndexDef.on] using d.uniqueColumns_subset h⟩

/-- There are indices if each one that is declared has columns and refers to declared ones. -/
theorem exists_lowerIndices_iff :
    (∃ indices, d.lowerIndices table = .ok indices) ↔
      ∀ i ∈ d.indices, i.2.columns ≠ [] ∧ ∀ n ∈ i.2.referenced, n ∈ d.declared := by
  rw [lowerIndices]
  constructor
  · rintro ⟨indices, h⟩ i hi
    obtain ⟨uniques, -, h⟩ := bind_eq_ok h
    obtain ⟨others, hothers, -⟩ := bind_eq_ok h
    obtain ⟨index, -, hindex⟩ := exists_of_mapM hothers hi
    exact (IndexDef.exists_lower_iff ..).1 ⟨index, hindex⟩
  · intro h
    obtain ⟨uniques, huniques⟩ := exists_mapM fun n (hn : n ∈ d.uniqueColumns) ↦
      exists_lower_uniqueColumn table hn
    obtain ⟨others, hothers⟩ := exists_mapM fun i hi ↦
      (IndexDef.exists_lower_iff table i.1 none).2 (h i hi)
    rw [huniques, ok_bind, hothers]
    exact ⟨_, rfl⟩

theorem objection_of_lowerIndices (h : d.lowerIndices table = .error e) :
    Objection table (d.indices.flatMap (·.2.referenced)) d.declared e := by
  rw [lowerIndices] at h
  rcases bind_eq_error h with h | ⟨uniques, -, h⟩
  · obtain ⟨n, hn, he⟩ := exists_of_mapM_error h
    obtain ⟨index, hindex⟩ := exists_lower_uniqueColumn table hn
    rw [hindex] at he
    contradiction
  · rcases bind_eq_error h with h | ⟨others, -, h⟩
    · obtain ⟨i, hi, he⟩ := exists_of_mapM_error h
      exact (IndexDef.objection_of_lower he).mono fun n hn ↦ List.mem_flatMap.2 ⟨i, hi, hn⟩
    · contradiction

end TableDraft

/-- The body of a declaration is gathered as its definitions say. -/
theorem CreateTable.draft_eq_ok_iff {c : CreateTable} {d : TableDraft} :
    c.draft = .ok d ↔ d.Gathers c.table c.definitions :=
  TableDraft.foldlM_add_eq_ok_iff

end SchemaLedger
