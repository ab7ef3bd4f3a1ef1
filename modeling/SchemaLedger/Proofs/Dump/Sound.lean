import Mathlib
import SchemaLedger.Proofs.Dump.Own
import SchemaLedger.Proofs.Table

/-!
# What a dump is read as

Reading statements succeeds if all of them are read, the tables among them have different names, and
every index names columns of its table. Then each table has the indices that were written for it, in
the order in which they stand.

A table that is read is `Sound`: its names can be read back, and it names no column that it lacks.
Sound tables are written down and read again as themselves or not at all.
-/

namespace SchemaLedger

open Text Text.Scanner Identifier

/-- Its names can be read back, and it names no column that it lacks. -/
structure Table.Sound (t : Table) : Prop where
  legible : Legible t.name
  columns : ∀ n ∈ t.columnNames, Legible n
  distinct : t.columnNames.Nodup
  declaresKey : ∀ n ∈ t.primaryKey, n ∈ t.columnNames
  parents : ∀ i ∈ t.interleave, Legible i.parent
  named : ∀ i ∈ t.indices, i.table = t.name
  indices : ∀ i ∈ t.indices, Legible i.name ∧ i.columns ≠ [] ∧ ∀ p ∈ i.interleaveIn, Legible p
  declaresIndexed : ∀ i ∈ t.indices, ∀ n ∈ i.referenced, n ∈ t.columnNames

namespace Dump

/-! ## Names that are read -/

theorem yields_tableHead : Yields Legible tableHead :=
  .after fun _ ↦ .after fun _ ↦ .after fun _ ↦ .after fun _ ↦ yields_name.bind fun _ h ↦
    .after fun _ ↦ .after fun _ ↦ .pure h

theorem yields_columnText : Yields (fun x ↦ Legible x.1) columnText :=
  .after fun _ ↦ yields_name.bind fun _ h ↦ .after fun _ ↦ .after fun _ ↦ .after fun _ ↦ .pure h

theorem yields_parentClause : Yields (fun i ↦ Legible i.parent) parentClause :=
  .after fun _ ↦ .after fun _ ↦ .after fun _ ↦ .after fun _ ↦ .after fun _ ↦
    yields_name.bind fun _ h ↦ .after fun _ ↦ .pure h

theorem yields_keyClauseText :
    Yields (fun x ↦ ∀ i ∈ x.2, Legible i.parent) keyClauseText :=
  .after fun _ ↦ .after fun _ ↦ .after fun _ ↦ yields_parentClause.attempt.bind fun _ h ↦
    .after fun _ ↦ .after fun _ ↦ .pure h

/-- What is read of an index can be read back. -/
structure IndexText.Sound (t : IndexText) : Prop where
  name : Legible t.name
  table : Legible t.table
  parent : ∀ p ∈ t.interleaveIn, Legible p

theorem yields_interleaveInClause : Yields Legible interleaveInClause :=
  .after fun _ ↦ .after fun _ ↦ .after fun _ ↦ .after fun _ ↦ .after fun _ ↦ yields_name

theorem yields_indexText : Yields IndexText.Sound indexText :=
  .after fun _ ↦ .after fun _ ↦ yields_name.bind fun _ hname ↦ .after fun _ ↦
    .after fun _ ↦ .after fun _ ↦ yields_name.bind fun _ htable ↦ .after fun _ ↦ .after fun _ ↦
    yields_interleaveInClause.attempt.bind fun _ hparent ↦ .after fun _ ↦ .after fun _ ↦
    .pure ⟨hname, htable, hparent⟩

theorem Attribute.name_apply (c : Column) (a : Attribute) : (a.apply c).name = c.name := by
  cases a with
  | notNull => rfl
  | commitTimestamp allowed => cases allowed <;> rfl
  | default e => rfl

theorem legible_of_columnOfText {cs : List Char} {c : Column} (h : columnOfText cs = .ok c) :
    Legible c.name := by
  have hread : readColumn cs = .ok c := reading_eq_ok.1 h
  rw [readColumn] at hread
  split at hread
  · contradiction
  · rename_i n typeText rest hvalue
    obtain ⟨⟨type, length, isArray⟩, -, hread⟩ := bind_eq_ok hread
    obtain ⟨as, -, hread⟩ := bind_eq_ok hread
    obtain rfl := Except.ok.inj hread
    have hname : ∀ (as : List Attribute) (c : Column),
        (as.foldl Attribute.apply c).name = c.name := by
      intro as
      induction as with
      | nil => exact fun _ ↦ rfl
      | cons a as ih => exact fun c ↦ (ih _).trans (a.name_apply c)
    rw [hname]
    exact yields_columnText.of_value? hvalue

theorem legible_of_readKeyClause {cs : List Char} {k : KeyClause} (h : readKeyClause cs = .ok k) :
    ∀ i ∈ k.interleave, Legible i.parent := by
  rw [readKeyClause] at h
  split at h
  · contradiction
  · rename_i columns interleave hvalue
    have hparent := yields_keyClauseText.of_value? hvalue
    dsimp only at h
    split at h
    · obtain rfl := Except.ok.inj h
      exact hparent
    · obtain ⟨parts, -, h⟩ := bind_eq_ok h
      obtain rfl := Except.ok.inj h
      exact hparent

/-- No list of key parts is empty. -/
theorem ne_nil_of_readKeyParts {cs : List Char} {parts : List KeyPart}
    (h : readKeyParts cs = .ok parts) : parts ≠ [] := by
  rintro rfl
  obtain ⟨part, hpart⟩ := List.exists_mem_of_ne_nil _ (splitCommasFrom_ne_nil .outside 0 cs)
  obtain ⟨p, hp, -⟩ := exists_of_mapM h hpart
  contradiction

/-! ## Bodies -/

/-- What has been read of a body can be read back. -/
structure TableBody.Sound (b : TableBody) : Prop where
  columns : ∀ n ∈ b.columns.map (·.name), Legible n
  distinct : (b.columns.map (·.name)).Nodup
  parents : ∀ k ∈ b.key, ∀ i ∈ k.interleave, Legible i.parent

theorem TableBody.Sound.add {b b' : TableBody} (hb : b.Sound) {element : List Char}
    (h : b.add element = .ok b') : b'.Sound := by
  rw [TableBody.add] at h
  split at h
  · split at h
    · contradiction
    · obtain ⟨k, hk, h⟩ := bind_eq_ok h
      obtain rfl := Except.ok.inj h
      refine ⟨hb.columns, hb.distinct, ?_⟩
      rintro _ ⟨⟩
      exact legible_of_readKeyClause (reading_eq_ok.1 hk)
  · split at h
    · obtain rfl := Except.ok.inj h
      exact hb
    · obtain ⟨c, hc, h⟩ := bind_eq_ok h
      split at h
      · contradiction
      · rename_i hnew
        obtain rfl := Except.ok.inj h
        -- A column of a name that is there already has been refused.
        have hfresh : c.name ∉ b.columns.map (·.name) := by
          intro hmem
          obtain ⟨d, hd, hname⟩ := List.mem_map.1 hmem
          exact hnew (List.any_eq_true.2 ⟨d, hd, by simpa using hname⟩)
        have hnames : (b.columns ++ [c]).map (·.name) = b.columns.map (·.name) ++ [c.name] :=
          List.map_append
        refine ⟨fun n hn ↦ ?_, ?_, hb.parents⟩
        · rw [hnames] at hn
          rcases List.mem_append.1 hn with hn | hn
          · exact hb.columns n hn
          · obtain rfl := List.mem_singleton.1 hn
            exact legible_of_columnOfText hc
        · rw [hnames]
          refine List.nodup_append.2 ⟨hb.distinct, List.nodup_singleton _, ?_⟩
          rintro n hn m hm rfl
          exact hfresh (List.mem_singleton.1 hm ▸ hn)

theorem TableBody.Sound.foldlM {elements : List (List Char)} {b b' : TableBody} (hb : b.Sound)
    (h : elements.foldlM TableBody.add b = .ok b') : b'.Sound := by
  induction elements generalizing b with
  | nil =>
    obtain rfl := Except.ok.inj h
    exact hb
  | cons e elements ih =>
    rw [List.foldlM_cons] at h
    obtain ⟨b₁, hadd, h⟩ := bind_eq_ok h
    exact ih (hb.add hadd) h

/-- A table that is built is sound, and has no indices yet. -/
theorem sound_of_build {text : TableText} (htext : Legible text.name) {t : Table}
    (h : text.build = .ok t) : t.Sound ∧ t.name = text.name ∧ t.indices = [] := by
  obtain ⟨body, key, hbody, hkey, hdeclared⟩ := exists_of_build h
  have hempty : ({} : TableBody).Sound := ⟨by simp, List.nodup_nil, by simp⟩
  have hb : body.Sound := hempty.foldlM hbody
  -- The parent stands behind the body, or with a key in the body.
  have hparents : ∀ i ∈ key.interleave, Legible i.parent := by
    rw [TableText.key] at hkey
    split at hkey
    · obtain rfl := Except.ok.inj hkey
      cases hk : body.key with
      | none => exact fun i hi ↦ absurd hi (Option.not_mem_none i)
      | some k => exact hb.parents k hk
    · obtain ⟨k, hread, hkey⟩ := bind_eq_ok hkey
      split at hkey
      · contradiction
      · obtain rfl := Except.ok.inj hkey
        exact legible_of_readKeyClause (reading_eq_ok.1 hread)
  obtain rfl := Except.ok.inj ((build_eq hbody hkey hdeclared).symm.trans h)
  have hnames : ∀ {name primaryKey foreignKeys interleave},
      (Table.syncPrimary ⟨name, body.columns, primaryKey, [], foreignKeys, [],
        interleave⟩).columnNames
        = body.columns.map (·.name) := by
    intro name primaryKey foreignKeys interleave
    rw [Table.columnNames, Table.syncPrimary, List.map_map]
    rfl
  refine ⟨⟨htext, ?_, ?_, ?_, hparents, ?_, ?_, ?_⟩, rfl, rfl⟩
  · rw [hnames]
    exact hb.columns
  · rw [hnames]
    exact hb.distinct
  · rw [hnames]
    exact hdeclared
  all_goals exact fun i hi ↦ absurd hi List.not_mem_nil

/-! ## Tables and their indices -/

theorem of_foldlM_addTable {texts : List TableText} {s s' : Schema}
    (h : texts.foldlM addTable s = .ok s') :
    ∃ ts, texts.mapM TableText.build = .ok ts ∧ (ts.map (·.name)).Nodup ∧
      (∀ t ∈ ts, s[t.name]? = none) ∧ ∀ k, s'[k]? = (ts.find? (·.name == k)).or s[k]? := by
  -- What is added later leaves the tables alone that are there: every name that is added is new.
  induction texts generalizing s with
  | nil =>
    obtain rfl := Except.ok.inj h
    exact ⟨[], rfl, List.nodup_nil, by simp, fun k ↦ rfl⟩
  | cons text texts ih =>
    rw [List.foldlM_cons] at h
    obtain ⟨s₁, hadd, h⟩ := bind_eq_ok h
    rw [addTable] at hadd
    obtain ⟨t, hbuild, hadd⟩ := bind_eq_ok hadd
    split at hadd
    · contradiction
    · rename_i hnew
      obtain rfl := Except.ok.inj hadd
      obtain ⟨ts, hts, hnodup, hfresh, hlookup⟩ := ih h
      have hnone : s[t.name]? = none := by
        rwa [Bool.not_eq_true, ← Std.ExtTreeMap.isSome_getElem?_eq_contains,
          Option.isSome_eq_false_iff, Option.isNone_iff_eq_none] at hnew
      have hother : ∀ u ∈ ts, t.name ≠ u.name ∧ s[u.name]? = none := by
        intro u hu
        have hu := hfresh u hu
        rw [Std.ExtTreeMap.getElem?_insert] at hu
        split at hu
        · contradiction
        · rename_i hne
          exact ⟨fun e ↦ hne (Std.LawfulEqOrd.compare_eq_iff_eq.2 e), hu⟩
      refine ⟨t :: ts, ?_, ?_, ?_, fun k ↦ ?_⟩
      · rw [List.mapM_cons, hbuild, hts]
        rfl
      · rw [List.map_cons, List.nodup_cons]
        refine ⟨fun hmem ↦ ?_, hnodup⟩
        obtain ⟨u, hu, hname⟩ := List.mem_map.1 hmem
        exact (hother u hu).1 hname.symm
      · intro u hu
        rcases List.mem_cons.1 hu with rfl | hu
        · exact hnone
        · exact (hother u hu).2
      · rw [hlookup, Std.ExtTreeMap.getElem?_insert, List.find?_cons]
        by_cases hk : t.name = k
        · have hfind : ts.find? (·.name == k) = none := by
            refine List.find?_eq_none.2 fun u hu e ↦ (hother u hu).1 ?_
            exact hk.trans (beq_iff_eq.1 e).symm
          rw [hfind, if_pos (Std.LawfulEqOrd.compare_eq_iff_eq.2 hk), beq_iff_eq.2 hk]
          rfl
        · rw [if_neg fun e ↦ hk (Std.LawfulEqOrd.compare_eq_iff_eq.1 e), beq_eq_false_iff_ne.2 hk]

theorem of_foldlM_addIndex {is : List Index} {s s' : Schema} (h : is.foldlM addIndex s = .ok s') :
    (∀ k, s'[k]? = s[k]?.map fun t ↦ (is.filter (·.table == k)).foldl Table.registerIndex t) ∧
      ∀ i ∈ is, ∃ t, s[i.table]? = some t ∧ ∀ c ∈ i.referenced, c ∈ t.columnNames := by
  -- Registering an index changes no names, so the later indices can be said to be about the tables
  -- of before.
  induction is generalizing s with
  | nil =>
    obtain rfl := Except.ok.inj h
    exact ⟨fun k ↦ Option.map_id'.symm, by simp⟩
  | cons i is ih =>
    rw [List.foldlM_cons] at h
    obtain ⟨s₁, hadd, h⟩ := bind_eq_ok h
    rw [addIndex] at hadd
    split at hadd
    · contradiction
    · rename_i t htable
      obtain ⟨u, hu, hadd⟩ := bind_eq_ok hadd
      obtain rfl := Except.ok.inj hadd
      rw [Table.addIndex] at hu
      split at hu
      · contradiction
      · rename_i hfind
        obtain rfl := Except.ok.inj hu
        have hreferenced : ∀ c ∈ i.referenced, c ∈ t.columnNames := fun c hc ↦ by
          simpa [Table.hasColumn_iff] using List.find?_eq_none.1 hfind c hc
        obtain ⟨hlookup, hindices⟩ := ih h
        refine ⟨fun k ↦ ?_, fun j hj ↦ ?_⟩
        · rw [hlookup, Std.ExtTreeMap.getElem?_insert]
          by_cases hk : i.table = k
          · rw [if_pos (Std.LawfulEqOrd.compare_eq_iff_eq.2 hk), ← hk, htable,
              List.filter_cons_of_pos (by exact beq_self_eq_true _)]
            rfl
          · rw [if_neg fun e ↦ hk (Std.LawfulEqOrd.compare_eq_iff_eq.1 e),
              List.filter_cons_of_neg (by simpa using hk)]
        · rcases List.mem_cons.1 hj with rfl | hj
          · exact ⟨t, htable, hreferenced⟩
          · obtain ⟨v, hv, hc⟩ := hindices j hj
            rw [Std.ExtTreeMap.getElem?_insert] at hv
            split at hv
            · rename_i heq
              obtain rfl := Option.some.inj hv
              rw [Table.columnNames_registerIndex] at hc
              exact ⟨t, by rw [← Std.LawfulEqOrd.compare_eq_iff_eq.1 heq, htable], hc⟩
            · exact ⟨v, hv, hc⟩

/-- Statements that are read: the tables, and with each the indices that name it. -/
structure Reading (items : List Item) (ts : List Table) (s : Schema) : Prop where
  built : (tables items).mapM TableText.build = .ok ts
  distinct : (ts.map (·.name)).Nodup
  lookup : ∀ k, s[k]? = (ts.find? (·.name == k)).map fun t ↦
    ((indices items).filter (·.table == k)).foldl Table.registerIndex t
  declared : ∀ i ∈ indices items, ∃ t ∈ ts, t.name = i.table ∧ ∀ c ∈ i.referenced, c ∈ t.columnNames

theorem exists_of_parse {statements : List String} {s : Schema} (h : parse statements = .ok s) :
    ∃ items ts, readItems statements = .ok items ∧ Reading items ts s := by
  rw [parse] at h
  obtain ⟨items, hitems, h⟩ := bind_eq_ok h
  obtain ⟨s₁, htables, h⟩ := bind_eq_ok h
  obtain ⟨ts, hbuilt, hdistinct, -, hlookup⟩ := of_foldlM_addTable htables
  obtain ⟨hlookup', hindices⟩ := of_foldlM_addIndex h
  have hempty (k : String) : (∅ : Schema)[k]? = none := Std.ExtTreeMap.getElem?_empty
  simp only [hempty, Option.or_none] at hlookup
  refine ⟨items, ts, hitems, hbuilt, hdistinct, fun k ↦ ?_, fun i hi ↦ ?_⟩
  · rw [hlookup', hlookup]
  · obtain ⟨t, ht, hc⟩ := hindices i hi
    rw [hlookup] at ht
    exact ⟨t, List.mem_of_find?_eq_some ht, by simpa using List.find?_some ht, hc⟩

/-! ## What is read is sound -/

theorem legible_of_readItem {cs : List Char} {text : TableText}
    (h : readItem cs = .ok (.table text)) :
    Legible text.name := by
  rw [readItem] at h
  split at h
  · rename_i n rest hhead
    rw [readTableText] at h
    split at h
    · contradiction
    · obtain rfl := Item.table.inj (Except.ok.inj h)
      exact yields_tableHead _ _ _ hhead
  · split at h
    · obtain ⟨i, -, h⟩ := map_eq_ok h
      contradiction
    · contradiction

/-- What is read of an index can be read back. -/
theorem sound_of_readIndex {cs : List Char} {i : Index} (h : readIndex cs = .ok i) :
    Legible i.name ∧ i.columns ≠ [] ∧ ∀ p ∈ i.interleaveIn, Legible p := by
  rw [readIndex] at h
  split at h
  · contradiction
  · rename_i t hvalue
    obtain ⟨parts, hparts, h⟩ := bind_eq_ok h
    obtain rfl := Except.ok.inj h
    have hsound := yields_indexText.of_value? hvalue
    exact ⟨hsound.name, ne_nil_of_readKeyParts hparts, hsound.parent⟩

theorem exists_of_readItems {statements : List String} {items : List Item}
    (h : readItems statements = .ok items) {item : Item} (hitem : item ∈ items) :
    ∃ cs, readItem cs = .ok item := by
  obtain ⟨cs, -, hread⟩ := exists_of_mem_mapM h hitem
  exact ⟨cs, reading_eq_ok.1 hread⟩

theorem mem_tables {items : List Item} {text : TableText} :
    text ∈ tables items ↔ .table text ∈ items := by
  rw [tables, List.mem_filterMap]
  constructor
  · rintro ⟨item, hitem, h⟩
    cases item with
    | table t =>
      obtain rfl := Option.some.inj h
      exact hitem
    | index i => contradiction
  · exact fun h ↦ ⟨_, h, rfl⟩

theorem mem_indices {items : List Item} {i : Index} : i ∈ indices items ↔ .index i ∈ items := by
  rw [indices, List.mem_filterMap]
  constructor
  · rintro ⟨item, hitem, h⟩
    cases item with
    | table t => contradiction
    | index j =>
      obtain rfl := Option.some.inj h
      exact hitem
  · exact fun h ↦ ⟨_, h, rfl⟩

theorem readIndex_of_readItem {cs : List Char} {i : Index} (h : readItem cs = .ok (.index i)) :
    readIndex cs = .ok i := by
  rw [readItem] at h
  split at h
  · rw [readTableText] at h
    split at h
    · contradiction
    · cases Except.ok.inj h
  · split at h
    · obtain ⟨j, hread, h⟩ := map_eq_ok h
      obtain rfl := Item.index.inj h
      exact hread
    · contradiction

end Dump

namespace Table

theorem name_foldl_registerIndex (t : Table) (is : List Index) :
    (is.foldl registerIndex t).name = t.name := by
  rw [foldl_registerIndex]

/-- Registering indices that name its columns leaves a table sound. -/
theorem Sound.registerIndices {t : Table} (h : t.Sound) {is : List Index}
    (hnamed : ∀ i ∈ is, i.table = t.name)
    (his : ∀ i ∈ is, Legible i.name ∧ i.columns ≠ [] ∧ ∀ p ∈ i.interleaveIn, Legible p)
    (hdeclared : ∀ i ∈ is, ∀ n ∈ i.referenced, n ∈ t.columnNames) :
    (is.foldl registerIndex t).Sound := by
  have hnames : (is.foldl registerIndex t).columnNames = t.columnNames :=
    columnNames_registerIndices t is
  have hindices : (is.foldl registerIndex t).indices = t.indices ++ is := by
    rw [foldl_registerIndex]
  have hkey : (is.foldl registerIndex t).primaryKey = t.primaryKey := by rw [foldl_registerIndex]
  have hparent : (is.foldl registerIndex t).interleave = t.interleave := by rw [foldl_registerIndex]
  constructor
  case legible => rw [name_foldl_registerIndex]; exact h.legible
  case columns => rw [hnames]; exact h.columns
  case distinct => rw [hnames]; exact h.distinct
  case declaresKey => rw [hnames, hkey]; exact h.declaresKey
  case parents => rw [hparent]; exact h.parents
  all_goals
    rw [hindices]
    intro i hi
  case named =>
    rw [name_foldl_registerIndex]
    exact (List.mem_append.1 hi).elim (h.named i) (hnamed i)
  case indices => exact (List.mem_append.1 hi).elim (h.indices i) (his i)
  case declaresIndexed =>
    rw [hnames]
    exact (List.mem_append.1 hi).elim (h.declaresIndexed i) (hdeclared i)

end Table

namespace Dump

/-- A schema that is read holds sound tables under their names. -/
theorem sound_of_parse {statements : List String} {s : Schema} (h : parse statements = .ok s)
    {k : String} {t : Table} (ht : s[k]? = some t) : t.Sound ∧ t.name = k := by
  obtain ⟨items, ts, hitems, hreading⟩ := exists_of_parse h
  rw [hreading.lookup] at ht
  obtain ⟨u, hfind, rfl⟩ := Option.map_eq_some_iff.1 ht
  have hname : u.name = k := by simpa using List.find?_some hfind
  obtain ⟨text, htext, hbuild⟩ :=
    exists_of_mem_mapM hreading.built (List.mem_of_find?_eq_some hfind)
  obtain ⟨cs, hread⟩ := exists_of_readItems hitems (mem_tables.1 htext)
  obtain ⟨hu, -, -⟩ := sound_of_build (legible_of_readItem hread) hbuild
  refine ⟨hu.registerIndices ?_ ?_ ?_, ?_⟩
  · intro i hi
    rw [hname]
    simpa using (List.mem_filter.1 hi).2
  · intro i hi
    obtain ⟨cs, hread⟩ := exists_of_readItems hitems (mem_indices.1 (List.mem_filter.1 hi).1)
    exact sound_of_readIndex (readIndex_of_readItem hread)
  · intro i hi
    obtain ⟨hi, htable⟩ := List.mem_filter.1 hi
    obtain ⟨v, hv, hvname, hcolumns⟩ := hreading.declared i hi
    -- The index was checked against the table of its name, and there is only one.
    have huv : u = v := by
      refine List.inj_on_of_nodup_map hreading.distinct (List.mem_of_find?_eq_some hfind) hv ?_
      rw [hname, hvname]
      exact (beq_iff_eq.1 htable).symm
    rw [huv]
    exact hcolumns
  · rw [Table.name_foldl_registerIndex, hname]

end Dump

end SchemaLedger
