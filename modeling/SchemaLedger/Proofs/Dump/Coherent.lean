import Mathlib
import SchemaLedger.Proofs.Dump.Sound

/-!
# What is read is coherent

A table says some things twice: its key and the columns that are primary, its unique indices and the
columns that are unique, and the unique indices once more as a list. Of a table that is read, what
is said twice agrees, and it has no length where none is due, none that is meant anyway, and none
that is zero.

The texts may be any whatever, in any order. A column that is read carries neither flag: the one
follows from the key, which is put to all columns of a table at once, the other from the indices,
which are registered with the table afterwards.
-/

namespace SchemaLedger

/-- A length stands where one is due, says something, and is not zero. -/
structure Column.Measured (c : Column) : Prop where
  unsized : c.type.isSized = false → c.length = none
  ne_default : ∀ l ∈ c.length, c.type.defaultLength ≠ some l
  ne_zero : c.length ≠ some (.size 0)

/-- Of what a table says twice, both agree. -/
structure Table.Coherent (t : Table) : Prop where
  distinct : t.columnNames.Nodup
  declaresKey : ∀ n ∈ t.primaryKey, n ∈ t.columnNames
  isPrimary : ∀ c ∈ t.columns, c.isPrimary = true ↔ c.name ∈ t.primaryKey
  named : ∀ i ∈ t.indices, i.table = t.name
  declaresIndexed : ∀ i ∈ t.indices, ∀ n ∈ i.referenced, n ∈ t.columnNames
  uniques : t.uniques = (t.indices.filter (·.unique)).map fun i ↦ ⟨i.name, i.columnNames⟩
  isUnique : ∀ c ∈ t.columns,
    c.isUnique = true ↔ ∃ i ∈ t.indices, i.unique = true ∧ c.name ∈ i.columnNames

/-- The flags of its columns are those that the key and the indices give them, the unique indices
are listed, and lengths stand where they are due. -/
structure Table.Regular (t : Table) : Prop where
  isPrimary : ∀ c ∈ t.columns, c.isPrimary = t.isKeyColumn c.name
  isUnique : ∀ c ∈ t.columns, c.isUnique = t.indices.any (·.covers c.name)
  uniques : t.uniques = (t.indices.filter (·.unique)).map Index.constraint
  measured : ∀ c ∈ t.columns, c.Measured

theorem Table.Regular.coherent {t : Table} (h : t.Regular) (hsound : t.Sound) : t.Coherent := by
  refine ⟨hsound.distinct, hsound.declaresKey, fun c hc ↦ ?_, hsound.named, hsound.declaresIndexed,
    h.uniques, fun c hc ↦ ?_⟩
  · rw [h.isPrimary c hc]
    exact List.contains_iff_mem
  · rw [h.isUnique c hc, List.any_eq_true]
    simp only [Index.covers, Bool.and_eq_true, List.contains_iff_mem]

/-! ## Lengths -/

namespace ColumnLength

theorem ne_zero_of_ofDigits? {ds : List Char} {l : ColumnLength} (h : ofDigits? ds = some l) :
    l ≠ .size 0 := by
  rw [ofDigits?] at h
  split at h
  · dsimp only at h
    split at h
    · rename_i hrange
      obtain rfl := Option.some.inj h
      intro hzero
      have hnat := congrArg UInt32.toNat (size.inj hzero)
      rw [UInt32.toNat_ofNat_of_lt' hrange.2] at hnat
      have hpos := hrange.1
      rw [hnat] at hpos
      contradiction
    · contradiction
  · contradiction

theorem ne_zero_of_ofText? {text : String} {l : ColumnLength} (h : ofText? text = some l) :
    l ≠ .size 0 := by
  rw [ofText?] at h
  split at h
  · exact ne_zero_of_ofDigits? h
  · split at h
    · obtain rfl := Option.some.inj h
      exact ColumnLength.noConfusion
    · exact ne_zero_of_ofDigits? h

end ColumnLength

namespace Column.Measured

/-- It does not matter what else is said of a column. -/
theorem congr {c d : Column} (h : c.Measured) (htype : d.type = c.type)
    (hlength : d.length = c.length) :
    d.Measured :=
  ⟨fun hd ↦ hlength ▸ h.unsized (htype ▸ hd), by rw [hlength, htype]; exact h.ne_default,
    hlength ▸ h.ne_zero⟩

theorem normal {c : Column} (h : c.Measured) : c.type.normalLength c.length = c.length := by
  rw [ColumnType.normalLength]
  split
  · rename_i hdue
    rw [Bool.or_eq_true, Bool.not_eq_true', beq_iff_eq] at hdue
    rcases hdue with hunsized | hdefault
    · exact (h.unsized hunsized).symm
    · cases hl : c.length with
      | none => rfl
      | some l => exact absurd (hdefault.symm.trans hl) (h.ne_default l hl)
  · rfl

end Column.Measured

/-- Indices that are registered keep the flags in step. -/
theorem Table.Regular.registerIndices {t : Table} (h : t.Regular) (is : List Index) :
    (is.foldl registerIndex t).Regular := by
  rw [foldl_registerIndex]
  constructor
  case uniques => rw [h.uniques, List.filter_append, List.map_append]
  all_goals
    intro c hc
    obtain ⟨d, hd, rfl⟩ := List.mem_map.1 hc
  case isPrimary => exact h.isPrimary d hd
  case isUnique => rw [List.any_append, ← h.isUnique d hd]
  case measured => exact (h.measured d hd).congr rfl rfl

theorem ColumnType.measured_normalLength {c : Column} {length : Option ColumnLength}
    (hlength : c.length = c.type.normalLength length) (hzero : length ≠ some (.size 0)) :
    c.Measured := by
  rw [normalLength] at hlength
  split at hlength
  · exact ⟨fun _ ↦ hlength, by simp [hlength], by simp [hlength]⟩
  · rename_i hdue
    rw [Bool.or_eq_true, Bool.not_eq_true', beq_iff_eq, not_or] at hdue
    refine ⟨fun hunsized ↦ absurd hunsized hdue.1, fun l hl hdefault ↦ hdue.2 ?_, hlength ▸ hzero⟩
    rw [← hlength, hdefault]
    exact hl

namespace Dump

/-! ## Columns -/

/-- A column as it is read. -/
structure Plain (c : Column) : Prop extends c.Measured where
  isPrimary : c.isPrimary = false
  isUnique : c.isUnique = false

theorem readSized_eq_ok {word : List Char} {length : Option (List Char)} {type : ColumnType}
    {stored : Option ColumnLength} (h : readSized word length = .ok (type, stored)) :
    ∃ given, given ≠ some (.size 0) ∧ stored = type.normalLength given := by
  have hnone (t : ColumnType) : none = t.normalLength none := by cases t <;> rfl
  rw [readSized] at h
  split at h
  · contradiction
  · split at h
    · contradiction
    · split at h
      · obtain ⟨rfl, rfl⟩ := Prod.mk.inj (Except.ok.inj h)
        exact ⟨none, (Option.some_ne_none _).symm, hnone _⟩
      · split at h
        · contradiction
        · rename_i l hl
          obtain ⟨rfl, rfl⟩ := Prod.mk.inj (Except.ok.inj h)
          exact ⟨some l, fun e ↦ ColumnLength.ne_zero_of_ofText? hl (Option.some.inj e), rfl⟩

theorem readType_eq_ok {text : TypeText} {type : ColumnType} {stored : Option ColumnLength}
    {array : Bool} (h : readType text = .ok (type, stored, array)) :
    ∃ given, given ≠ some (.size 0) ∧ stored = type.normalLength given := by
  cases text with
  | scalar word length =>
    obtain ⟨⟨t, l⟩, hsized, h⟩ := bind_eq_ok h
    cases h
    exact readSized_eq_ok hsized
  | array element =>
    rw [readType] at h
    dsimp only at h
    split at h
    · contradiction
    · obtain ⟨⟨t, l⟩, hsized, h⟩ := bind_eq_ok h
      cases h
      exact readSized_eq_ok hsized

theorem Plain.apply {c : Column} (h : Plain c) (a : Attribute) : Plain (a.apply c) := by
  cases a with
  | notNull => exact ⟨h.toMeasured.congr rfl rfl, h.isPrimary, h.isUnique⟩
  | commitTimestamp allowed =>
    cases allowed
    · exact h
    · exact ⟨h.toMeasured.congr rfl rfl, h.isPrimary, h.isUnique⟩
  | default e => exact ⟨h.toMeasured.congr rfl rfl, h.isPrimary, h.isUnique⟩

theorem plain_of_columnOfText {cs : List Char} {c : Column} (h : columnOfText cs = .ok c) :
    Plain c := by
  have hread : readColumn cs = .ok c := reading_eq_ok.1 h
  rw [readColumn] at hread
  split at hread
  · contradiction
  · obtain ⟨⟨type, stored, isArray⟩, htype, hread⟩ := bind_eq_ok hread
    obtain ⟨attributes, -, hread⟩ := bind_eq_ok hread
    obtain rfl := Except.ok.inj hread
    obtain ⟨given, hgiven, hstored⟩ := readType_eq_ok htype
    have hfold : ∀ (as : List Attribute) (d : Column), Plain d →
        Plain (as.foldl Attribute.apply d) := by
      intro as
      induction as with
      | nil => exact fun _ hd ↦ hd
      | cons a as ih => exact fun d hd ↦ ih _ (hd.apply a)
    exact hfold attributes _ ⟨ColumnType.measured_normalLength hstored hgiven, rfl, rfl⟩

/-- The columns of a body are read one by one. -/
theorem columns_of_foldlM_add {p : Column → Prop} (hp : ∀ cs c, columnOfText cs = .ok c → p c)
    {elements : List (List Char)} {b b' : TableBody} (hb : ∀ c ∈ b.columns, p c)
    (h : elements.foldlM TableBody.add b = .ok b') : ∀ c ∈ b'.columns, p c := by
  induction elements generalizing b with
  | nil =>
    obtain rfl := Except.ok.inj h
    exact hb
  | cons element elements ih =>
    rw [List.foldlM_cons] at h
    obtain ⟨b₁, hadd, h⟩ := bind_eq_ok h
    refine ih ?_ h
    rw [TableBody.add] at hadd
    split at hadd
    · split at hadd
      · contradiction
      · obtain ⟨key, -, hadd⟩ := bind_eq_ok hadd
        obtain rfl := Except.ok.inj hadd
        exact hb
    · split at hadd
      · obtain rfl := Except.ok.inj hadd
        exact hb
      · obtain ⟨c, hc, hadd⟩ := bind_eq_ok hadd
        split at hadd
        · contradiction
        · obtain rfl := Except.ok.inj hadd
          intro d hd
          rcases List.mem_append.1 hd with hd | hd
          · exact hb d hd
          · exact List.mem_singleton.1 hd ▸ hp element c hc

/-! ## Tables -/

/-- What a table that is built has besides being sound. -/
theorem regular_of_build {text : TableText} {t : Table} (h : text.build = .ok t) :
    t.Regular ∧ t.foreignKeys = (t.interleave.map (parentKey t.name)).toList := by
  obtain ⟨body, key, hbody, hkey, hdeclared⟩ := exists_of_build h
  have hplain := columns_of_foldlM_add (b := {}) (fun _ _ ↦ plain_of_columnOfText) (by simp) hbody
  obtain rfl := Except.ok.inj ((build_eq hbody hkey hdeclared).symm.trans h)
  refine ⟨⟨?_, ?_, rfl, ?_⟩, rfl⟩
  all_goals
    intro c hc
    obtain ⟨d, hd, rfl⟩ := List.mem_map.1 hc
  · rfl
  · exact (hplain d hd).isUnique
  · exact (hplain d hd).toMeasured.congr rfl rfl

/-- What a table that is read has besides being sound. -/
theorem regular_of_parse {statements : List String} {s : Schema} (h : parse statements = .ok s)
    {k : String} {t : Table} (ht : s[k]? = some t) :
    t.Regular ∧ t.foreignKeys = (t.interleave.map (parentKey t.name)).toList := by
  obtain ⟨items, ts, -, hreading⟩ := exists_of_parse h
  rw [hreading.lookup] at ht
  obtain ⟨u, hfind, rfl⟩ := Option.map_eq_some_iff.1 ht
  obtain ⟨text, -, hbuild⟩ := exists_of_mem_mapM hreading.built (List.mem_of_find?_eq_some hfind)
  obtain ⟨hregular, hforeign⟩ := regular_of_build hbuild
  refine ⟨hregular.registerIndices _, ?_⟩
  rw [Table.foldl_registerIndex]
  exact hforeign

/-- Whatever statements are read, the tables that come out are kept by name and coherent. Every
index has a column, lengths are stored as they are meant to be, and the only foreign key is the one
to the parent. -/
theorem coherent_of_parse {statements : List String} {s : Schema} (h : parse statements = .ok s)
    {k : String} {t : Table} (ht : s[k]? = some t) :
    t.name = k ∧ t.Coherent ∧ (∀ i ∈ t.indices, i.columns ≠ []) ∧ (∀ c ∈ t.columns, c.Measured) ∧
      t.foreignKeys = (t.interleave.map (parentKey t.name)).toList := by
  obtain ⟨hsound, hname⟩ := sound_of_parse h ht
  obtain ⟨hregular, hforeign⟩ := regular_of_parse h ht
  exact ⟨hname, hregular.coherent hsound, fun i hi ↦ (hsound.indices i hi).2.1, hregular.measured,
    hforeign⟩

/-- An index in front of its table, a body with its key and a foreign key in it, and lengths that
are meant anyway. -/
def stays : List String :=
  ["create unique index `by day` on stays (day desc, room) storing (note)",
    "CREATE TABLE stays (room int64 not null, day date, note String(255), tags array<bytes(MAX)>,\n  " ++
      "FOREIGN KEY (room) REFERENCES rooms (id), code string(8) default ('a, b')) " ++
      "PRIMARY KEY (room, day), INTERLEAVE IN PARENT rooms ON DELETE CASCADE",
    "INDEX codes ON stays (code)"]

theorem stays_coherent :
    ∃ s t, parse stays = .ok s ∧ s["stays"]? = some t ∧
      t.columns.map (·.length) = [none, none, none, none, some (.size 8)] ∧
      t.name = "stays" ∧ t.Coherent ∧ (∀ i ∈ t.indices, i.columns ≠ []) ∧
      (∀ c ∈ t.columns, c.Measured) ∧
      t.foreignKeys = (t.interleave.map (parentKey t.name)).toList := by
  have hread : (fun s : Schema ↦ s["stays"]?.map fun t ↦ t.columns.map (·.length)) <$> parse stays
      = .ok (some [none, none, none, none, some (.size 8)]) := by
    decide +kernel
  obtain ⟨s, hparse, hlengths⟩ := map_eq_ok hread
  obtain ⟨t, ht, hlengths⟩ := Option.map_eq_some_iff.1 hlengths
  exact ⟨s, t, hparse, ht, hlengths, coherent_of_parse hparse ht⟩

end Dump

end SchemaLedger
