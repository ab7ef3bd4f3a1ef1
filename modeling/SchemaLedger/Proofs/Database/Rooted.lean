import Mathlib
import SchemaLedger.Proofs.Database.Described
import SchemaLedger.Proofs.Database.Rows

/-!
# Parents come first

A table is created behind its parent, no parent is dropped, and tables follow where their parent
gets another name. So in a database that started with no tables every parent is there, and chains of
parents come to an end. The order of a dump goes by the lengths of these chains. It cuts them where
they are longer than there are tables, which they are not, so a child stands one step behind its
parent.
-/

namespace SchemaLedger

namespace Database

variable {db db' : Database}

/-- The parent of every table is there, and chains of parents come to an end: the tables can be
ranked with every parent below its children. -/
structure Rooted (db : Database) : Prop where
  parents : ∀ (n : String) (t : StoredTable), db.tables[n]? = some t →
    ∀ i ∈ t.schema.interleave, ∃ p, db.tables[i.parent]? = some p
  ranked : ∃ rank : String → Nat, ∀ (n : String) (t : StoredTable), db.tables[n]? = some t →
    ∀ i ∈ t.schema.interleave, rank i.parent < rank n

/-! ## Commands -/

theorem rooted_empty : Rooted {} := by
  refine ⟨fun n t ht ↦ ?_, fun _ ↦ 0, fun n t ht ↦ ?_⟩
  all_goals
    rw [getElem?_empty] at ht
    contradiction

namespace Rooted

variable (h : db.Rooted)

include h

/-- Nothing but the tables and their parents matters. -/
theorem congr (hsame : ∀ n : String, db'.tables[n]?.map (·.schema.interleave)
    = db.tables[n]?.map (·.schema.interleave)) : db'.Rooted := by
  have hold {n : String} {t : StoredTable} (ht : db'.tables[n]? = some t) :
      ∃ u, db.tables[n]? = some u ∧ u.schema.interleave = t.schema.interleave := by
    have hn := hsame n
    rw [ht] at hn
    exact Option.map_eq_some_iff.1 hn.symm
  obtain ⟨rank, hrank⟩ := h.ranked
  refine ⟨fun n t ht i hi ↦ ?_, rank, fun n t ht i hi ↦ ?_⟩
  · obtain ⟨u, hu, hinterleave⟩ := hold ht
    obtain ⟨p, hp⟩ := h.parents n u hu i (hinterleave ▸ hi)
    have hparent := hsame i.parent
    rw [hp] at hparent
    obtain ⟨q, hq, -⟩ := Option.map_eq_some_iff.1 hparent
    exact ⟨q, hq⟩
  · obtain ⟨u, hu, hinterleave⟩ := hold ht
    exact hrank n u hu i (hinterleave ▸ hi)

theorem of_schema (hschema : db'.schema = db.schema) : db'.Rooted := by
  refine h.congr fun n ↦ ?_
  have hlookup (m : Database) : m.tables[n]?.map (·.schema.interleave) =
      m.schema[n]?.map (·.interleave) := by
    rw [getElem?_schema, Option.map_map]
    rfl
  rw [hlookup, hlookup, hschema]

/-- A table may be changed where it is, but for its parent. -/
theorem store {n : String} {t u : StoredTable} (ht : db.tables[n]? = some t)
    (hu : u.schema.interleave = t.schema.interleave) : (db.store n u).Rooted := by
  refine h.congr fun k ↦ ?_
  rw [getElem?_store]
  split
  · subst k
    rw [ht, Option.map_some, Option.map_some, hu]
  · rfl

/-- A new table ranks above its parent. No table is interleaved in it yet. -/
theorem store_new {n : String} {t : StoredTable} (hn : db.tables[n]? = none)
    (hparent : ∀ i ∈ t.schema.interleave, ∃ p, db.tables[i.parent]? = some p) :
    (db.store n t).Rooted := by
  have hne {m : String} {p : StoredTable} (hp : db.tables[m]? = some p) : n ≠ m := by
    rintro rfl
    rw [hn] at hp
    contradiction
  obtain ⟨rank, hrank⟩ := h.ranked
  refine ⟨fun m u hu i hi ↦ ?_, fun m ↦ if n = m then
    (t.schema.interleave.map fun i ↦ rank i.parent + 1).getD 0 else rank m, fun m u hu i hi ↦ ?_⟩
  all_goals
    rw [getElem?_store] at hu
    have hexists : ∃ p, db.tables[i.parent]? = some p := by
      split at hu
      · obtain rfl := Option.some.inj hu
        exact hparent i hi
      · exact h.parents m u hu i hi
    obtain ⟨p, hp⟩ := hexists
  · exact ⟨p, (getElem?_store ..).trans ((if_neg (hne hp)).trans hp)⟩
  · dsimp only
    rw [if_neg (hne hp)]
    split at hu
    · obtain rfl := Option.some.inj hu
      rw [if_pos ‹_›, Option.mem_def.1 hi]
      exact Nat.lt_succ_self _
    · rw [if_neg ‹_›]
      exact hrank m u hu i hi

/-- A table in which none is interleaved may go. -/
theorem erase {n : String} (hchild : db.child? n = none) :
    Rooted { db with tables := db.tables.erase n } := by
  have hold {m : String} {t : StoredTable} (ht : (db.tables.erase n)[m]? = some t) :
      db.tables[m]? = some t := by
    rw [Std.ExtTreeMap.getElem?_erase] at ht
    split at ht
    · contradiction
    · exact ht
  have hne {m : String} {t : StoredTable} (ht : db.tables[m]? = some t) {i : Interleave}
      (hi : i ∈ t.schema.interleave) : n ≠ i.parent := by
    rintro rfl
    have hmem : t.schema ∈ db.schema.values := mem_values.2 ⟨m, by rw [getElem?_schema, ht]; rfl⟩
    refine List.find?_eq_none.1 hchild _ hmem ?_
    rw [Option.mem_def.1 hi]
    exact beq_self_eq_true _
  obtain ⟨rank, hrank⟩ := h.ranked
  refine ⟨fun m t ht i hi ↦ ?_, rank, fun m t ht i hi ↦ hrank m t (hold ht) i hi⟩
  obtain ⟨p, hp⟩ := h.parents m t (hold ht) i hi
  refine ⟨p, ?_⟩
  rw [Std.ExtTreeMap.getElem?_erase,
    if_neg fun e ↦ hne (hold ht) hi (Std.LawfulEqOrd.compare_eq_iff_eq.1 e), hp]

/-- A table takes its rank with it. -/
theorem renamed {old new : String} {t : StoredTable} (ht : db.tables[old]? = some t)
    (hnew : db.tables[new]? = none) : (db.renamed old new t).Rooted := by
  have hne {m : String} {p : StoredTable} (hp : db.tables[m]? = some p) : new ≠ m := by
    rintro rfl
    rw [hnew] at hp
    contradiction
  obtain ⟨rank, hrank⟩ := h.ranked
  -- Every table of the database goes back to one that was there, under its old name and with its
  -- old parent.
  have hold {m : String} {u : StoredTable} (hu : (db.renamed old new t).tables[m]? = some u)
      {i : Interleave} (hi : i ∈ u.schema.interleave) :
      ∃ v j, db.tables[formerName old new m]? = some v ∧ j ∈ v.schema.interleave ∧
        i.parent = if j.parent = old then new else j.parent := by
    rcases renamed_cases hu with ⟨rfl, rfl⟩ | ⟨hm, -, v, hv, rfl⟩
    · refine ⟨t, i, (formerName_self old m).symm ▸ ht, hi, (if_neg fun e ↦ ?_).symm⟩
      exact Nat.lt_irrefl _ (e ▸ hrank old t ht i hi)
    · obtain ⟨j, hj, rfl⟩ := Option.map_eq_some_iff.1 hi
      refine ⟨v, j, (formerName_of_ne hm).symm ▸ hv, hj, ?_⟩
      split <;> rfl
  have hback {j : Interleave} {p : StoredTable} (hp : db.tables[j.parent]? = some p) :
      formerName old new (if j.parent = old then new else j.parent) = j.parent := by
    split
    · rename_i hj
      rw [formerName_self, hj]
    · exact formerName_of_ne (hne hp).symm
  refine ⟨fun m u hu i hi ↦ ?_, fun m ↦ rank (formerName old new m), fun m u hu i hi ↦ ?_⟩
  all_goals
    obtain ⟨v, j, hv, hj, hij⟩ := hold hu hi
    obtain ⟨p, hp⟩ := h.parents _ v hv j hj
  · rw [hij, getElem?_renamed]
    split
    · exact ⟨_, if_pos rfl⟩
    · rename_i hj
      rw [if_neg (hne hp), if_neg (Ne.symm hj), hp]
      exact ⟨_, rfl⟩
  · change rank (formerName old new i.parent) < rank (formerName old new m)
    rw [hij, hback hp]
    exact hrank _ v hv j hj

/-- Any text whatever is run to a rooted database or refused. -/
theorem run (hsound : db.Sound) {statement : String} (hok : db.run statement = .ok db') :
    db'.Rooted := by
  rw [Database.run] at hok
  split at hok
  case h_1 name ifNotExists _ =>
    rcases createTable_eq_ok hok with ⟨-, -, rfl⟩ | ⟨parsed, t, hnew, -, -, hparent, rfl⟩
    · exact h
    · exact h.store_new hnew hparent
  case h_2 name table _ =>
    obtain ⟨t, own, parsed, u, -, ht, hown, hparse, hu, rfl⟩ := createIndex_eq_ok hok
    obtain ⟨items, -, hlookup⟩ := (hsound.tables table t ht).schema.lookup_of_parse hown hparse
    rw [hsound.named table t ht, hu] at hlookup
    obtain rfl := Option.some.inj hlookup
    refine h.store ht ?_
    dsimp only
    rw [Table.foldl_registerIndex, Table.interleave_bare]
  case h_3 name ifExists _ =>
    rcases dropTable_eq_ok hok with ⟨-, rfl⟩ | ⟨t, -, hchild, rfl⟩
    · exact h
    · exact h.erase hchild
  case h_4 name _ =>
    obtain ⟨owner, t, -, ht, rfl⟩ := dropIndex_eq_ok hok
    exact h.store ht rfl
  case h_5 table action _ =>
    cases action with
    | addColumn text =>
      obtain ⟨c, t, -, ht, -, rfl⟩ := addColumn_eq_ok hok
      exact h.store ht rfl
    | dropColumn column =>
      obtain ⟨t, ht, -, -, -, rfl⟩ := dropColumn_eq_ok hok
      exact h.store ht rfl
    | allowCommitTimestamp column allowed =>
      obtain ⟨t, ht, -, rfl⟩ := allowCommitTimestamp_eq_ok hok
      exact h.store ht rfl
    | alterColumn text =>
      obtain ⟨c, t, -, ht, -, rfl⟩ := alterColumn_eq_ok hok
      exact h.store ht rfl
    | renameTo new =>
      obtain ⟨t, ht, hnew, rfl⟩ := renameTable_eq_ok hok
      exact h.renamed ht hnew
  all_goals contradiction

end Rooted

/-! ## The order of a dump -/

/-- As many steps as there are tables are enough to go up a chain of parents. -/
theorem depthFrom_succ {s : Schema} {rank : String → Nat}
    (hparents : ∀ (n : String) (t : Table), s[n]? = some t → ∀ i ∈ t.interleave,
      i.parent ∈ s.keys ∧ rank i.parent < rank n) {limit : Nat} {parent : Option String}
    (hlimit : ∀ p ∈ parent, p ∈ s.keys ∧ (s.keys.toFinset.filter (rank · ≤ rank p)).card ≤ limit) :
    depthFrom s (limit + 1) parent = depthFrom s limit parent := by
  induction limit generalizing parent with
  | zero =>
    cases parent with
    | none => rfl
    | some p =>
      obtain ⟨hp, hcard⟩ := hlimit p rfl
      have hempty := Finset.card_eq_zero.1 (Nat.le_zero.1 hcard)
      have hmem : p ∈ s.keys.toFinset.filter (rank · ≤ rank p) :=
        Finset.mem_filter.2 ⟨List.mem_toFinset.2 hp, Nat.le_refl _⟩
      rw [hempty] at hmem
      exact absurd hmem (Finset.notMem_empty p)
  | succ limit ih =>
    cases parent with
    | none => rfl
    | some p =>
      obtain ⟨hp, hcard⟩ := hlimit p rfl
      rw [depthFrom, depthFrom]
      refine congrArg (1 + ·) (ih fun q hq ↦ ?_)
      obtain ⟨t, ht, hq⟩ := Option.bind_eq_some_iff.1 hq
      obtain ⟨i, hi, rfl⟩ := Option.map_eq_some_iff.1 hq
      obtain ⟨hmem, hlt⟩ := hparents p t ht i hi
      -- The child itself does not rank as low as its parent, so there is one step less to go.
      have hsub : s.keys.toFinset.filter (rank · ≤ rank i.parent) ⊂
          s.keys.toFinset.filter (rank · ≤ rank p) := by
        refine Finset.ssubset_iff_subset_ne.2
          ⟨Finset.monotone_filter_right _ fun n _ hn ↦ hn.trans hlt.le, fun e ↦ ?_⟩
        have hp' : p ∈ s.keys.toFinset.filter (rank · ≤ rank p) :=
          Finset.mem_filter.2 ⟨List.mem_toFinset.2 hp, Nat.le_refl _⟩
        rw [← e] at hp'
        exact absurd (Finset.mem_filter.1 hp').2 (Nat.not_le.2 hlt)
      exact ⟨hmem, Nat.le_of_lt_succ ((Finset.card_lt_card hsub).trans_le hcard)⟩

theorem pairwise_dumpOrder (s : Schema) : (dumpOrder s).Pairwise (depth s · ≤ depth s ·) := by
  have hdepth {d : Nat} {t : Table} (ht : t ∈ s.values.filter (depth s · == d)) : depth s t = d :=
    beq_iff_eq.1 (List.mem_filter.1 ht).2
  refine List.pairwise_flatMap.2 ⟨fun d _ ↦ List.pairwise_of_forall_mem_list fun t ht u hu ↦ ?_, ?_⟩
  · exact Nat.le_of_eq ((hdepth ht).trans (hdepth hu).symm)
  · refine List.pairwise_lt_range.imp fun hlt t ht u hu ↦ ?_
    rw [hdepth ht, hdepth hu]
    exact Nat.le_of_lt hlt

namespace Rooted

variable (h : db.Rooted)

include h

/-- A child is one step deeper than its parent. -/
theorem depth_eq {t : Table} {i : Interleave} (hi : i ∈ t.interleave) {p : Table}
    (hp : db.schema[i.parent]? = some p) :
    depth db.schema t = 1 + depth db.schema p := by
  obtain ⟨rank, hrank⟩ := h.ranked
  have hparents (m : String) (u : Table) (hu : db.schema[m]? = some u) (j : Interleave)
      (hj : j ∈ u.interleave) : j.parent ∈ db.schema.keys ∧ rank j.parent < rank m := by
    rw [getElem?_schema] at hu
    obtain ⟨v, hv, rfl⟩ := Option.map_eq_some_iff.1 hu
    obtain ⟨q, hq⟩ := h.parents m v hv j hj
    refine ⟨Std.ExtTreeMap.mem_keys.2 (Std.ExtTreeMap.mem_iff_isSome_getElem?.2 ?_),
      hrank m v hv j hj⟩
    rw [getElem?_schema, hq]
    rfl
  have hcard (q : String) :
      (db.schema.keys.toFinset.filter (rank · ≤ rank q)).card ≤ db.schema.size := by
    refine (Finset.card_filter_le _ _).trans ((List.toFinset_card_le _).trans ?_)
    rw [Std.ExtTreeMap.length_keys]
  have hchain :
      depth db.schema t = 1 + depthFrom db.schema db.schema.size (p.interleave.map (·.parent)) := by
    rw [depth, Option.mem_def.1 hi, Option.map_some, depthFrom, hp]
    rfl
  rw [hchain, depth, depthFrom_succ hparents fun q hq ↦ ?_]
  obtain ⟨j, hj, rfl⟩ := Option.map_eq_some_iff.1 hq
  exact ⟨(hparents _ p hp j hj).1, hcard _⟩

/-- The dump of a database has every parent before its children. -/
theorem exists_before {xs ys : List Table} {t : Table} (hdump : dumpOrder db.schema = xs ++ t :: ys)
    {i : Interleave} (hi : i ∈ t.interleave) : ∃ p ∈ xs, db.schema[i.parent]? = some p := by
  have hmem : t ∈ dumpOrder db.schema := hdump ▸ List.mem_append_right _ List.mem_cons_self
  obtain ⟨n, ht⟩ := mem_dumpOrder.1 hmem
  rw [getElem?_schema] at ht
  obtain ⟨u, hu, rfl⟩ := Option.map_eq_some_iff.1 ht
  obtain ⟨q, hq⟩ := h.parents n u hu i hi
  have hp : db.schema[i.parent]? = some q.schema := by rw [getElem?_schema, hq]; rfl
  have hdepth := h.depth_eq hi hp
  refine ⟨q.schema, ?_, hp⟩
  have hpmem : q.schema ∈ xs ++ u.schema :: ys := hdump ▸ mem_dumpOrder.2 ⟨_, hp⟩
  have hsorted := pairwise_dumpOrder db.schema
  rw [hdump, List.pairwise_append, List.pairwise_cons] at hsorted
  rcases List.mem_append.1 hpmem with hmem | hmem
  · exact hmem
  · -- No table behind the child is less deep, and its parent is.
    rcases List.mem_cons.1 hmem with he | hmem
    · rw [he] at hdepth
      omega
    · have hle := hsorted.2.1.1 _ hmem
      omega

end Rooted

end Database

end SchemaLedger
