import Mathlib
import SchemaLedger.Json.Decode

/-!
# Reading back what was written

A decoder inverts a writer if it reads every value from what the writer makes of it, in every
position and with the fields of all objects in any order. This is shown for each way to build a
decoder from others, so that for a type only its fields or its cases are left to be gone through.

A record is read field by field from an object that is not changed on the way. So all that has to
be known of the object is that it shows every field that was written exactly once.
-/

namespace SchemaLedger.Json

/-- The second value is the first with the fields of its objects in any order. -/
inductive Rearranged : Json → Json → Prop
  | null : Rearranged .null .null
  | bool (b : Bool) : Rearranged (.bool b) (.bool b)
  | number (n : Number) : Rearranged (.number n) (.number n)
  | string (s : String) : Rearranged (.string s) (.string s)
  | array {items items' : List Json} (h : List.Forall₂ Rearranged items items') :
    Rearranged (.array items) (.array items')
  | object {fields fields' order : List (String × Json)}
    (hnames : fields.map (·.1) = fields'.map (·.1))
    (h : List.Forall₂ Rearranged (fields.map (·.2)) (fields'.map (·.2)))
    (hperm : fields'.Perm order) :
    Rearranged (.object fields) (.object order)

namespace Rearranged

theorem eq_null {j : Json} (h : Rearranged .null j) : j = .null := by
  cases h; rfl

theorem eq_bool {b : Bool} {j : Json} (h : Rearranged (.bool b) j) : j = .bool b := by
  cases h; rfl

theorem eq_number {n : Number} {j : Json} (h : Rearranged (.number n) j) : j = .number n := by
  cases h; rfl

theorem eq_string {s : String} {j : Json} (h : Rearranged (.string s) j) : j = .string s := by
  cases h; rfl

theorem exists_array {items : List Json} {j : Json} (h : Rearranged (.array items) j) :
    ∃ items', j = .array items' ∧ List.Forall₂ Rearranged items items' := by
  cases h with
  | array h => exact ⟨_, rfl, h⟩

/-- There is only one order for one field. -/
theorem exists_singleton {name : String} {v j : Json} (h : Rearranged (.object [(name, v)]) j) :
    ∃ v', j = .object [(name, v')] ∧ Rearranged v v' := by
  cases h with
  | object hnames h hperm =>
    obtain ⟨⟨name', v'⟩, hfield, rfl⟩ := List.map_eq_singleton_iff.1 hnames.symm
    subst hfield
    obtain rfl := List.singleton_perm.1 hperm
    exact ⟨v', rfl, (List.forall₂_cons.1 h).1⟩

mutual
/-- A value is a rearrangement of itself. -/
theorem refl : (j : Json) → Rearranged j j
  | .null => .null
  | .bool b => .bool b
  | .number n => .number n
  | .string s => .string s
  | .array items => .array (refl_items items)
  | .object fields => .object rfl (refl_fields fields) (.refl _)
theorem refl_items : (items : List Json) → List.Forall₂ Rearranged items items
  | [] => .nil
  | j :: rest => .cons (refl j) (refl_items rest)
theorem refl_fields : (fields : List (String × Json)) →
    List.Forall₂ Rearranged (fields.map (·.2)) (fields.map (·.2))
  | [] => .nil
  | (_, j) :: rest => .cons (refl j) (refl_fields rest)
end

end Rearranged

/-! ## Objects that show fields -/

/-- Every one of the fields `known` stands among `fields` once, up to the order inside of its
value. -/
def Shows (fields known : List (String × Json)) : Prop :=
  ∀ f ∈ known, ∃ j, Rearranged f.2 j ∧ fields.filter (fun g ↦ g.1 == f.1) = [(f.1, j)]

/-- A name that is not repeated singles its field out. -/
theorem filter_name {fields : List (String × Json)} (hnodup : (fields.map (·.1)).Nodup)
    {f : String × Json} (hf : f ∈ fields) : fields.filter (fun g ↦ g.1 == f.1) = [f] := by
  induction fields with
  | nil => cases hf
  | cons g fields ih =>
    obtain ⟨hg, hrest⟩ := List.nodup_cons.1 hnodup
    rcases List.mem_cons.1 hf with rfl | hf
    · have hnone : fields.filter (fun g ↦ g.1 == f.1) = [] := by
        refine List.filter_eq_nil_iff.2 fun g' hg' heq ↦ hg ?_
        exact List.mem_map.2 ⟨g', hg', by simpa using heq⟩
      rw [List.filter_cons_of_pos (by simp), hnone]
    · have hne : g.1 ≠ f.1 := fun heq ↦ hg (List.mem_map.2 ⟨f, hf, heq.symm⟩)
      rw [List.filter_cons_of_neg (by simpa using hne), ih hrest hf]

/-- If no name is repeated, a rearranged object shows all fields. -/
theorem Rearranged.exists_shows {fields : List (String × Json)} {j : Json}
    (h : Rearranged (.object fields) j) (hnodup : (fields.map (·.1)).Nodup) :
    ∃ order, j = .object order ∧ Shows order fields := by
  cases h with
  | @object _ fields' order hnames h hperm =>
    have horder : (order.map (·.1)).Nodup := (hperm.map _).nodup (hnames ▸ hnodup)
    refine ⟨order, rfl, fun f hf ↦ ?_⟩
    -- The field at the same place in the other list has the same name.
    obtain ⟨i, hi, rfl⟩ := List.mem_iff_getElem.1 hf
    have hlength : fields.length = fields'.length := by simpa using congrArg List.length hnames
    have hi' : i < fields'.length := hlength ▸ hi
    have hname : fields[i].1 = fields'[i].1 := by
      have hname := List.getElem_of_eq hnames (by rwa [List.length_map])
      rwa [List.getElem_map, List.getElem_map] at hname
    have hvalue : Rearranged fields[i].2 fields'[i].2 := by
      have hvalue := h.get (by rwa [List.length_map]) (by rwa [List.length_map])
      rwa [List.get_eq_getElem, List.get_eq_getElem, List.getElem_map, List.getElem_map] at hvalue
    refine ⟨fields'[i].2, hvalue, ?_⟩
    rw [hname, filter_name horder (hperm.subset (List.getElem_mem hi'))]

/-! ## Decoders -/

variable {α β : Type}

/-- The decoder reads `a` from the value `v`, in every position and with its fields in any order. -/
def Decoder.Reads (d : Decoder α) (v : Json) (a : α) : Prop :=
  ∀ (p : Position) (j : Json), Rearranged v j → d p j = some a

/-- The decoder reads every value from what `write` makes of it. -/
def Decoder.Inverts (d : Decoder α) (write : α → Json) : Prop := ∀ a, d.Reads (write a) a

namespace Decoder

theorem inverts_string : Inverts .string Json.string := by
  intro s p j h
  rw [h.eq_string]
  rfl

theorem inverts_bool : Inverts .bool Json.bool := by
  intro b p j h
  rw [h.eq_bool]
  rfl

theorem inverts_uint32 : Inverts .uint32 fun n ↦ .ofNat n.toNat := by
  intro n p j h
  obtain rfl := h.eq_number
  have hnat : nat? (.ofNat n.toNat) = some n.toNat := by
    simp [nat?, ofNat]
  change (nat? (.ofNat n.toNat)).bind
    (fun m ↦ if m < UInt32.size then some (UInt32.ofNat m) else none) =
    some n
  rw [hnat, Option.bind_some, if_pos n.toNat_lt_size, UInt32.ofNat_toNat]

theorem Reads.map {d : Decoder α} {v : Json} {a : α} (h : d.Reads v a) (f : α → β) :
    (Decoder.map f d).Reads v (f a) :=
  fun p j hj ↦ congrArg (f <$> ·) (h p j hj)

theorem Inverts.list {d : Decoder α} {write : α → Json} (h : d.Inverts write) :
    d.list.Inverts fun xs ↦ .array (xs.map write) := by
  intro xs p j hj
  obtain ⟨items, rfl, hitems⟩ := hj.exists_array
  clear hj
  change items.mapM (d p) = some xs
  induction xs generalizing items with
  | nil =>
    obtain rfl := List.forall₂_nil_left_iff.1 hitems
    rfl
  | cons x xs ih =>
    obtain ⟨item, rest, hitem, hrest, rfl⟩ := List.forall₂_cons_left_iff.1 hitems
    rw [List.mapM_cons, h x p item hitem]
    change ((rest.mapM (d p)).bind fun ys ↦ some (x :: ys)) = _
    rw [ih rest hrest]
    rfl

/-- `null` can stand for a missing value if it does not stand for another one. -/
theorem Inverts.nullable {d : Decoder α} {write : α → Json} (h : d.Inverts write)
    (hnull : ∀ p, d p .null = none) : d.nullable.Inverts (ofOption write) := by
  intro a p j hj
  cases a with
  | none =>
    obtain rfl := hj.eq_null
    rfl
  | some a =>
    have hread : d p j = some a := h a p j hj
    have hne : j ≠ .null := by
      rintro rfl
      rw [hnull p] at hread
      cases hread
    change nullable? (d p) j = _
    rw [nullable?, hread]
    · rfl
    · exact hne

end Decoder

/-! ## Records -/

namespace RecordReader

/-- Reads a value off the fields and leaves them as they are. -/
def Yields (r : RecordReader α) (fields : List (String × Json)) (a : α) : Prop :=
  ∀ p, r p (.named fields) = some (a, .named fields)

namespace Yields

variable {fields : List (String × Json)} {a : α} {b : β}

theorem pure (a : α) : Yields (Pure.pure a) fields a := fun _ ↦ rfl

theorem bind {r : RecordReader α} {k : α → RecordReader β} (hr : Yields r fields a)
    (hk : Yields (k a) fields b) : Yields (r >>= k) fields b := by
  intro p
  change (r p (.named fields)).bind (fun x ↦ k x.1 p x.2) = _
  rw [hr p]
  exact hk p

theorem map {r : RecordReader α} (f : α → β) (hr : Yields r fields a) :
    Yields (f <$> r) fields (f a) := by
  rw [map_eq_pure_bind]
  exact hr.bind (.pure _)

theorem seq {f : α → β} {rf : RecordReader (α → β)} {r : RecordReader α} (hf : Yields rf fields f)
    (hr : Yields r fields a) : Yields (rf <*> r) fields (f a) := by
  rw [seq_eq_bind_map]
  exact hf.bind (hr.map f)

theorem take {name : String} {j : Json} (h : fields.filter (fun g ↦ g.1 == name) = [(name, j)]) :
    Yields (RecordReader.take name) fields (some j) := by
  intro p
  rw [RecordReader.take, h]

theorem take_none {name : String} (h : fields.filter (fun g ↦ g.1 == name) = []) :
    Yields (RecordReader.take name) fields none := by
  intro p
  rw [RecordReader.take, h]

theorem decode {d : Decoder α} {v j : Json} (h : d.Reads v a) (hj : Rearranged v j) :
    Yields (RecordReader.decode d j) fields a :=
  fun p ↦ congrArg ((·, Fields.named fields) <$> ·) (h p j hj)

theorem get : Yields MonadState.get fields (.named fields) := fun _ ↦ rfl

/-- A record is read from an object whose fields yield it. -/
theorem record_eq_some {r : RecordReader α} (h : Yields r fields a) (p : Position) :
    record r p (.object fields) = some a := by
  change r.runOn p (.named fields) = some a
  rw [RecordReader.runOn, h p]
  rfl

end Yields

end RecordReader

namespace Shows

open RecordReader

variable {fields known : List (String × Json)} {name : String} {d : Decoder α}

theorem field (h : Shows fields known) {v : Json} {a : α} (hd : d.Reads v a)
    (hmem : (name, v) ∈ known) :
    Yields (RecordReader.field name d) fields a := by
  obtain ⟨j, hj, hfilter⟩ := h _ hmem
  exact (Yields.take hfilter).bind (.decode hd hj)

theorem fieldD (h : Shows fields known) {v : Json} {a : α} (hd : d.Reads v a) (default : α)
    (hmem : (name, v) ∈ known) : Yields (RecordReader.fieldD name default d) fields a := by
  obtain ⟨j, hj, hfilter⟩ := h _ hmem
  exact (Yields.take hfilter).bind (.decode hd hj)

theorem optionalD (h : Shows fields known) {write : α → Json} (hd : d.Inverts write)
    (hnull : ∀ p, d p .null = none) {a : Option α} (hmem : (name, ofOption write a) ∈ known) :
    Yields (RecordReader.optionalD name d) fields a :=
  h.fieldD (hd.nullable hnull a) none hmem

end Shows

/-- A record whose fields have different names is read back. -/
theorem Decoder.Inverts.record {r : RecordReader α} {known : α → List (String × Json)}
    (hnodup : ∀ a, ((known a).map (·.1)).Nodup)
    (h : ∀ a fields, Shows fields (known a) → RecordReader.Yields r fields a) :
    (record r).Inverts fun a ↦ .object (known a) := by
  intro a p j hj
  obtain ⟨fields, rfl, hfields⟩ := hj.exists_shows (hnodup a)
  exact (h a fields hfields).record_eq_some p

/-! ## Choices -/

namespace Decoder

theorem reads_constant {cases : List (String × Case α)} {name : String} {a : α}
    (h : cases.lookup name = some (.constant a)) : (untagged cases).Reads (.string name) a := by
  intro p j hj
  obtain rfl := hj.eq_string
  rw [untagged, h]

theorem reads_content {cases : List (String × Case α)} {name : String} {d : Decoder α}
    (h : cases.lookup name = some (.content d)) {v : Json} {a : α} (hd : d.Reads v a) :
    (untagged cases).Reads (.object [(name, v)]) a := by
  intro p j hj
  obtain ⟨v', rfl, hv⟩ := hj.exists_singleton
  rw [untagged, h]
  exact hd p v' hv

theorem reads_tag {cases : List (String × α)} {name : String} {a : α}
    (h : cases.lookup name = some a) :
    (tag cases).Reads (.string name) a := by
  intro p j hj
  obtain rfl := hj.eq_string
  rw [tag, h]

/-- The fields of a case are read off an object that also has the name of the case. -/
theorem reads_tagged {name kind : String} {cases : List (String × RecordReader α)}
    {r : RecordReader α} (hcase : cases.lookup kind = some r) {known : List (String × Json)}
    (hnodup : (name :: known.map (·.1)).Nodup) {a : α}
    (h : ∀ fields, Shows fields known → RecordReader.Yields r fields a) :
    (tagged name cases).Reads (.object ((name, .string kind) :: known)) a := by
  intro p j hj
  obtain ⟨fields, rfl, hfields⟩ := hj.exists_shows hnodup
  have hkind := hfields.field (reads_tag hcase) List.mem_cons_self
  have hrest : Shows fields known := fun f hf ↦ hfields f (List.mem_cons_of_mem _ hf)
  exact (hkind.bind fun _ ↦ h fields hrest .inner).record_eq_some p

theorem lookup_constants {cases : List (String × Case α)} {kind : String} {c : Case α}
    (h : cases.lookup kind = some c) :
    (cases.map fun c ↦ (c.1, Case.constant c.2)).lookup kind = some (.constant c) := by
  induction cases with
  | nil => cases h
  | cons head cases ih =>
    rw [List.lookup_cons] at h
    rw [List.map_cons, List.lookup_cons]
    cases hkind : kind == head.1 with
    | true =>
      rw [hkind] at h
      exact congrArg (fun c ↦ some (Case.constant c)) (Option.some.inj h)
    | false =>
      rw [hkind] at h
      exact ih h

/-- A constant stands alone, without the field of a content. -/
theorem reads_withContent_constant {name content kind : String} {cases : List (String × Case α)}
    {a : α} (hcase : cases.lookup kind = some (.constant a)) (hne : name ≠ content) :
    (withContent name content cases).Reads (.object [(name, .string kind)]) a := by
  intro p j hj
  obtain ⟨fields, rfl, hfields⟩ := hj.exists_shows (List.nodup_singleton _)
  have hkind := hfields.field (reads_constant (lookup_constants hcase)) List.mem_cons_self
  have hnone : fields.filter (fun g ↦ g.1 == content) = [] := by
    obtain ⟨v, hv, -⟩ := hj.exists_singleton
    obtain rfl := Json.object.inj hv
    simpa using hne
  exact (hkind.bind
    (RecordReader.Yields.get.bind (.bind (.take_none hnone) (.pure a)))).record_eq_some p

theorem reads_withContent {name content kind : String} {cases : List (String × Case α)}
    {d : Decoder α}
    (hcase : cases.lookup kind = some (.content d)) (hne : name ≠ content) {v : Json} {a : α}
    (hd : d.Reads v a) :
    (withContent name content cases).Reads (.object [(name, .string kind), (content, v)]) a := by
  intro p j hj
  obtain ⟨fields, rfl, hfields⟩ := hj.exists_shows (by simpa using hne)
  have hkind := hfields.field (reads_constant (lookup_constants hcase)) List.mem_cons_self
  obtain ⟨v', hv, hfilter⟩ := hfields (content, v) (by simp)
  exact (hkind.bind
    (RecordReader.Yields.get.bind (.bind (.take hfilter) (.decode hd hv)))).record_eq_some p

end Decoder

end SchemaLedger.Json
