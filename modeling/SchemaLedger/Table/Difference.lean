import SchemaLedger.Table

/-!
# Differences between tables

Two descriptions of a table are compared to find out whether one has to be changed into the
other. Three things do not count: the order of the indices, what only repeats other parts
(`uniques` and foreign keys), and the generation of a column for which either side says UUID, since
those values are made by the application whatever is stored.
-/

namespace SchemaLedger

namespace Column

/-- Everything of a column but its generation. -/
def withoutGeneration (c : Column) : Column := { c with generation := none }

/-- Describes another column than `d`. -/
def differs (c d : Column) : Bool :=
  c.withoutGeneration != d.withoutGeneration ||
    (c.generation != some .uuid && d.generation != some .uuid && c.generation != d.generation)

end Column

namespace Table

/-- The indices in ascending order of their names; those of one name stay in order. -/
def sortedIndices (t : Table) : List Index :=
  t.indices.mergeSort fun i j ↦ !decide (j.name < i.name)

/-- Describes another table than `u`. -/
def differs (t u : Table) : Bool :=
  t.name != u.name || t.primaryKey != u.primaryKey || t.columns.length != u.columns.length ||
    t.interleave != u.interleave || (t.columns.zip u.columns).any (fun p ↦ p.1.differs p.2) ||
    t.sortedIndices != u.sortedIndices

end Table

end SchemaLedger
