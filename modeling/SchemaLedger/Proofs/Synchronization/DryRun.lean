import Mathlib
import SchemaLedger.Proofs.Synchronization.Settled

/-!
# Dry runs

Three parts of a pass write to a database: the one that makes sure of the side table, the one that
executes statements, and the one that carries out a difference. Each of them asks for itself whether
the run is dry, and what comes after it goes on as if nothing had been passed over, with a side
table that was not created and tables that were not changed. All the same a dry run leaves the
database as it was. This does not depend on how far it gets: every program on the way keeps each
property of the database, so the database that is there in the end is the first one, with its rows,
its statements and its count of writes.
-/

namespace SchemaLedger

namespace Pass

section

variable {o : PassOptions} {q : Database → Prop} (hdry : o.dryRun = true)

include hdry

theorem keeps_createAndLoad_of_dryRun : Keeps (fun s ↦ q s.database) (createAndLoad o) := by
  refine .bind (keeps_ofExcept _) fun lowered ↦ .ite (fun _ ↦ .get_bind fun s ↦ ?_) fun h ↦
    absurd hdry h
  -- The side table is loaded if it is cached, and taken for an empty one otherwise.
  exact .ite (fun _ ↦ keeps_load) fun _ ↦
    .bind (fun _ hs ↦ hs) fun _ ↦ .bind (fun _ hs ↦ hs) fun _ ↦ .pure ∅

theorem keeps_executeDdl_of_dryRun (statements : List Statement) (ignoreMissing : Bool) :
    Keeps (fun s ↦ q s.database) (executeDdl o statements ignoreMissing) := by
  intro s hs
  cases hlower : Statement.lowerAll statements with
  | error e =>
    rw [ending_of_error (executeDdl_of_error hlower ignoreMissing s)]
    exact hs
  | ok l =>
    by_cases hnil : l.sql = []
    · rw [ending_of_ok (executeDdl_of_nil hlower hnil ignoreMissing s)]
      exact hs
    · rw [ending_of_ok (executeDdl_of_dryRun hlower hdry hnil ignoreMissing s)]
      exact hs

theorem keeps_write_of_dryRun (d : Diff) : Keeps (fun s ↦ q s.database) (write o d) := by
  refine .ite (fun _ ↦ .pure _) fun _ ↦ .bind (fun _ hs ↦ hs) fun _ ↦ .ite (fun _ ↦ ?_) fun h ↦
    absurd hdry h
  exact .bind (fun _ hs ↦ hs) fun _ ↦ .pure _

theorem keeps_synchronize_of_dryRun (entities : List Entity) (statements : List Statement)
    (ignoreMissing : Bool) :
    Keeps (fun s ↦ q s.database) (synchronize o entities statements ignoreMissing) := by
  have hsteady : Steady fun s ↦ q s.database := fun _ _ _ hs ↦ hs
  have hreload := hsteady.reloadTables
  exact .bind (hsteady.note _) fun _ ↦ .bind (hreload true) fun _ ↦
    .bind (keeps_createAndLoad_of_dryRun hdry) fun _ ↦
    .bind (keeps_executeDdl_of_dryRun hdry statements ignoreMissing) fun _ ↦
    .bind (hreload ignoreMissing) fun _ ↦
    .bind (keeps_syncEntities (keeps_write_of_dryRun hdry) entities ignoreMissing) fun _ ↦
    .bind (hreload ignoreMissing) fun _ ↦ .bind (hsteady.note _) fun _ ↦ .pure _

end

/-- Whatever comes of it, a dry run ends with the database that it started from, and so does each of
its parts. -/
theorem database_of_dryRun (o : PassOptions) (entities : List Entity) (statements : List Statement)
    (delta : Delta) (ignoreMissing : Bool) (s : Site) :
    let dry : PassOptions := { o with dryRun := true }
    (ending (executeDdl dry statements ignoreMissing) s).database = s.database ∧
      (ending (reloadTables ignoreMissing) s).database = s.database ∧
      (ending (synchronize dry entities statements ignoreMissing) s).database = s.database ∧
      (ending (createAndLoad dry) s).database = s.database ∧
      (ending (syncEntities dry entities ignoreMissing) s).database = s.database ∧
      (ending (applyDelta dry delta ignoreMissing) s).database = s.database := by
  intro dry
  have hdry : dry.dryRun = true := rfl
  have hsteady : Steady fun t ↦ t.database = s.database := fun _ _ _ ht ↦ ht
  have hwrite (d : Diff) : Keeps (fun t ↦ t.database = s.database) (write dry d) :=
    keeps_write_of_dryRun (q := (· = s.database)) hdry d
  refine ⟨?_, ?_, ?_, ?_, ?_, ?_⟩
  · exact keeps_executeDdl_of_dryRun (q := (· = s.database)) hdry statements ignoreMissing s rfl
  · exact hsteady.reloadTables ignoreMissing s rfl
  · exact keeps_synchronize_of_dryRun (q := (· = s.database)) hdry entities statements
      ignoreMissing s rfl
  · exact keeps_createAndLoad_of_dryRun (q := (· = s.database)) hdry s rfl
  · exact keeps_syncEntities (q := (· = s.database)) hwrite entities ignoreMissing s rfl
  · exact keeps_applyDelta (q := (· = s.database)) hwrite delta ignoreMissing s rfl

end Pass

end SchemaLedger
