import KeyRack.Lib.Loop
import KeyRack.Sqlite.Reads

/-!
# Disabling a key

The one implementation behind the `DisableKey` handlers: the key itself is
disabled, and then, from a worklist, the enabled keys beneath it. A failure in the
middle keeps what was disabled before it. The clock gives the time at which a key
is disabled.
-/
namespace KeyRack.Service

open Loop Sqlite

structure DisableKeyResult where
  record : KeyRecord
  cascadeCount : Nat

/-- The variables of the cascade, with the tables it works on. -/
structure Cascade where
  db : Db
  -- the vector's end is the list's head
  queue : List Lid
  cascadeCount : Nat

/-- The loop body for one child of the key taken from the queue. -/
def disableChild (clock : Lid → DateTime) (s : Cascade) (child : KeyRecord) :
    Except (KeyRackError × Db) Cascade :=
  if child.state = .enabled then
    match child.transitionTo .disabled (clock child.lid) with
    | (.error _, _) => .ok s
    | (.ok _, child) =>
      match updateKey child s.db with
      | .error e => .error (.cascadeDisableFailed child.lid e, s.db)
      -- only a child that was changed here is looked beneath
      | .ok (_, db) => .ok ⟨db, child.lid :: s.queue, s.cascadeCount + 1⟩
  else .ok s

/-- One round of the cascade: take a key from the queue and go through its children. -/
def cascadeStep (clock : Lid → DateTime) (s : Cascade) :
    Except (KeyRackError × Db) (Control (Nat × Db) Cascade) :=
  match s.queue with
  | [] => .ok (.done (s.cascadeCount, s.db))
  | parent :: queue => do
    let s ← (listChildren s.db parent).foldlM (disableChild clock) { s with queue }
    return .next s

/-- The transition of the key itself. -/
def disableTarget (clock : Lid → DateTime) (lid : Lid) (db : Db) :
    Except KeyRackError (KeyRecord × Db) := do
  checkMigrationFence db lid
  let record ← getKeyForUse db lid
  let record ← Destruction.transition lid record .disabled (clock lid)
  let (_, db) ← updateKey record db
  return (record, db)

/-- Disable a key and cascade beneath it, with at most `fuel` rounds; `none` while the
    cascade is still running. -/
def disableKey (fuel : Nat) (clock : Lid → DateTime) (lid : Lid) (db : Db) :
    Option (EStateM.Result KeyRackError Db DisableKeyResult) :=
  match disableTarget clock lid db with
  | .error e => some (.error e db)
  | .ok (record, db) =>
    (run (cascadeStep clock) fuel ⟨db, [lid], 0⟩).map fun
      | .error (e, db) => .error e db
      | .ok (cascadeCount, db) => .ok ⟨record, cascadeCount⟩ db

end KeyRack.Service
