import KeyRack.Sqlite.Storage

/-!
# Reads of the storage backend, and calls as a caller sees them

The reads take one consistent view of the tables and change nothing. A caller of
the backend may also see a call fail before it ran, or lose the reply of a call
that committed.
-/
namespace KeyRack.Sqlite

open Fallible

/-! ### Keys -/

def getKey (db : Db) (lid : Lid) : Except KeyRackError KeyRecord := do
  let (_, row) ← okOr (db.keys.select? (· == lid)) (.keyNotFound lid)
  return row.record

/-- The backend has no record cache to bypass. -/
def getKeyForUse (db : Db) (lid : Lid) : Except KeyRackError KeyRecord := getKey db lid

def checkMigrationFence (db : Db) (lid : Lid) : Except KeyRackError Unit := Migration.guard db lid

/-- `SELECT record_json FROM keys`, in the order the table yields its rows. -/
def storedRecords (db : Db) : List KeyRecord := db.keys.rows.map fun row => row.2.record

def listChildren (db : Db) (parent : Lid) : List KeyRecord :=
  (storedRecords db).filter fun record => record.parentLid == some parent

/-- Filter for listing keys. -/
structure KeyFilter where
  userTags : List (String × String) := []
  state : Option KeyState := none
  ownerPrincipalId : Option String := none
  limit : Option Nat := none
  cursor : Option String := none

/-- Page of results for list operations. -/
structure Page (α : Type) where
  items : List α
  nextCursor : Option String

namespace KeyFilter

def ownerOk (filter : KeyFilter) (record : KeyRecord) : Bool :=
  filter.ownerPrincipalId.isNone || record.ownerPrincipalId.isNone ||
    record.ownerPrincipalId == filter.ownerPrincipalId

/-- The conditions that the loop over the rows checks. -/
def admits (filter : KeyFilter) (record : KeyRecord) : Bool :=
  filter.state.all (· == record.state) && filter.ownerOk record &&
    filter.userTags.all fun (tag, value) => record.userTags.get? tag == some value

end KeyFilter

/-- The limit is applied by the query, the conditions to the rows it returned. -/
def listKeys (db : Db) (filter : KeyFilter) : Page KeyRecord where
  items := ((storedRecords db).take (filter.limit.getD 100)).filter filter.admits
  nextCursor := none

/-! ### Creations -/

variable [UuidText] [Blake3] [IntentEncoding]

/-- Journal and bytes come from one row. -/
def creationSnapshot (db : Db) (operation : Uuid) (owner : CreationOwner) :
    Except KeyRackError CreationSnapshot := do
  let row ← okOr (Creation.storedJournal db operation) (invalid "creation not found")
  let value ← Creation.decode row
  CreationSnapshot.new value row.2.envelope owner

/-! ### Calls -/

/-- What a caller may see of an operation: its result, an error before it ran, or an
    error after it ran. -/
inductive Attempt {α : Type} (op : Op) (form : α → Reply) (db : Db) :
    Except KeyRackError α → Db → Prop where
  | returned (result : Except KeyRackError α) (db' : Db)
      (step : StorageStep db (op, result.map form) db') : Attempt op form db result db'
  | failed (e : KeyRackError) : Attempt op form db (.error e) db
  | lost (outcome : Except KeyRackError Reply) (e : KeyRackError) (db' : Db)
      (step : StorageStep db (op, outcome) db') : Attempt op form db (.error e) db'

/-- What a caller may see of a read. -/
def ReadAttempt {α : Type} (value result : Except KeyRackError α) : Prop :=
  result = value ∨ ∃ e, result = .error e

/-- A call leaves the tables alone or runs its operation; a reply is the operation's. -/
theorem Attempt.cases (attempt : Attempt op form db result db') :
    (db' = db ∧ ∃ e, result = .error e) ∨
      ∃ outcome, StorageStep db (op, outcome) db' ∧
        ∀ value, result = .ok value → outcome = .ok (form value) := by
  cases attempt with
  | returned _ _ step =>
    refine Or.inr ⟨_, step, ?_⟩
    rintro _ rfl
    rfl
  | failed e => exact Or.inl ⟨rfl, e, rfl⟩
  | lost outcome e _ step =>
    exact Or.inr ⟨outcome, step, nofun⟩

/-- A transaction with the result that its caller gets. -/
def settle {α : Type} (body : Db → Except KeyRackError (α × Db)) (db : Db) :
    Except KeyRackError α × Db :=
  match body db with
  | .ok (value, db') => (.ok value, db')
  | .error e => (.error e, db)

theorem Attempt.settle (runs : op.run = transact body (.ok ∘ form))
    (db : Db) : Attempt op form db (settle body db).1 (settle body db).2 := by
  refine .returned _ _ ?_
  unfold StorageStep
  rw [runs, transact, Sqlite.settle]
  cases body db with
  | ok => rfl
  | error => rfl

end KeyRack.Sqlite
