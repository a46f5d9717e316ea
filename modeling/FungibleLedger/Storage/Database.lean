import FungibleLedger.Storage.Store

/-!
# Databases

A database holds a table once it has been set up. Writes come in batches, and a batch is
written as a whole or not at all.

* `Database.setUp` : the database with its table.
* `Database.fetch`, `Database.scan` : reading.
* `Database.write` : a batch in one transaction. A key or a value of it may be unstorable.
-/

namespace FungibleLedger

/-- A database: its table, if it has been set up. -/
abbrev Database := Option Table

namespace Database

/-- A key or a value offered to a database. -/
inductive Cell
  | blob (bytes : Bytes)
  | unstorable
deriving DecidableEq

/-- A write as it is offered: a key with its new value, or with none if it is to be removed. -/
abbrev Write := Cell × Option Cell

/-- Why a database refuses. -/
inductive Fault
  | noTable
  | unstorable
deriving DecidableEq

/-- A database that has not been set up. -/
def fresh : Database := none

/-- A database with its table. -/
def setUp (db : Database) : Database := some (db.getD .empty)

/-- The value of a key. -/
def fetch (db : Database) (key : Bytes) : Except Fault (Option Bytes) :=
  match db with
  | none => .error .noTable
  | some rows => .ok (KeyMap.get? rows key)

/-- The rows whose key begins with given bytes, in key order. -/
def scan (db : Database) (start : Bytes) : Except Fault (List (Bytes × Bytes)) :=
  match db with
  | none => .error .noTable
  | some rows => .ok (Table.scan rows start)

/-- One write inside a transaction. -/
def apply (rows : Table) : Write → Except Fault Table
  | (.blob key, none) => .ok (KeyMap.erase rows key)
  | (.blob key, some (.blob value)) => .ok (KeyMap.insert rows key value)
  | (.blob _, some .unstorable) => .error .unstorable
  | (.unstorable, _) => .error .unstorable

/-- The rows after the writes of a transaction, in order, up to the first that fails. -/
def applyAll (rows : Table) : List Write → Except Fault Table
  | [] => .ok rows
  | mutation :: rest =>
    match apply rows mutation with
    | .error fault => .error fault
    | .ok rows => applyAll rows rest

/-- A batch in one transaction: how many writes it has and the database after it. A batch that
fails leaves the database as it was; an empty batch asks nothing of it. -/
def write (db : Database) (batch : List Write) : Except Fault Nat × Database :=
  match batch, db with
  | [], db => (.ok 0, db)
  | _ :: _, none => (.error .noTable, none)
  | batch, some rows =>
    match applyAll rows batch with
    | .error fault => (.error fault, some rows)
    | .ok rows => (.ok batch.length, some rows)

end Database

end FungibleLedger
