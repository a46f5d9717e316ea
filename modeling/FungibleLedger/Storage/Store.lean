import FungibleLedger.Storage.Dictionary

/-!
# Stores

A store maps keys to values. Two kinds hold records themselves: a memory store, which sorts when
it is scanned, and a table of rows in key order. A buffer over a store keeps writes back until they
are committed, and answers as if they had been made; buffers stack to any depth.

* `Store.get?`, `Store.scan` : reading one key, and all keys that begin with given bytes.
* `Store.set`, `Store.remove`, `Store.applyBatch` : writing. `Store.get?_write` says what a write
  changes.
* `Store.pending`, `Store.commit`, `Store.discard` : what a buffer holds back, and its end.
-/

namespace FungibleLedger

/-- A write: the key's new value, or none for its removal. -/
abbrev Mutation := Bytes × Option Bytes

/-! ## Tables -/

/-- The rows of a table, in key order. -/
abbrev Table := KeyMap Bytes

/-- The first bytes of a key, as a table's query takes them: nothing of the empty key. -/
def Table.leading? (key : Bytes) (length : Nat) : Option Bytes :=
  if key.isEmpty then none else some (key.take length)

/-- The rows whose leading bytes are given ones, in key order. The empty key has no leading bytes,
so no scan finds it. -/
def Table.scan (t : Table) (start : Bytes) : List (Bytes × Bytes) :=
  t.entries.filter fun row => Table.leading? row.1 start.length == some start

/-! ## Pending writes -/

/-- The writes that a buffer holds back: the keys in order of first write, and for each key the
last write. -/
structure Pending where
  order : List Bytes
  latest : Dictionary (Option Bytes)

namespace Pending

/-- No pending writes. -/
def empty : Pending := ⟨[], .empty⟩

/-- The pending writes after one more. -/
def record (p : Pending) (key : Bytes) (value : Option Bytes) : Pending where
  order := if (p.latest.get? key).isSome then p.order else p.order ++ [key]
  latest := p.latest.set key value

/-- The last write of each key, in order of first write. -/
def mutations (p : Pending) : List Mutation :=
  p.order.filterMap fun key => (p.latest.get? key).map (key, ·)

/-- The entries of a backing store that begin with given bytes, overlaid with the pending writes,
in key order. -/
def overlay (p : Pending) (start : Bytes) (backing : List (Bytes × Bytes)) :
    List (Bytes × Bytes) :=
  let merged := (p.latest.restrict (KeyMap.startsWith start)).entries.foldl
    (fun d (key, value) =>
      match value with
      | some v => d.set key v
      | none => d.remove key)
    (Dictionary.ofList backing)
  merged.toKeyMap.entries

end Pending

/-! ## Stores -/

/-- A store of records, or a buffer over a store. -/
inductive Store
  | memory (records : Dictionary Bytes)
  | table (rows : Table)
  | buffered (backing : Store) (pending : Pending)

namespace Store

/-- The value of a key. -/
def get? : Store → Bytes → Option Bytes
  | .memory records, key => records.get? key
  | .table rows, key => KeyMap.get? rows key
  | .buffered backing pending, key =>
    match pending.latest.get? key with
    | some value => value
    | none => backing.get? key

/-- A store after one write. -/
def write (s : Store) (key : Bytes) (value : Option Bytes) : Store :=
  match s, value with
  | .memory records, some v => .memory (records.set key v)
  | .memory records, none => .memory (records.remove key)
  | .table rows, some v => .table (rows.insert key v)
  | .table rows, none => .table (rows.erase key)
  | .buffered backing pending, value => .buffered backing (pending.record key value)

/-- A write shows under its key and nowhere else, whatever the store is. -/
theorem get?_write (s : Store) (key : Bytes) (value : Option Bytes) (k : Bytes) :
    (s.write key value).get? k = if k = key then value else s.get? k := by
  cases s with
  | memory records =>
    cases value with
    | none => exact records.get?_remove key k
    | some v => exact records.get?_set key v k
  | table rows =>
    cases value with
    | none => exact KeyMap.get?_erase rows key k
    | some v => exact KeyMap.get?_insert rows key v k
  | buffered backing pending =>
    simp only [write, get?, Pending.record, Dictionary.get?_set]
    by_cases h : k = key <;> simp [h]

/-- A store with one key set. -/
def set (s : Store) (key value : Bytes) : Store := s.write key (some value)

/-- A store without one key. -/
def remove (s : Store) (key : Bytes) : Store := s.write key none

/-- The entries whose key begins with given bytes, in key order. -/
def scan : Store → Bytes → List (Bytes × Bytes)
  | .memory records, start => (records.restrict (KeyMap.startsWith start)).toKeyMap.entries
  | .table rows, start => Table.scan rows start
  | .buffered backing pending, start => pending.overlay start (backing.scan start)

/-- A store after a list of writes, in order. -/
def applyBatch (s : Store) (mutations : List Mutation) : Store :=
  mutations.foldl (fun s (key, value) => s.write key value) s

/-- A buffer over a store, with nothing pending. -/
def buffer (backing : Store) : Store := .buffered backing .empty

/-- The writes that a buffer holds back. -/
def pending : Store → List Mutation
  | .buffered _ pending => pending.mutations
  | _ => []

/-- A buffer with its pending writes made, and how many they were. -/
def commit : Store → Nat × Store
  | .buffered backing pending =>
    (pending.mutations.length, .buffered (backing.applyBatch pending.mutations) .empty)
  | s => (0, s)

/-- A buffer with its pending writes dropped, and how many they were. -/
def discard : Store → Nat × Store
  | .buffered backing pending => (pending.order.length, .buffered backing .empty)
  | s => (0, s)

/-- The store under a buffer. -/
def backing : Store → Store
  | .buffered backing _ => backing
  | s => s

/-- The number of records that a memory store or a table holds. -/
def size : Store → Nat
  | .memory records => records.size
  | .table rows => KeyMap.size rows
  | .buffered backing _ => backing.size

end Store

end FungibleLedger
