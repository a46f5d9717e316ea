import FungibleLedger.Storage.KeyMap

/-!
# Dictionaries in order of first write

A map from byte strings that keeps its entries in the order in which their keys were first
written. A key that is removed and written again goes to the end.

* `Dictionary.get?`, `Dictionary.set`, `Dictionary.remove` : looking up, setting and removing.
* `Dictionary.toKeyMap` : the same entries in key order.
-/

namespace FungibleLedger

/-- Entries with distinct keys, in order of first write. -/
structure Dictionary (α : Type) where
  entries : List (Bytes × α)
  distinct : (entries.map (·.1)).Nodup

namespace Dictionary

variable {α : Type}

/-- A list of entries with one key set: in its old place, or at the end. -/
def write (key : Bytes) (value : α) : List (Bytes × α) → List (Bytes × α)
  | [] => [(key, value)]
  | (k, v) :: rest => if k = key then (key, value) :: rest else (k, v) :: write key value rest

theorem mem_keys_write {key : Bytes} {value : α} {entries : List (Bytes × α)} {k : Bytes} :
    k ∈ (write key value entries).map (·.1) ↔ k = key ∨ k ∈ entries.map (·.1) := by
  induction entries with
  | nil => simp [write]
  | cons head rest ih =>
    obtain ⟨k', v'⟩ := head
    rw [write]
    grind

theorem write_distinct (key : Bytes) (value : α) {entries : List (Bytes × α)}
    (h : (entries.map (·.1)).Nodup) : ((write key value entries).map (·.1)).Nodup := by
  induction entries with
  | nil => simp [write]
  | cons head rest ih =>
    obtain ⟨k, v⟩ := head
    obtain ⟨hnot, hrest⟩ := List.nodup_cons.1 h
    rw [write]
    split
    · next heq =>
      subst heq
      exact List.nodup_cons.2 ⟨hnot, hrest⟩
    · next hne =>
      refine List.nodup_cons.2 ⟨fun hmem => ?_, ih hrest⟩
      rcases mem_keys_write.1 hmem with heq | hmem
      · exact hne heq
      · exact hnot hmem

theorem find_write (key : Bytes) (value : α) (entries : List (Bytes × α)) (k : Bytes) :
    KeyMap.find k (write key value entries) =
      if k = key then some value else KeyMap.find k entries := by
  induction entries with
  | nil => simp [write, KeyMap.find, eq_comm]
  | cons head rest ih =>
    obtain ⟨k', v'⟩ := head
    rw [write]
    grind [KeyMap.find]

/-- The dictionary without entries. -/
def empty : Dictionary α := ⟨[], .nil⟩

/-- The value of a key. -/
def get? (d : Dictionary α) (key : Bytes) : Option α :=
  KeyMap.find key d.entries

/-- A dictionary with one key set. -/
def set (d : Dictionary α) (key : Bytes) (value : α) : Dictionary α :=
  ⟨write key value d.entries, write_distinct key value d.distinct⟩

/-- A dictionary without one key. -/
def remove (d : Dictionary α) (key : Bytes) : Dictionary α :=
  ⟨d.entries.filter (·.1 ≠ key), d.distinct.sublist ((List.filter_sublist).map _)⟩

/-- How many keys a dictionary has. -/
def size (d : Dictionary α) : Nat := d.entries.length

/-- A dictionary of the entries of a list; of two with one key the later stays. -/
def ofList (entries : List (Bytes × α)) : Dictionary α :=
  entries.foldl (fun d entry => d.set entry.1 entry.2) empty

/-- The entries whose key passes a test. -/
def restrict (d : Dictionary α) (keep : Bytes → Bool) : Dictionary α :=
  ⟨d.entries.filter fun entry => keep entry.1, d.distinct.sublist ((List.filter_sublist).map _)⟩

/-- The same entries in key order. -/
def toKeyMap (d : Dictionary α) : KeyMap α :=
  d.entries.foldl (fun m entry => m.insert entry.1 entry.2) .empty

@[simp] theorem get?_empty (key : Bytes) : (empty : Dictionary α).get? key = none := rfl

theorem get?_set (d : Dictionary α) (key : Bytes) (value : α) (k : Bytes) :
    (d.set key value).get? k = if k = key then some value else d.get? k :=
  find_write key value d.entries k

theorem get?_remove (d : Dictionary α) (key k : Bytes) :
    (d.remove key).get? k = if k = key then none else d.get? k :=
  KeyMap.find_filter key d.entries k

end Dictionary

end FungibleLedger
