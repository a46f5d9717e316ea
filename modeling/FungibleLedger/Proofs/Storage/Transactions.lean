import FungibleLedger.Proofs.Storage.Backends
import FungibleLedger.Proofs.Storage.Overlay
import FungibleLedger.Storage.Database

/-!
# Batches of writes to a database

A batch of writes is made in one transaction. If the database can store all of them, they are made,
in order; if there is one that it cannot store, because of its key or of its value, the writes
before it have been made to the rows of the transaction, and rolling it back gives the rows that it
began with (`Database.write_all_or_nothing`).

* `Database.Storable`, `Database.offered` : a write that can be stored, and writes of this kind.
* `Database.Transaction` : the rows at the beginning and the rows now; `Transaction.runAll` makes
  writes up to the first that fails, and `Database.write_eq_runAll` says that a batch is a
  transaction that is committed or rolled back.
* `Database.write_eq_applyBatch` : a store over the rows takes a batch as the database does.

A batch is split at its first write that cannot be stored (`offered_or_split`). What a transaction
does with the part before it is shown by induction, one write after another.
-/

namespace FungibleLedger

/-! ## One by one -/

theorem Store.applyBatch_memory (records : Dictionary Bytes) (mutations : List Mutation) :
    ∃ records', (Store.memory records).applyBatch mutations = .memory records' ∧
      records'.toKeyMap = records.toKeyMap.writeAll mutations := by
  obtain ⟨records', hafter⟩ := exists_applyBatch_memory records mutations
  refine ⟨records', hafter, KeyMap.ext_get? fun key => ?_⟩
  have hget : (Store.memory records').get? key =
      (KeyMap.find key mutations.reverse).getD ((Store.memory records).get? key) := by
    rw [← hafter, get?_applyBatch]
  rw [Dictionary.get?_toKeyMap, KeyMap.get?_writeAll, Dictionary.get?_toKeyMap]
  exact hget

namespace Database

/-- Writes that can be stored, as a database is given them. -/
def offered (mutations : List Mutation) : List Write :=
  mutations.map fun (key, value) => (.blob key, value.map .blob)

/-- Whether a write can be stored: its key is bytes, and so is its value if it has one. -/
def Storable (write : Write) : Prop := write.1 ≠ .unstorable ∧ write.2 ≠ some .unstorable

instance (write : Write) : Decidable (Storable write) :=
  inferInstanceAs (Decidable (_ ∧ _))

theorem storable_iff {write : Write} :
    Storable write ↔
      ∃ key : Bytes, ∃ value : Option Bytes, write = (.blob key, value.map .blob) := by
  obtain ⟨key, value⟩ := write
  constructor
  · rintro ⟨hkey, hvalue⟩
    cases key with
    | unstorable => exact absurd rfl hkey
    | blob key =>
      rcases value with _ | ⟨value⟩ | _
      · exact ⟨key, none, rfl⟩
      · exact ⟨key, some value, rfl⟩
      · exact absurd rfl hvalue
  · rintro ⟨key, value, heq⟩
    obtain ⟨rfl, rfl⟩ := Prod.mk.inj heq
    cases value <;> simp [Storable]

theorem storable_of_mem_offered {mutations : List Mutation} {write : Write}
    (h : write ∈ offered mutations) : Storable write := by
  obtain ⟨⟨key, value⟩, -, rfl⟩ := List.mem_map.1 h
  exact storable_iff.2 ⟨key, value, rfl⟩

/-- A batch can be stored, or has a first write that cannot. -/
theorem offered_or_split (batch : List Write) :
    (∃ mutations, batch = offered mutations) ∨
      ∃ earlier write later, batch = offered earlier ++ write :: later ∧ ¬ Storable write := by
  induction batch with
  | nil => exact .inl ⟨[], rfl⟩
  | cons write rest ih =>
    by_cases hwrite : Storable write
    · obtain ⟨key, value, rfl⟩ := storable_iff.1 hwrite
      rcases ih with ⟨mutations, rfl⟩ | ⟨earlier, write', later, rfl, hwrite'⟩
      · exact .inl ⟨(key, value) :: mutations, rfl⟩
      · exact .inr ⟨(key, value) :: earlier, write', later, rfl, hwrite'⟩
    · exact .inr ⟨[], write, rest, rfl, hwrite⟩

/-- A write that cannot be stored fails. -/
theorem apply_of_not_storable {write : Write} (h : ¬ Storable write) (rows : Table) :
    apply rows write = .error .unstorable := by
  unfold apply
  split
  · next key => exact absurd (storable_iff.2 ⟨key, none, rfl⟩) h
  · next key value => exact absurd (storable_iff.2 ⟨key, some value, rfl⟩) h
  · rfl
  · rfl

/-! ## Transactions -/

/-- A transaction: the rows that it began with, and the rows that its writes have led to. -/
structure Transaction where
  before : Table
  rows : Table

namespace Transaction

/-- A transaction that has made no write. -/
def start (rows : Table) : Transaction := ⟨rows, rows⟩

/-- The writes of a batch, one after another up to the first that fails: how it failed, if it did,
and the transaction as it then is. -/
def runAll (t : Transaction) : List Write → Option Fault × Transaction
  | [] => (none, t)
  | write :: rest =>
    match apply t.rows write with
    | .error fault => (some fault, t)
    | .ok rows => runAll { t with rows := rows } rest

/-- The rows of a transaction that is committed. -/
def commit (t : Transaction) : Table := t.rows

/-- The rows of a transaction that is rolled back. -/
def rollback (t : Transaction) : Table := t.before

theorem before_runAll (t : Transaction) (batch : List Write) :
    (t.runAll batch).2.before = t.before := by
  induction batch generalizing t with
  | nil => rfl
  | cons write rest ih =>
    rw [runAll]
    split
    · rfl
    · exact ih _

theorem applyAll_eq_runAll (t : Transaction) (batch : List Write) :
    applyAll t.rows batch =
      match t.runAll batch with
      | (none, t') => .ok t'.rows
      | (some fault, _) => .error fault := by
  induction batch generalizing t with
  | nil => rfl
  | cons write rest ih =>
    rw [applyAll, runAll]
    cases apply t.rows write with
    | error fault => rfl
    | ok rows => exact ih { t with rows := rows }

/-- Writes that can be stored are made, in order, before what comes after them. -/
theorem runAll_offered (t : Transaction) (mutations : List Mutation)
    (rest : List Write) :
    t.runAll (offered mutations ++ rest) =
      { t with rows := KeyMap.writeAll t.rows mutations }.runAll rest := by
  induction mutations generalizing t with
  | nil => rfl
  | cons mutation mutations ih =>
    obtain ⟨key, value⟩ := mutation
    cases value with
    | none => exact ih { t with rows := KeyMap.erase t.rows key }
    | some v => exact ih { t with rows := KeyMap.insert t.rows key v }

end Transaction

/-- A batch is a transaction on the rows, committed if all of its writes are made and rolled back if
one of them fails. -/
theorem write_eq_runAll (rows : Table) (batch : List Write) :
    write (some rows) batch =
      match (Transaction.start rows).runAll batch with
      | (none, t) => (.ok batch.length, some t.commit)
      | (some fault, t) => (.error fault, some t.rollback) := by
  have hwrite : write (some rows) batch =
      match applyAll rows batch with
      | .error fault => (.error fault, some rows)
      | .ok rows => (.ok batch.length, some rows) := by
    cases batch <;> rfl
  have happly : applyAll rows batch = _ := (Transaction.start rows).applyAll_eq_runAll batch
  have hbefore := (Transaction.start rows).before_runAll batch
  rw [hwrite, happly]
  generalize (Transaction.start rows).runAll batch = ran at hbefore
  obtain ⟨_ | fault, t⟩ := ran
  · rfl
  · obtain rfl : t.before = rows := hbefore
    rfl

/-! ## All or nothing -/

theorem write_offered (rows : Table) (mutations : List Mutation) :
    write (some rows) (offered mutations) =
      (.ok (offered mutations).length, some (KeyMap.writeAll rows mutations)) := by
  have hrun := (Transaction.start rows).runAll_offered mutations []
  rw [List.append_nil] at hrun
  rw [write_eq_runAll, hrun]
  rfl

theorem runAll_split {write : Write} (hwrite : ¬ Storable write) (rows : Table)
    (earlier : List Mutation) (later : List Write) :
    (Transaction.start rows).runAll (offered earlier ++ write :: later) =
      (some .unstorable, ⟨rows, KeyMap.writeAll rows earlier⟩) := by
  rw [Transaction.runAll_offered, Transaction.runAll, apply_of_not_storable hwrite]
  rfl

/-- A store over the rows takes a batch as the database does. -/
theorem write_eq_applyBatch (rows : Table) (mutations : List Mutation) :
    ∃ rows', (Store.table rows).applyBatch mutations = .table rows' ∧
      write (some rows) (offered mutations) = (.ok mutations.length, some rows') := by
  refine ⟨_, Store.applyBatch_table rows mutations, ?_⟩
  rw [write_offered, offered, List.length_map]

/-- A batch that a database can store is written as a whole: its length is the answer, and the rows
are the old ones with the writes made one after another, as they are made to a dictionary, so that
of each key the last write stays. If there is a write that cannot be stored, the writes before it
have been made in the transaction, the call fails, and the database reads as it did before. -/
theorem write_all_or_nothing (rows : Table) (batch : List Write) :
    let after := write (some rows) batch
    ((∀ write ∈ batch, Storable write) →
      ∃ mutations, batch = offered mutations ∧ after.1 = .ok batch.length ∧
        after.2 = some (KeyMap.writeAll rows mutations) ∧
        (∀ key, fetch after.2 key =
          .ok ((KeyMap.find key mutations.reverse).getD (KeyMap.get? rows key))) ∧
        ∀ records : Dictionary Bytes, records.toKeyMap = rows →
          ∃ records', (Store.memory records).applyBatch mutations = .memory records' ∧
            after.2 = some records'.toKeyMap) ∧
    ((∃ write ∈ batch, ¬ Storable write) →
      (∃ earlier write later, batch = offered earlier ++ write :: later ∧ ¬ Storable write ∧
        (Transaction.start rows).runAll batch =
          (some .unstorable, ⟨rows, KeyMap.writeAll rows earlier⟩)) ∧
      after.1 = .error .unstorable ∧
      (∀ key, fetch after.2 key = fetch (some rows) key) ∧
      ∀ start, scan after.2 start = scan (some rows) start) := by
  intro after
  rcases offered_or_split batch with ⟨mutations, rfl⟩ | ⟨earlier, write, later, rfl, hwrite⟩
  · have hafter : after = _ := write_offered rows mutations
    rw [hafter]
    refine ⟨fun _ => ⟨mutations, rfl, rfl, rfl, fun key => ?_, ?_⟩, ?_⟩
    · exact congrArg Except.ok (KeyMap.get?_writeAll rows mutations key)
    · rintro records rfl
      obtain ⟨records', hbatch, hrows⟩ := Store.applyBatch_memory records mutations
      exact ⟨records', hbatch, congrArg some hrows.symm⟩
    · rintro ⟨write, hmem, hwrite⟩
      exact absurd (storable_of_mem_offered hmem) hwrite
  · have hrun := runAll_split hwrite rows earlier later
    have hafter : after = (.error .unstorable, some rows) := by
      rw [show after = _ from write_eq_runAll _ _, hrun]
      rfl
    rw [hafter]
    refine ⟨fun hall => ?_, fun _ => ⟨⟨earlier, write, later, rfl, hwrite, hrun⟩, rfl, ?_, ?_⟩⟩
    · exact absurd (hall write (by simp)) hwrite
    · exact fun key => rfl
    · exact fun start => rfl

/-- A row is overwritten, removed and written again, another key is removed that has no row. The
same writes before the removal of a key that cannot be stored, with one more after it, leave the
rows alone, and so they do before a value that cannot be stored. -/
theorem write_all_or_nothing_rewriting :
    let rows : Table := (KeyMap.empty.insert [1] [10]).insert [2] [20]
    let records : Dictionary Bytes := (Dictionary.empty.set [2] [20]).set [1] [10]
    let mutations : List Mutation :=
      [([1], some [11]), ([1], none), ([3], none), ([2], none), ([1], some [12])]
    let batch := offered mutations ++ [(.unstorable, none), (.blob [4], some (.blob [40]))]
    let batch' := offered mutations ++ [(.blob [2], some .unstorable)]
    (∀ write ∈ offered mutations, Storable write) ∧ (∃ write ∈ batch, ¬ Storable write) ∧
      records.toKeyMap = rows ∧
      (write (some rows) (offered mutations)).1 = .ok 5 ∧
      scan (write (some rows) (offered mutations)).2 [] = .ok [([1], [12])] ∧
      (write (some rows) batch).1 = .error .unstorable ∧
      (∀ key, fetch (write (some rows) batch).2 key = fetch (some rows) key) ∧
      (∀ start, scan (write (some rows) batch).2 start = scan (some rows) start) ∧
      (write (some rows) batch').1 = .error .unstorable := by
  intro rows records mutations batch batch'
  have hstorable : ∀ write ∈ offered mutations, Storable write := by decide
  have hunstorable : ∃ write ∈ batch, ¬ Storable write := by decide
  have hunstorable' : ∃ write ∈ batch', ¬ Storable write := by decide
  have hrecords : records.toKeyMap = rows := rfl
  obtain ⟨-, -, hlength, -⟩ := (write_all_or_nothing rows (offered mutations)).1 hstorable
  obtain ⟨-, herror, hfetch, hscan⟩ := (write_all_or_nothing rows batch).2 hunstorable
  obtain ⟨-, herror', -⟩ := (write_all_or_nothing rows batch').2 hunstorable'
  exact ⟨hstorable, hunstorable, hrecords, hlength, by decide, herror, hfetch, hscan, herror'⟩

end Database

end FungibleLedger
