import FungibleLedger.Proofs.Storage.Buffer

/-!
# Buffers are transparent

A buffer over any store answers every read as a plain map does that began as the records of that
store and to which each write was made at once. Until a commit the store under the buffer shows the
map as it was before these writes, and after a commit it shows the map as it is
(`Store.performAll_buffer`). Stores may be memory, tables or buffers, stacked to any depth.

* `KeyMap.write`, `KeyMap.scan` : a plain map in the place of a store.
* `Overlay` : the plain maps that a buffer stands for, the committed one and the one that it shows.
* `Store.WellFormed` : what the operations of a store keep; `Store.Accepts` : the writes for which
  they do. Only tables ask for something: scans miss their empty key, so it is not to be set.
* `Store.Op`, `Store.perform`, `Overlay.perform` : operations on a buffer and on plain maps.
* `Store.Tracks` : the relation between the two, which every operation keeps.
-/

namespace FungibleLedger

/-! ## Plain maps -/

namespace KeyMap

variable {α : Type}

/-- A map with one key set, or removed if there is no value for it. -/
def write (m : KeyMap α) (key : Bytes) : Option α → KeyMap α
  | some value => m.insert key value
  | none => m.erase key

/-- A map after some writes, in order. -/
def writeAll (m : KeyMap α) (writes : List (Bytes × Option α)) : KeyMap α :=
  writes.foldl (fun m (key, value) => m.write key value) m

/-- The entries whose key begins with given bytes, in key order. -/
def scan (m : KeyMap α) (start : Bytes) : List (Bytes × α) :=
  m.entries.filter fun entry => startsWith start entry.1

theorem get?_write (m : KeyMap α) (key : Bytes) (value : Option α) (k : Bytes) :
    (m.write key value).get? k = if k = key then value else m.get? k := by
  cases value with
  | none => exact m.get?_erase key k
  | some v => exact m.get?_insert key v k

theorem get?_writeAll (m : KeyMap α) (writes : List (Bytes × Option α)) (key : Bytes) :
    (m.writeAll writes).get? key = (find key writes.reverse).getD (m.get? key) := by
  have h := get?_foldl get? (fun m write => m.write write.1 write.2) id
    (fun m write k => m.get?_write write.1 write.2 k) writes m key
  rw [Option.map_id_fun, id] at h
  exact h

end KeyMap

/-! ## Stores and plain maps -/

namespace Store

/-- Whether a store answers reads as a plain map does. -/
structure ReadsAs (s : Store) (m : KeyMap Bytes) : Prop where
  get : ∀ key, s.get? key = m.get? key
  scan : ∀ start, s.scan start = m.scan start

/-- The records of a store as a plain map: all that a scan finds. -/
def contents (s : Store) : KeyMap Bytes := ⟨s.scan [], s.scan_ascending []⟩

variable {s : Store}

theorem Scannable.readsAs (hs : s.Scannable) {m : KeyMap Bytes}
    (h : ∀ key, s.get? key = m.get? key) : s.ReadsAs m := by
  refine ⟨h, fun start => ?_⟩
  apply KeyMap.eq_of_find_eq (s.scan_ascending start) (m.ascending.filter _)
  intro key
  rw [s.find_scan (.inr hs), h]
  exact (KeyMap.find_restrict _ _ _).symm

theorem Scannable.readsAs_contents (hs : s.Scannable) : s.ReadsAs s.contents := by
  refine hs.readsAs fun key => ?_
  have hfind : KeyMap.find key (s.scan []) = s.get? key := s.find_scan (.inr hs) key
  exact hfind.symm

/-- A table stays a table when a batch is written to it. -/
theorem applyBatch_table (rows : Table) (mutations : List Mutation) :
    (Store.table rows).applyBatch mutations = .table (KeyMap.writeAll rows mutations) := by
  induction mutations generalizing rows with
  | nil => rfl
  | cons mutation rest ih =>
    obtain ⟨key, value⟩ := mutation
    cases value with
    | none => exact ih (KeyMap.erase rows key)
    | some v => exact ih (KeyMap.insert rows key v)

/-- Whether a store can take a write: a table finds its empty key in no scan, and should have no
row for it. -/
def Accepts : Store → Mutation → Prop
  | .memory _, _ => True
  | .table _, (key, value) => key = [] → value = none
  | .buffered backing _, mutation => backing.Accepts mutation

/-- Whether a store is one that accepted writes lead to. The writes that a buffer holds back are in
order, and the store under it can take them. -/
def WellFormed : Store → Prop
  | .memory _ => True
  | .table rows => KeyMap.get? rows [] = none
  | .buffered backing pending =>
    backing.WellFormed ∧ pending.Sound ∧ ∀ mutation ∈ pending.mutations, backing.Accepts mutation

theorem WellFormed.scannable (hs : s.WellFormed) : s.Scannable := by
  induction s with
  | memory records => trivial
  | table rows => exact hs
  | buffered backing pending ih => exact ih hs.1

theorem WellFormed.buffer (hs : s.WellFormed) : s.buffer.WellFormed :=
  ⟨hs, Pending.sound_empty, nofun⟩

theorem accepts_write (s : Store) (key : Bytes) (value : Option Bytes) (mutation : Mutation) :
    (s.write key value).Accepts mutation ↔ s.Accepts mutation := by
  cases s with
  | memory records => cases value <;> exact Iff.rfl
  | table rows => cases value <;> exact Iff.rfl
  | buffered backing pending => exact Iff.rfl

theorem WellFormed.write (hs : s.WellFormed) {key : Bytes} {value : Option Bytes}
    (h : s.Accepts (key, value)) : (s.write key value).WellFormed := by
  cases s with
  | memory records => cases value <;> trivial
  | table rows =>
    cases value with
    | none =>
      show KeyMap.get? (rows.erase key) [] = none
      rw [KeyMap.get?_erase]
      split
      · rfl
      · exact hs
    | some v =>
      have hkey : [] ≠ key := fun heq => nomatch h heq.symm
      show KeyMap.get? (rows.insert key v) [] = none
      rw [KeyMap.get?_insert, if_neg hkey]
      exact hs
  | buffered backing pending =>
    obtain ⟨hbacking, hsound, haccepts⟩ := hs
    refine ⟨hbacking, hsound.record key value, fun mutation hmem => ?_⟩
    rcases hsound.mem_mutations_record hmem with rfl | hmem
    · exact h
    · exact haccepts mutation hmem

theorem WellFormed.applyBatch (hs : s.WellFormed) {mutations : List Mutation}
    (h : ∀ mutation ∈ mutations, s.Accepts mutation) : (s.applyBatch mutations).WellFormed := by
  induction mutations generalizing s with
  | nil => exact hs
  | cons mutation rest ih =>
    refine ih (hs.write (h mutation List.mem_cons_self)) fun m hm => ?_
    rw [accepts_write]
    exact h m (List.mem_cons_of_mem _ hm)

theorem accepts_applyBatch (s : Store) (mutations : List Mutation) (mutation : Mutation) :
    (s.applyBatch mutations).Accepts mutation ↔ s.Accepts mutation := by
  induction mutations generalizing s with
  | nil => exact Iff.rfl
  | cons head rest ih => exact (ih _).trans (accepts_write s _ _ _)

end Store

/-! ## Operations -/

/-- What a buffer can be asked to do. -/
inductive Store.Op
  | set (key value : Bytes)
  | remove (key : Bytes)
  | get (key : Bytes)
  | scan (start : Bytes)
  | applyBatch (mutations : List Mutation)
  | commit
  | discard

/-- What is read by an operation. -/
inductive Store.Reading
  | nothing
  | value (value : Option Bytes)
  | entries (entries : List (Bytes × Bytes))
deriving DecidableEq

/-- What a buffer stands for: the records under it, and the records with its writes. -/
structure Overlay where
  committed : KeyMap Bytes
  shown : KeyMap Bytes

/-- An operation on plain maps: writes are made at once to the map that is shown, a commit makes it
the committed one, and a discard brings the committed one back. -/
def Overlay.perform (o : Overlay) : Store.Op → Store.Reading × Overlay
  | .set key value => (.nothing, { o with shown := o.shown.write key (some value) })
  | .remove key => (.nothing, { o with shown := o.shown.write key none })
  | .get key => (.value (o.shown.get? key), o)
  | .scan start => (.entries (o.shown.scan start), o)
  | .applyBatch mutations => (.nothing, { o with shown := o.shown.writeAll mutations })
  | .commit => (.nothing, ⟨o.shown, o.shown⟩)
  | .discard => (.nothing, ⟨o.committed, o.committed⟩)

namespace Store

/-- The writes that an operation brings. -/
def Op.writes : Op → List Mutation
  | .set key value => [(key, some value)]
  | .remove key => [(key, none)]
  | .applyBatch mutations => mutations
  | .get _ | .scan _ | .commit | .discard => []

/-- An operation on a buffer. -/
def perform (s : Store) : Op → Reading × Store
  | .set key value => (.nothing, s.set key value)
  | .remove key => (.nothing, s.remove key)
  | .get key => (.value (s.get? key), s)
  | .scan start => (.entries (s.scan start), s)
  | .applyBatch mutations => (.nothing, s.applyBatch mutations)
  | .commit => (.nothing, s.commit.2)
  | .discard => (.nothing, s.discard.2)

/-- What operations read in turn, and the state after them. -/
def Op.performAll {σ : Type} (perform : σ → Op → Reading × σ) (state : σ) :
    List Op → List Reading × σ
  | [] => ([], state)
  | op :: rest =>
    let (reading, next) := perform state op
    let (readings, last) := performAll perform next rest
    (reading :: readings, last)

/-! ## The simulation -/

/-- A buffer and the overlay that it stands for. The store under the buffer came out of `origin`,
and still takes the writes that `origin` takes. -/
structure Tracks (origin backing : Store) (pending : Pending) (o : Overlay) : Prop where
  wellFormed : (buffered backing pending).WellFormed
  accepts : ∀ mutation, origin.Accepts mutation → backing.Accepts mutation
  committed : ∀ key, backing.get? key = o.committed.get? key
  shown : ∀ key, (buffered backing pending).get? key = o.shown.get? key

namespace Tracks

variable {origin backing : Store} {pending : Pending} {o : Overlay}

theorem start (h : origin.WellFormed) :
    Tracks origin origin .empty ⟨origin.contents, origin.contents⟩ := by
  have hcontents := h.scannable.readsAs_contents
  exact ⟨h.buffer, fun _ => id, hcontents.get, fun key =>
    (origin.get?_buffer key).trans (hcontents.get key)⟩

theorem writeAll (h : Tracks origin backing pending o) {mutations : List Mutation}
    (hall : ∀ mutation ∈ mutations, origin.Accepts mutation) :
    Tracks origin backing (pending.recordAll mutations)
      { o with shown := o.shown.writeAll mutations } := by
  have hbuffer := applyBatch_buffered backing pending mutations
  refine ⟨?_, h.accepts, h.committed, fun key => ?_⟩
  · rw [← hbuffer]
    exact h.wellFormed.applyBatch fun mutation hmem => h.accepts _ (hall mutation hmem)
  · rw [← hbuffer, get?_applyBatch, KeyMap.get?_writeAll, h.shown]

theorem commit (h : Tracks origin backing pending o) :
    Tracks origin (backing.applyBatch pending.mutations) .empty ⟨o.shown, o.shown⟩ := by
  obtain ⟨hbacking, hsound, haccepts⟩ := h.wellFormed
  have hget : ∀ key, (backing.applyBatch pending.mutations).get? key = o.shown.get? key :=
    fun key => (get?_commit hsound key).trans (h.shown key)
  refine ⟨(hbacking.applyBatch haccepts).buffer, fun mutation hmutation => ?_, hget,
    fun key => (get?_buffer _ key).trans (hget key)⟩
  rw [accepts_applyBatch]
  exact h.accepts mutation hmutation

theorem discard (h : Tracks origin backing pending o) :
    Tracks origin backing .empty ⟨o.committed, o.committed⟩ :=
  ⟨h.wellFormed.1.buffer, h.accepts, h.committed, fun key =>
    (get?_buffer _ key).trans (h.committed key)⟩

/-- One operation reads what it reads of the overlay, and the buffer goes on to stand for the
overlay that it leaves. Only a commit touches the store under the buffer. -/
theorem perform (h : Tracks origin backing pending o) (op : Op)
    (hop : ∀ mutation ∈ op.writes, origin.Accepts mutation) :
    ∃ backing' pending',
      (buffered backing pending).perform op = ((o.perform op).1, .buffered backing' pending') ∧
        Tracks origin backing' pending' (o.perform op).2 ∧ (op ≠ .commit → backing' = backing) := by
  have hreads : (buffered backing pending).ReadsAs o.shown :=
    h.wellFormed.scannable.readsAs h.shown
  cases op with
  | set key value => exact ⟨_, _, rfl, h.writeAll hop, fun _ => rfl⟩
  | remove key => exact ⟨_, _, rfl, h.writeAll hop, fun _ => rfl⟩
  | get key =>
    refine ⟨backing, pending, ?_, h, fun _ => rfl⟩
    rw [Store.perform, hreads.get]
    rfl
  | scan start =>
    refine ⟨backing, pending, ?_, h, fun _ => rfl⟩
    rw [Store.perform, hreads.scan]
    rfl
  | applyBatch mutations =>
    refine ⟨backing, _, ?_, h.writeAll hop, fun _ => rfl⟩
    rw [Store.perform, applyBatch_buffered]
    rfl
  | commit => exact ⟨_, _, rfl, h.commit, fun hne => absurd rfl hne⟩
  | discard => exact ⟨_, _, rfl, h.discard, fun _ => rfl⟩

theorem performAll (h : Tracks origin backing pending o) (ops : List Op)
    (hops : ∀ op ∈ ops, ∀ mutation ∈ op.writes, origin.Accepts mutation) :
    ∃ backing' pending',
      Op.performAll Store.perform (.buffered backing pending) ops =
        ((Op.performAll Overlay.perform o ops).1, .buffered backing' pending') ∧
        Tracks origin backing' pending' (Op.performAll Overlay.perform o ops).2 ∧
        (.commit ∉ ops → backing' = backing) := by
  induction ops generalizing backing pending o with
  | nil => exact ⟨backing, pending, rfl, h, fun _ => rfl⟩
  | cons op rest ih =>
    obtain ⟨backing₁, pending₁, hone, htracks, hsame⟩ := h.perform op (hops op List.mem_cons_self)
    obtain ⟨backing₂, pending₂, hrest, htracks, hsame'⟩ :=
      ih htracks fun op hop => hops op (List.mem_cons_of_mem _ hop)
    refine ⟨backing₂, pending₂, ?_, htracks, fun hnone => ?_⟩
    · rw [Op.performAll, hone]
      dsimp only
      rw [hrest]
      rfl
    · obtain ⟨hop, hops⟩ := not_or.1 (mt List.mem_cons.2 hnone)
      rw [hsame' hops, hsame (Ne.symm hop)]

end Tracks

/-- A buffer over any store reads, through any sequence of operations, what plain maps read that
began as the records of that store. After them the store under the buffer reads as the committed
map, and the buffer as the one with the writes since. As long as nothing is committed, the store
under the buffer is the one from the start. -/
theorem performAll_buffer (backing : Store) (hbacking : backing.WellFormed) (ops : List Op)
    (hops : ∀ op ∈ ops, ∀ mutation ∈ op.writes, backing.Accepts mutation) :
    let buffer := Op.performAll perform backing.buffer ops
    let plain := Op.performAll Overlay.perform ⟨backing.contents, backing.contents⟩ ops
    backing.ReadsAs backing.contents ∧ buffer.1 = plain.1 ∧
      buffer.2.backing.ReadsAs plain.2.committed ∧ buffer.2.ReadsAs plain.2.shown ∧
      (.commit ∉ ops → buffer.2.backing = backing) := by
  intro buffer plain
  obtain ⟨backing', pending', hbuffer, htracks, hsame⟩ :=
    (Tracks.start hbacking).performAll ops hops
  have hreadings : buffer.1 = plain.1 := congrArg Prod.fst hbuffer
  have hafter : buffer.2 = .buffered backing' pending' := congrArg Prod.snd hbuffer
  rw [hafter]
  exact ⟨hbacking.scannable.readsAs_contents, hreadings,
    htracks.wellFormed.1.scannable.readsAs htracks.committed,
    htracks.wellFormed.scannable.readsAs htracks.shown, hsame⟩

/-- A buffer over a buffer over a table. The inner one hides a row of the table and holds back
another; the outer one writes over both, commits, and drops what it writes after that. -/
theorem performAll_buffer_nested :
    let rows : Table := (KeyMap.empty.insert [1] [10]).insert [2] [20]
    let inner := ((Store.table rows).buffer.remove [1]).set [3] [30]
    let ops : List Op :=
      [.set [1] [11], .applyBatch [([3], none), ([2, 0], some [21])], .get [3], .scan [2],
        .commit, .remove [2], .scan [], .discard, .scan []]
    inner.WellFormed ∧
      (∀ op ∈ ops, ∀ mutation ∈ op.writes, inner.Accepts mutation) ∧
      inner.scan [] = [([2], [20]), ([3], [30])] ∧
      (Op.performAll perform inner.buffer ops).1 =
        [.nothing, .nothing, .value none, .entries [([2], [20]), ([2, 0], [21])], .nothing,
          .nothing, .entries [([1], [11]), ([2, 0], [21])], .nothing,
          .entries [([1], [11]), ([2], [20]), ([2, 0], [21])]] ∧
      (Op.performAll perform inner.buffer ops).1 =
        (Op.performAll Overlay.perform ⟨inner.contents, inner.contents⟩ ops).1 := by
  intro rows inner ops
  have htable : (Store.table rows).WellFormed := by
    show KeyMap.get? rows [] = none
    decide
  have hinner : inner.WellFormed := by
    refine WellFormed.write (WellFormed.write htable.buffer ?_) ?_
    · exact fun h => absurd h (by decide)
    · exact fun h => absurd h (by decide)
  have hops : ∀ op ∈ ops, ∀ mutation ∈ op.writes, inner.Accepts mutation := by
    have hkeys : ∀ op ∈ ops, ∀ mutation ∈ op.writes, mutation.1 ≠ [] := by decide
    exact fun op hop mutation hmem hempty => absurd hempty (hkeys op hop mutation hmem)
  exact ⟨hinner, hops, by decide +kernel, by decide +kernel,
    (performAll_buffer inner hinner ops hops).2.1⟩

end Store

end FungibleLedger
