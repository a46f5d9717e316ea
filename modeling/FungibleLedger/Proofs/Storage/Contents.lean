import Mathlib.Tactic.ByContra
import FungibleLedger.Storage.View

/-!
# What stores contain

A store is known by its look-ups `Store.get?`. This module says what batches of writes and scans
have to do with them.

* `get?_foldl` : replaying writes into anything that obeys the law of one write leaves, under each
  key, the last of them. Dictionaries, tables, buffers and whole stores are instances.
* `Store.get?_applyBatch` : a batch, by the last write of a key.
* `Store.mem_scan`, `Store.scan_ascending` : a scan finds the records whose key begins with given
  bytes, in key order. Without any bytes to begin with a table misses its empty key, so `mem_scan`
  asks for at least one.
* `Store.find_scan` : a scan of a store as look-ups, where `Store.Scannable` says that there is no
  empty key to miss.
* `View.mem_range`, `View.range_ascending` : the same of the records of a namespace.
-/

namespace FungibleLedger

/-! ## Lists of entries -/

namespace KeyMap

variable {α : Type}

theorem mem_of_find {key : Bytes} {value : α} {entries : List (Bytes × α)}
    (h : find key entries = some value) : (key, value) ∈ entries := by
  induction entries with
  | nil => cases h
  | cons head rest ih =>
    obtain ⟨k, v⟩ := head
    rw [find] at h
    split at h
    · next heq =>
      cases h
      cases heq
      exact List.mem_cons_self
    · exact List.mem_cons_of_mem _ (ih h)

theorem find_eq_some_iff {key : Bytes} {value : α} {entries : List (Bytes × α)}
    (distinct : (entries.map (·.1)).Nodup) :
    find key entries = some value ↔ (key, value) ∈ entries := by
  refine ⟨mem_of_find, fun h => ?_⟩
  induction entries with
  | nil => cases h
  | cons head rest ih =>
    obtain ⟨k, v⟩ := head
    obtain ⟨hnot, hrest⟩ := List.nodup_cons.1 distinct
    rw [find]
    rcases List.mem_cons.1 h with heq | hmem
    · cases heq
      rw [if_pos rfl]
    · have hne : k ≠ key := by
        rintro rfl
        exact hnot (List.mem_map.2 ⟨_, hmem, rfl⟩)
      rw [if_neg hne]
      exact ih hrest hmem

theorem find_reverse {key : Bytes} {entries : List (Bytes × α)}
    (distinct : (entries.map (·.1)).Nodup) : find key entries.reverse = find key entries := by
  have hreverse : (entries.reverse.map (·.1)).Nodup := by
    rw [List.map_reverse]
    exact List.pairwise_reverse.2 (distinct.imp Ne.symm)
  apply Option.ext
  intro value
  rw [find_eq_some_iff hreverse, find_eq_some_iff distinct, List.mem_reverse]

theorem find_append (key : Bytes) (xs ys : List (Bytes × α)) :
    find key (xs ++ ys) = (find key xs).or (find key ys) := by
  induction xs with
  | nil => rfl
  | cons head rest ih =>
    obtain ⟨k, v⟩ := head
    rw [List.cons_append, find, find]
    split
    · rfl
    · exact ih

theorem find_restrict (keep : Bytes → Bool) (entries : List (Bytes × α)) (key : Bytes) :
    find key (entries.filter fun entry => keep entry.1) =
      if keep key then find key entries else none := by
  induction entries with
  | nil => simp [find]
  | cons head rest ih =>
    obtain ⟨k, v⟩ := head
    rw [List.filter_cons]
    grind [find]

theorem distinct_of_ascending {entries : List (Bytes × α)}
    (h : entries.Pairwise fun a b => a.1 < b.1) : (entries.map (·.1)).Nodup :=
  List.pairwise_map.2 (h.imp Bytes.ne_of_lt)

end KeyMap

/-- Writes replayed in order, for any state `σ` read by `get` in which one write shows under its key
and nowhere else: what a key holds is its last write, and without one what it held before. -/
theorem get?_foldl {σ β γ : Type} (get : σ → Bytes → Option β) (step : σ → Bytes × γ → σ)
    (shown : γ → Option β)
    (law : ∀ s write key, get (step s write) key =
      if key = write.1 then shown write.2 else get s key)
    (writes : List (Bytes × γ)) (s : σ) (key : Bytes) :
    get (writes.foldl step s) key =
      ((KeyMap.find key writes.reverse).map shown).getD (get s key) := by
  induction writes generalizing s with
  | nil => rfl
  | cons write rest ih =>
    obtain ⟨k, v⟩ := write
    rw [List.foldl_cons, ih, List.reverse_cons, KeyMap.find_append]
    cases KeyMap.find key rest.reverse with
    | some last => rfl
    | none =>
      rw [law, Option.none_or, KeyMap.find]
      by_cases h : key = k
      · rw [if_pos h, if_pos h.symm]
        rfl
      · rw [if_neg h, if_neg (Ne.symm h)]
        rfl

/-! ## Dictionaries -/

namespace Dictionary

variable {α : Type}

theorem get?_restrict (d : Dictionary α) (keep : Bytes → Bool) (key : Bytes) :
    (d.restrict keep).get? key = if keep key then d.get? key else none :=
  KeyMap.find_restrict keep d.entries key

theorem get?_ofList {entries : List (Bytes × α)} (distinct : (entries.map (·.1)).Nodup)
    (key : Bytes) : (ofList entries).get? key = KeyMap.find key entries := by
  have h := get?_foldl get? (fun d entry => d.set entry.1 entry.2) some
    (fun d entry k => d.get?_set entry.1 entry.2 k) entries empty key
  rw [KeyMap.find_reverse distinct] at h
  rw [ofList, h]
  cases KeyMap.find key entries <;> rfl

theorem get?_toKeyMap (d : Dictionary α) (key : Bytes) : d.toKeyMap.get? key = d.get? key := by
  have h := get?_foldl KeyMap.get? (fun m entry => m.insert entry.1 entry.2) some
    (fun m entry k => m.get?_insert entry.1 entry.2 k) d.entries .empty key
  rw [KeyMap.find_reverse d.distinct] at h
  rw [toKeyMap, h, get?]
  cases KeyMap.find key d.entries <;> rfl

end Dictionary

/-! ## Batches -/

namespace Store

theorem get?_applyBatch (s : Store) (mutations : List Mutation) (key : Bytes) :
    (s.applyBatch mutations).get? key =
      (KeyMap.find key mutations.reverse).getD (s.get? key) := by
  have h := get?_foldl get? (fun s write => s.write write.1 write.2) id
    (fun s write k => s.get?_write write.1 write.2 k) mutations s key
  rw [Option.map_id_fun, id] at h
  exact h

theorem applyBatch_append (s : Store) (xs ys : List Mutation) :
    s.applyBatch (xs ++ ys) = (s.applyBatch xs).applyBatch ys := by
  rw [applyBatch, applyBatch, applyBatch, List.foldl_append]

/-- A batch changes no record under a key that it does not write. -/
theorem get?_applyBatch_of_notMem {s : Store} {mutations : List Mutation} {key : Bytes}
    (h : ∀ mutation ∈ mutations, mutation.1 ≠ key) :
    (s.applyBatch mutations).get? key = s.get? key := by
  have hnone : KeyMap.find key mutations.reverse = none := by
    rw [Option.eq_none_iff_forall_ne_some]
    intro value hfind
    have hmem := List.mem_reverse.1 (KeyMap.mem_of_find hfind)
    exact h _ hmem rfl
  rw [get?_applyBatch, hnone, Option.getD_none]

/-- What holds of every record holds after a batch too, if it holds of what the batch writes. -/
theorem forall_applyBatch {P : Bytes → Bytes → Prop} {s : Store} {mutations : List Mutation}
    (hs : ∀ key raw, s.get? key = some raw → P key raw)
    (h : ∀ key raw, (key, some raw) ∈ mutations → P key raw) :
    ∀ key raw, (s.applyBatch mutations).get? key = some raw → P key raw := by
  intro key raw hraw
  rw [get?_applyBatch] at hraw
  cases hfind : KeyMap.find key mutations.reverse with
  | none =>
    rw [hfind] at hraw
    exact hs key raw hraw
  | some value =>
    rw [hfind] at hraw
    cases hraw
    exact h key raw (List.mem_reverse.1 (KeyMap.mem_of_find hfind))

/-- A batch that does not remove a record leaves one. -/
theorem get?_applyBatch_ne_none {s : Store} {mutations : List Mutation} {key : Bytes}
    (hs : s.get? key ≠ none) (h : (key, none) ∉ mutations) :
    (s.applyBatch mutations).get? key ≠ none := by
  rw [get?_applyBatch]
  cases hfind : KeyMap.find key mutations.reverse with
  | none => exact hs
  | some value =>
    rintro rfl
    exact h (List.mem_reverse.1 (KeyMap.mem_of_find hfind))

end Store

/-! ## Scans -/

theorem Pending.get?_overlay (p : Pending) (start : Bytes) {backing : List (Bytes × Bytes)}
    (distinct : (backing.map (·.1)).Nodup) (key : Bytes) :
    KeyMap.find key (p.overlay start backing) =
      ((p.latest.restrict (KeyMap.startsWith start)).get? key).getD (KeyMap.find key backing) := by
  refine (Dictionary.get?_toKeyMap _ key).trans ?_
  refine (get?_foldl Dictionary.get? _ id ?_ _ _ key).trans ?_
  · rintro d ⟨k', _ | v⟩ k
    · exact d.get?_remove k' k
    · exact d.get?_set k' v k
  · rw [KeyMap.find_reverse (p.latest.restrict _).distinct, Dictionary.get?_ofList distinct,
      Option.map_id_fun, id]
    rfl

theorem Table.leading?_eq_some_iff {key start : Bytes} (h : start ≠ [] ∨ key ≠ []) :
    Table.leading? key start.length = some start ↔ start <+: key := by
  rw [Table.leading?]
  constructor
  · intro heq
    split at heq
    · cases heq
    · rw [← Option.some.inj heq]
      exact List.take_prefix _ _
  · rintro ⟨rest, rfl⟩
    have hne : start ++ rest ≠ [] := by
      rcases h with hstart | hkey
      · exact List.append_ne_nil_of_left_ne_nil hstart rest
      · exact hkey
    have hempty : (start ++ rest).isEmpty = false := List.isEmpty_eq_false_iff.2 hne
    rw [hempty]
    simp

theorem Table.find_scan (t : Table) (start key : Bytes) :
    KeyMap.find key (t.scan start) =
      if Table.leading? key start.length == some start then KeyMap.get? t key else none :=
  KeyMap.find_restrict (fun k => Table.leading? k start.length == some start) t.entries key

namespace Store

theorem get?_buffered (backing : Store) (pending : Pending) (key : Bytes) :
    (buffered backing pending).get? key =
      (pending.latest.get? key).getD (backing.get? key) := by
  rw [get?]
  cases pending.latest.get? key <;> rfl

theorem scan_ascending (s : Store) (start : Bytes) :
    (s.scan start).Pairwise fun a b => a.1 < b.1 := by
  cases s with
  | memory records => exact KeyMap.ascending _
  | table rows => exact rows.ascending.filter _
  | buffered backing pending => exact KeyMap.ascending _

/-- Whether no table under a store has a row for the empty key, which scans would miss. -/
def Scannable : Store → Prop
  | .memory _ => True
  | .table rows => KeyMap.get? rows [] = none
  | .buffered backing _ => backing.Scannable

/-- What a scan finds under a key: the record, unless everything is scanned, the key is the empty
one, and a table has a row for it. -/
theorem find_scan_or (s : Store) (start key : Bytes) :
    KeyMap.find key (s.scan start) = (if KeyMap.startsWith start key then s.get? key else none) ∨
      (start = [] ∧ key = [] ∧ ¬ s.Scannable ∧ KeyMap.find key (s.scan start) = none) := by
  induction s with
  | memory records =>
    left
    show (records.restrict (KeyMap.startsWith start)).toKeyMap.get? key = _
    rw [Dictionary.get?_toKeyMap, Dictionary.get?_restrict]
    rfl
  | table rows =>
    by_cases hempty : start = [] ∧ key = []
    · obtain ⟨rfl, rfl⟩ := hempty
      have hmissed : KeyMap.find [] (rows.scan []) = none := rows.find_scan [] []
      by_cases hrow : KeyMap.get? rows [] = none
      · exact Or.inl (hmissed.trans hrow.symm)
      · exact Or.inr ⟨rfl, rfl, hrow, hmissed⟩
    · left
      have hleading := Table.leading?_eq_some_iff (Decidable.not_and_iff_or_not.1 hempty)
      have hstart : KeyMap.startsWith start key = true ↔ start <+: key :=
        List.isPrefixOf_iff_prefix
      refine (rows.find_scan start key).trans ?_
      simp only [beq_iff_eq, hleading, hstart]
      rfl
  | buffered backing pending ih =>
    have hscan := KeyMap.distinct_of_ascending (scan_ascending backing start)
    have hoverlay : KeyMap.find key ((buffered backing pending).scan start) = _ :=
      Pending.get?_overlay pending start hscan key
    rw [hoverlay, Dictionary.get?_restrict, get?_buffered]
    rcases ih with hbacking | ⟨rfl, rfl, hrow, hmissed⟩
    · left
      rw [hbacking]
      by_cases hkey : KeyMap.startsWith start key = true
      · rw [if_pos hkey, if_pos hkey, if_pos hkey]
      · rw [if_neg hkey, if_neg hkey, if_neg hkey, Option.getD_none]
    · -- a pending write shows, and without one the row stays missed
      have hprefix : KeyMap.startsWith [] [] = true := rfl
      rw [hmissed, if_pos hprefix, if_pos hprefix]
      cases hlatest : pending.latest.get? [] with
      | none => exact Or.inr ⟨rfl, rfl, hrow, rfl⟩
      | some value => exact Or.inl rfl

theorem find_scan (s : Store) {start : Bytes} (h : start ≠ [] ∨ s.Scannable) (key : Bytes) :
    KeyMap.find key (s.scan start) =
      if KeyMap.startsWith start key then s.get? key else none := by
  refine (s.find_scan_or start key).resolve_right ?_
  rintro ⟨rfl, -, hrow, -⟩
  exact h.elim (fun hstart => hstart rfl) hrow

theorem mem_scan {s : Store} {start key value : Bytes} (h : start ≠ []) :
    (key, value) ∈ s.scan start ↔ start <+: key ∧ s.get? key = some value := by
  have hscan := KeyMap.distinct_of_ascending (scan_ascending s start)
  rw [← KeyMap.find_eq_some_iff hscan, find_scan s (.inl h), Option.ite_none_right_eq_some,
    KeyMap.startsWith, List.isPrefixOf_iff_prefix]

end Store

namespace View

theorem mem_range {v : View} {s : Store} {key value : Bytes} (h : v.path ≠ []) :
    (key, value) ∈ v.range s ↔ v.get? s key = some value := by
  rw [range, List.mem_map]
  constructor
  · rintro ⟨⟨full, raw⟩, hmem, heq⟩
    obtain ⟨⟨rest, rfl⟩, hget⟩ := (Store.mem_scan h).1 hmem
    simp only [List.drop_left, Prod.mk.injEq] at heq
    obtain ⟨rfl, rfl⟩ := heq
    exact hget
  · intro hget
    refine ⟨(v.path ++ key, value), (Store.mem_scan h).2 ⟨List.prefix_append _ _, hget⟩, ?_⟩
    simp only [List.drop_left]

theorem lt_of_append_lt {path a b : Bytes} (h : path ++ a < path ++ b) : a < b := by
  by_contra hnot
  by_cases heq : a = b
  · rw [heq] at h
    exact Bytes.lt_irrefl _ h
  · have hlt : b < a := Bytes.lt_of_not_lt_of_ne hnot heq
    exact Bytes.lt_irrefl _ (Bytes.lt_trans h (List.append_left_lt hlt))

theorem range_ascending {v : View} (s : Store) (h : v.path ≠ []) :
    (v.range s).Pairwise fun a b => a.1 < b.1 := by
  rw [range, List.pairwise_map]
  refine (Store.scan_ascending s v.path).imp_of_mem ?_
  rintro ⟨ka, va⟩ ⟨kb, vb⟩ ha hb hlt
  obtain ⟨⟨a, rfl⟩, -⟩ := (Store.mem_scan h).1 ha
  obtain ⟨⟨b, rfl⟩, -⟩ := (Store.mem_scan h).1 hb
  simp only [List.drop_left]
  exact lt_of_append_lt hlt

end View

end FungibleLedger
