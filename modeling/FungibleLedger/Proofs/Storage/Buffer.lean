import FungibleLedger.Proofs.Storage.Contents

/-!
# Buffers and what they commit

A buffer keeps the keys in order of first write beside the last write of each key. `Pending.Sound`
says that the two agree. It holds of a fresh buffer and after every write, and then the writes that
a commit replays are, key by key, the writes that the buffer answers with.

* `Store.applyBatch_buffered` : writes to a buffer stay in its pending part; the store under it is
  the same one.
* `Store.get?_commit` : after a commit the store under a buffer answers as the buffer did.
-/

namespace FungibleLedger

namespace Pending

/-- The order of pending writes lists the keys that are written, each once. -/
structure Sound (p : Pending) : Prop where
  nodup : p.order.Nodup
  mem_order : ∀ key, key ∈ p.order ↔ (p.latest.get? key).isSome

/-- The pending writes after some more. -/
def recordAll (p : Pending) (mutations : List Mutation) : Pending :=
  mutations.foldl (fun p (key, value) => p.record key value) p

theorem sound_empty : empty.Sound := by
  refine ⟨List.nodup_nil, fun key => ?_⟩
  simp [empty]

theorem Sound.record {p : Pending} (h : p.Sound) (key : Bytes) (value : Option Bytes) :
    (p.record key value).Sound := by
  by_cases hkey : (p.latest.get? key).isSome = true
  · refine ⟨?_, fun k => ?_⟩
    · simp only [Pending.record, if_pos hkey]
      exact h.nodup
    · simp only [Pending.record, if_pos hkey, Dictionary.get?_set, h.mem_order]
      by_cases hk : k = key
      · subst hk
        simp [hkey]
      · simp [hk]
  · refine ⟨?_, fun k => ?_⟩
    · have hfresh : key ∉ p.order := fun hmem => hkey ((h.mem_order key).1 hmem)
      simp only [Pending.record, if_neg hkey]
      rw [List.nodup_append]
      refine ⟨h.nodup, List.pairwise_singleton _ _, fun k hk k' hk' => ?_⟩
      rw [List.mem_singleton] at hk'
      rintro rfl
      exact hfresh (hk' ▸ hk)
    · simp only [Pending.record, if_neg hkey, Dictionary.get?_set, List.mem_append,
        List.mem_singleton, h.mem_order]
      by_cases hk : k = key
      · simp [hk]
      · simp [hk]

theorem Sound.recordAll {p : Pending} (h : p.Sound) (mutations : List Mutation) :
    (p.recordAll mutations).Sound := by
  induction mutations generalizing p with
  | nil => exact h
  | cons mutation rest ih => exact ih (h.record mutation.1 mutation.2)

/-! ## The writes of a commit -/

theorem find_filterMap_order (latest : Bytes → Option (Option Bytes)) (order : List Bytes)
    (key : Bytes) :
    KeyMap.find key (order.filterMap fun k => (latest k).map (k, ·)) =
      if key ∈ order then latest key else none := by
  induction order with
  | nil => simp [KeyMap.find]
  | cons head rest ih =>
    rw [List.filterMap_cons]
    by_cases hhead : head = key
    · subst hhead
      cases hlatest : latest head with
      | none =>
        rw [Option.map_none]
        simp only [ih, hlatest, ite_self]
      | some value => simp [KeyMap.find]
    · have hmem : key ∈ head :: rest ↔ key ∈ rest := by
        simp [Ne.symm hhead]
      simp only [hmem, ← ih]
      cases latest head with
      | none => rfl
      | some value => simp [KeyMap.find, hhead]

theorem Sound.find_mutations {p : Pending} (h : p.Sound) (key : Bytes) :
    KeyMap.find key p.mutations = p.latest.get? key := by
  rw [mutations, find_filterMap_order]
  split
  · rfl
  · next hnot =>
    rw [h.mem_order, Option.not_isSome_iff_eq_none] at hnot
    exact hnot.symm

theorem mutations_keys_sublist (p : Pending) : (p.mutations.map (·.1)).Sublist p.order := by
  rw [mutations]
  induction p.order with
  | nil => exact .slnil
  | cons key rest ih =>
    rw [List.filterMap_cons]
    cases p.latest.get? key with
    | none => exact ih.cons key
    | some value => exact ih.cons_cons key

theorem Sound.distinct {p : Pending} (h : p.Sound) : (p.mutations.map (·.1)).Nodup :=
  p.mutations_keys_sublist.nodup h.nodup

theorem Sound.mem_mutations {p : Pending} (h : p.Sound) {key : Bytes} {value : Option Bytes} :
    (key, value) ∈ p.mutations ↔ p.latest.get? key = some value := by
  rw [← KeyMap.find_eq_some_iff h.distinct, h.find_mutations]

/-- What a buffer holds back after one more write is that write, or was held back before. -/
theorem Sound.mem_mutations_record {p : Pending} (h : p.Sound) {key : Bytes}
    {value : Option Bytes} {mutation : Mutation}
    (hmem : mutation ∈ (p.record key value).mutations) :
    mutation = (key, value) ∨ mutation ∈ p.mutations := by
  obtain ⟨k, v⟩ := mutation
  have hlatest := (h.record key value).mem_mutations.1 hmem
  rw [Pending.record, Dictionary.get?_set] at hlatest
  split at hlatest
  · next heq =>
    cases hlatest
    exact Or.inl (by rw [heq])
  · exact Or.inr (h.mem_mutations.2 hlatest)

end Pending

namespace Store

theorem applyBatch_buffered (backing : Store) (p : Pending) (mutations : List Mutation) :
    (buffered backing p).applyBatch mutations = buffered backing (p.recordAll mutations) := by
  induction mutations generalizing p with
  | nil => rfl
  | cons mutation rest ih => exact ih (p.record mutation.1 mutation.2)

theorem get?_buffer (s : Store) (key : Bytes) : s.buffer.get? key = s.get? key := by
  rw [buffer, get?_buffered]
  rfl

theorem get?_commit {backing : Store} {p : Pending} (h : p.Sound) (key : Bytes) :
    (buffered backing p).commit.2.backing.get? key = (buffered backing p).get? key := by
  show (backing.applyBatch p.mutations).get? key = _
  rw [get?_applyBatch, get?_buffered, KeyMap.find_reverse h.distinct, h.find_mutations]

end Store

end FungibleLedger
