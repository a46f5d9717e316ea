import Mathlib.Data.List.Basic
import FungibleLedger.Proofs.Storage.Backends
import FungibleLedger.Proofs.Storage.Overlay

/-!
# The list of pending writes

A buffer lists each key that was written since the last commit or discard, once and with its last
value, and the keys come in the order of their first writes (`Layers.pending_afterAll`). It keeps
this in two parts, the order of the keys and their latest values, which `Pending.Holds` ties to the
writes so far. One more write keeps the tie, and what ends the writes leaves the empty buffer, for
which it holds of no writes.

* `Store.Op.since` : the writes of some operations since the last commit or discard.
* `Pending.Lists` : what a list of pending writes has to do with the writes.
* `Layers.layer_perform` : an operation on a buffer, whatever the layer under it is.
-/

namespace FungibleLedger

/-! ## Last writes -/

/-- Whether a write is the last one of its key. -/
def Mutation.IsLast (writes : List Mutation) (mutation : Mutation) : Prop :=
  ∃ before later, writes = before ++ mutation :: later ∧ ∀ other ∈ later, other.1 ≠ mutation.1

namespace KeyMap

variable {α : Type} {key : Bytes} {value : α} {entries : List (Bytes × α)}

theorem find_eq_some_iff_split :
    find key entries = some value ↔
      ∃ before later, entries = before ++ (key, value) :: later ∧
        ∀ other ∈ before, other.1 ≠ key := by
  constructor
  · intro h
    induction entries with
    | nil => cases h
    | cons head rest ih =>
      obtain ⟨k, v⟩ := head
      rw [find] at h
      split at h
      · next hk =>
        cases h
        exact ⟨[], rest, by rw [hk]; rfl, List.forall_mem_nil _⟩
      · next hk =>
        obtain ⟨before, later, rfl, hbefore⟩ := ih h
        exact ⟨(k, v) :: before, later, rfl, List.forall_mem_cons.2 ⟨hk, hbefore⟩⟩
  · rintro ⟨before, later, rfl, hbefore⟩
    induction before with
    | nil => simp [find]
    | cons head before ih =>
      obtain ⟨hhead, hbefore⟩ := List.forall_mem_cons.1 hbefore
      rw [List.cons_append, find, if_neg hhead]
      exact ih hbefore

theorem isSome_find_iff : (find key entries).isSome ↔ key ∈ entries.map (·.1) := by
  induction entries with
  | nil => simp [find]
  | cons head rest ih =>
    obtain ⟨k, v⟩ := head
    rw [find, List.map_cons, List.mem_cons, ← ih]
    by_cases hk : k = key
    · simp [hk]
    · simp [hk, Ne.symm hk]

end KeyMap

theorem Mutation.isLast_iff {writes : List Mutation} {key : Bytes} {value : Option Bytes} :
    IsLast writes (key, value) ↔ KeyMap.find key writes.reverse = some value := by
  rw [KeyMap.find_eq_some_iff_split]
  constructor
  · rintro ⟨before, later, rfl, hlater⟩
    exact ⟨later.reverse, before.reverse, by simp, by simpa using hlater⟩
  · rintro ⟨before, later, heq, hbefore⟩
    refine ⟨later.reverse, before.reverse, ?_, by simpa using hbefore⟩
    rw [← List.reverse_reverse writes, heq]
    simp

/-! ## Pending writes and the writes -/

namespace Pending

/-- What a list of pending writes has to do with the writes: it lists each key once, with its last
write, and the keys in the order of their first writes. -/
structure Lists (writes pending : List Mutation) : Prop where
  once : (pending.map (·.1)).Nodup
  mem_iff : ∀ mutation, mutation ∈ pending ↔ Mutation.IsLast writes mutation
  order : (pending.map (·.1)).Pairwise fun a b =>
    (writes.map (·.1)).idxOf a < (writes.map (·.1)).idxOf b

/-- What a buffer keeps of some writes. -/
structure Holds (writes : List Mutation) (p : Pending) : Prop where
  sound : p.Sound
  latest : ∀ key, p.latest.get? key = KeyMap.find key writes.reverse
  order : p.order.Pairwise fun a b =>
    (writes.map (·.1)).idxOf a < (writes.map (·.1)).idxOf b

variable {writes : List Mutation} {p : Pending}

theorem holds_empty : Holds [] empty := ⟨sound_empty, fun _ => rfl, .nil⟩

theorem Holds.mem_order (h : Holds writes p) {key : Bytes} :
    key ∈ p.order ↔ key ∈ writes.map (·.1) := by
  rw [h.sound.mem_order, h.latest, KeyMap.isSome_find_iff, List.map_reverse, List.mem_reverse]

theorem Holds.record (h : Holds writes p) (key : Bytes) (value : Option Bytes) :
    Holds (writes ++ [(key, value)]) (p.record key value) := by
  have hkept : ∀ a ∈ p.order, (writes.map (·.1) ++ [key]).idxOf a = (writes.map (·.1)).idxOf a :=
    fun a ha => List.idxOf_append_of_mem (h.mem_order.1 ha)
  have horder : p.order.Pairwise fun a b =>
      (writes.map (·.1) ++ [key]).idxOf a < (writes.map (·.1) ++ [key]).idxOf b := by
    refine h.order.imp_of_mem fun ha hb hlt => ?_
    rwa [hkept _ ha, hkept _ hb]
  refine ⟨h.sound.record key value, fun k => ?_, ?_⟩
  · rw [Pending.record, Dictionary.get?_set, h.latest, List.reverse_append]
    simp [KeyMap.find, eq_comm]
  · rw [List.map_append, List.map_singleton]
    unfold Pending.record
    dsimp only
    split
    · exact horder
    · next hfresh =>
      rw [← h.sound.mem_order, h.mem_order] at hfresh
      -- the key comes behind all keys so far, and so does its first write
      refine List.pairwise_append.2 ⟨horder, List.pairwise_singleton _ _, fun a ha b hb => ?_⟩
      rw [List.mem_singleton.1 hb, hkept a ha, List.idxOf_append_of_notMem hfresh]
      exact Nat.lt_add_right _ (List.idxOf_lt_length_of_mem (h.mem_order.1 ha))

theorem Holds.recordAll (h : Holds writes p) (more : List Mutation) :
    Holds (writes ++ more) (p.recordAll more) := by
  induction more generalizing writes p with
  | nil => rwa [List.append_nil]
  | cons head rest ih =>
    rw [List.append_cons]
    exact ih (h.record head.1 head.2)

theorem Sound.map_mutations (h : p.Sound) : p.mutations.map (·.1) = p.order := by
  rw [mutations, List.map_filterMap]
  refine (List.filterMap_congr fun key hkey => ?_).trans List.filterMap_some
  obtain ⟨value, hvalue⟩ := Option.isSome_iff_exists.1 ((h.mem_order key).1 hkey)
  rw [hvalue]
  rfl

theorem Sound.length_mutations (h : p.Sound) : p.mutations.length = p.order.length := by
  rw [← h.map_mutations, List.length_map]

theorem Holds.lists (h : Holds writes p) : Lists writes p.mutations := by
  refine ⟨h.sound.distinct, fun ⟨key, value⟩ => ?_, ?_⟩
  · rw [h.sound.mem_mutations, h.latest, Mutation.isLast_iff]
  · rw [h.sound.map_mutations]
    exact h.order

end Pending

/-! ## Operations on a buffer -/

namespace Store.Op

/-- Whether an operation ends what a buffer holds back. -/
def ends : Op → Bool
  | .commit | .discard => true
  | _ => false

/-- The writes since the last commit or discard, after one more operation. -/
def keep (writes : List Mutation) (op : Op) : List Mutation :=
  if op.ends then [] else writes ++ op.writes

/-- The writes of some operations since the last commit or discard. -/
def since (ops : List Op) : List Mutation := ops.foldl keep []

/-- An operation on a layer as a step. -/
def on (id : Nat) : Op → Layers.Step
  | .set key value => .write id key (some value)
  | .remove key => .write id key none
  | .get key => .get id key
  | .scan start => .scan id start
  | .applyBatch mutations => .applyBatch id mutations
  | .commit => .commit id
  | .discard => .discard id

end Store.Op

theorem Pending.Holds.perform {writes : List Mutation} {p : Pending} (h : p.Holds writes)
    (op : Store.Op) :
    Holds (op.keep writes) (if op.ends then .empty else p.recordAll op.writes) := by
  rw [Store.Op.keep]
  split
  · exact holds_empty
  · exact h.recordAll op.writes

namespace Layers

open Store (Op)

/-- The layers after some steps. -/
def afterAll (l : Layers) (steps : List Step) : Layers :=
  steps.foldl (fun l step => (l.perform step).2) l

/-- Whether an event is a commit that is refused. -/
def Event.isFailedCommit (event : Event) : Bool :=
  match event.step, event.answer with
  | .commit _, .count _ => false
  | .commit _, _ => true
  | _, _ => false

variable {l l' : Layers} {id under : Nat} {p : Pending} {writes : List Mutation}

theorem next_applyBatch {mutations : List Mutation} (h : l.applyBatch id mutations = .ok l') :
    l'.next = l.next := by
  unfold applyBatch at h
  split at h
  · cases h
    exact next_put _ _ _
  · cases h
    exact next_put _ _ _
  · cases h

theorem layer_put_self (h : id < l.next) (layer : Layer) : (l.put id layer).layer id = layer := by
  rw [layer_put, if_pos ⟨rfl, h⟩]

theorem write_buffer (hid : id < l.next) (hlayer : l.layer id = .buffer under p) (key : Bytes)
    (value : Option Bytes) :
    l.write id key value = .ok (l.put id (.buffer under (p.record key value))) := by
  obtain ⟨depth, hdepth⟩ := Nat.exists_eq_add_one.2 (Nat.zero_lt_of_lt hid)
  rw [write, hdepth, writeTo, hlayer]

theorem applyBatch_buffer (hlayer : l.layer id = .buffer under p) (mutations : List Mutation) :
    l.applyBatch id mutations = .ok (l.put id (.buffer under (p.recordAll mutations))) := by
  rw [applyBatch, hlayer]
  rfl

theorem pending_buffer (hlayer : l.layer id = .buffer under p) :
    l.pending id = .ok p.mutations := by
  rw [pending, hlayer]

theorem discard_buffer (hlayer : l.layer id = .buffer under p) :
    l.discard id = .ok (p.order.length, l.put id (.buffer under .empty)) := by
  rw [discard, hlayer]

/-- A commit that is made leaves nothing pending. -/
theorem commit_buffer (hid : id < l.next) (hlayer : l.layer id = .buffer under p) {count : Nat}
    (h : l.commit id = .ok (count, l')) :
    count = p.mutations.length ∧ l'.next = l.next ∧ l'.layer id = .buffer under .empty := by
  rw [commit, hlayer] at h
  dsimp only at h
  generalize hmade : (if p.mutations.isEmpty then Except.ok l
    else l.applyBatch under p.mutations) = made at h
  cases made with
  | error e => cases h
  | ok made =>
    have hnext : made.next = l.next := by
      split at hmade
      · cases hmade
        rfl
      · exact next_applyBatch hmade
    cases h
    exact ⟨rfl, (next_put _ _ _).trans hnext, layer_put_self (hnext ▸ hid) _⟩

/-- What an operation leaves in a buffer, unless it is a commit that is refused. -/
theorem layer_perform (hid : id < l.next) (hlayer : l.layer id = .buffer under p) (op : Op)
    (hmade : (Event.mk l (op.on id) (l.perform (op.on id)).1).isFailedCommit = false) :
    (l.perform (op.on id)).2.next = l.next ∧
      (l.perform (op.on id)).2.layer id =
        .buffer under (if op.ends then .empty else p.recordAll op.writes) := by
  have hput : ∀ p', (l.put id (.buffer under p')).next = l.next ∧
      (l.put id (.buffer under p')).layer id = .buffer under p' :=
    fun p' => ⟨next_put _ _ _, layer_put_self hid _⟩
  cases op with
  | set key value =>
    rw [Op.on, perform, write_buffer hid hlayer]
    exact hput _
  | remove key =>
    rw [Op.on, perform, write_buffer hid hlayer]
    exact hput _
  | get key => exact ⟨rfl, hlayer⟩
  | scan start =>
    rw [Op.on, perform]
    cases l.scan id start with
    | error unsupported => exact ⟨rfl, hlayer⟩
    | ok entries => exact ⟨rfl, hlayer⟩
  | applyBatch mutations =>
    rw [Op.on, perform, applyBatch_buffer hlayer]
    exact hput _
  | commit =>
    rw [Op.on, perform] at hmade ⊢
    cases hcommit : l.commit id with
    | error unsupported =>
      rw [hcommit] at hmade
      cases hmade
    | ok after => exact (commit_buffer hid hlayer hcommit).2
  | discard =>
    rw [Op.on, perform, discard_buffer hlayer]
    exact hput _

theorem holds_afterAll (hid : id < l.next) (hlayer : l.layer id = .buffer under p)
    (hholds : p.Holds writes) (ops : List Op)
    (hcommits : ∀ event ∈ l.trace (ops.map (Op.on id)), event.isFailedCommit = false) :
    ∃ p', id < (l.afterAll (ops.map (Op.on id))).next ∧
      (l.afterAll (ops.map (Op.on id))).layer id = .buffer under p' ∧
        p'.Holds (ops.foldl Op.keep writes) := by
  induction ops generalizing l p writes with
  | nil => exact ⟨p, hid, hlayer, hholds⟩
  | cons op rest ih =>
    rw [List.map_cons, trace, List.forall_mem_cons] at hcommits
    obtain ⟨hfirst, hrest⟩ := hcommits
    obtain ⟨hnext, hafter⟩ := layer_perform hid hlayer op hfirst
    exact ih (hnext ▸ hid) hafter (hholds.perform op) hrest

/-- Through any operations on a new buffer of which no commit fails, the pending writes are listed
as the writes since the last commit or discard say. A commit that is made and a discard tell how
many they are. The keys of the order are always those of the latest values, each of them once. -/
theorem pending_afterAll (hid : id < l.next) (hnew : l.layer id = .buffer under .empty)
    (ops : List Op)
    (hcommits : ∀ event ∈ l.trace (ops.map (Op.on id)), event.isFailedCommit = false) :
    let after := l.afterAll (ops.map (Op.on id))
    ∃ p pending, after.layer id = .buffer under p ∧ after.pending id = .ok pending ∧
      Pending.Lists (Op.since ops) pending ∧
      (∀ count l', after.commit id = .ok (count, l') → count = pending.length) ∧
      (∃ l', after.discard id = .ok (pending.length, l')) ∧
      p.order.Nodup ∧ ∀ key, key ∈ p.order ↔ (p.latest.get? key).isSome := by
  intro after
  obtain ⟨p, hid', hafter, hholds⟩ := holds_afterAll hid hnew Pending.holds_empty ops hcommits
  have hdiscard := discard_buffer hafter
  rw [← hholds.sound.length_mutations] at hdiscard
  exact ⟨p, p.mutations, hafter, pending_buffer hafter, hholds.lists,
    fun count l' hcommit => (commit_buffer hid' hafter hcommit).1, ⟨_, hdiscard⟩,
    hholds.sound.nodup, hholds.sound.mem_order⟩

/-- A buffer over a buffer over a table: keys are written again, removed where nothing is, and set
again after that, before a commit and behind it. -/
theorem pending_afterAll_rewriting :
    let l := ((ofStore (.table .empty)).push (.buffer 0 .empty)).push (.buffer 1 .empty)
    let ops : List Op :=
      [.set [9] [1], .remove [7], .set [9] [2], .commit, .remove [7], .set [1] [4], .get [1],
        .set [7] [5], .scan [], .remove [1]]
    (∀ event ∈ l.trace (ops.map (Op.on 2)), event.isFailedCommit = false) ∧
      ∃ pending, (l.afterAll (ops.map (Op.on 2))).pending 2 = .ok pending ∧
        Pending.Lists [([7], none), ([1], some [4]), ([7], some [5]), ([1], none)] pending ∧
        pending = [([7], some [5]), ([1], none)] := by
  intro l ops
  have hcommits : ∀ event ∈ l.trace (ops.map (Op.on 2)), event.isFailedCommit = false := by
    decide +kernel
  obtain ⟨p, pending, -, hpending, hlists, -⟩ :=
    pending_afterAll (by decide) rfl ops hcommits
  have heval : (l.afterAll (ops.map (Op.on 2))).pending 2 =
      .ok [([7], some [5]), ([1], none)] := by decide +kernel
  refine ⟨hcommits, pending, hpending, hlists, ?_⟩
  rw [heval] at hpending
  exact (Except.ok.inj hpending).symm

end Layers

end FungibleLedger
