import FungibleLedger.Proofs.Storage.Buffer
import FungibleLedger.Proofs.Storage.Namespaces
import FungibleLedger.Storage.Layers

/-!
# Memory and tables are the same backend

A memory store and a table that start empty answer every sequence of operations alike, also through
buffers and views stacked over them (`Layers.trace_backends`). One answer can differ: a listing of
all records over a table misses the record of the empty key, in the table and in what a buffer
shows of it.

* `Layers.Step`, `Layers.perform`, `Layers.trace` : operations on layers and what they answer.
* `Layer.Twins`, `Layers.Twins` : layers that hold the same records in different ways. Every
  operation keeps them so.
* `Listings` : two listings of the same records, of which the second may miss the empty key. What a
  buffer overlays on them goes through this relation.

The proposition `spared` stands for the knowledge that nothing is stored under the empty key.
Nothing is missed where it holds, so one induction gives the agreement with and without it.
-/

namespace FungibleLedger

/-! ## Listings of the same records -/

variable {spared : Prop}

/-- Two listings in key order with the same records, except that the second may miss the record of
the empty key if everything was asked for. -/
structure Listings (spared : Prop) (start : Bytes) (xs ys : List (Bytes × Bytes)) : Prop where
  left : xs.Pairwise fun a b => a.1 < b.1
  right : ys.Pairwise fun a b => a.1 < b.1
  find : ∀ key, KeyMap.find key ys = KeyMap.find key xs ∨
    (start = [] ∧ key = [] ∧ KeyMap.find key ys = none)
  free : spared → KeyMap.find [] xs = none

theorem Listings.eq_or_filter {start : Bytes} {xs ys : List (Bytes × Bytes)}
    (h : Listings spared start xs ys) :
    ys = xs ∨ (¬ spared ∧ start = [] ∧ ys = xs.filter (·.1 ≠ [])) := by
  by_cases hempty : KeyMap.find [] ys = KeyMap.find [] xs
  · left
    refine KeyMap.eq_of_find_eq h.right h.left fun key => ?_
    rcases h.find key with heq | ⟨-, rfl, -⟩
    · exact heq
    · exact hempty
  · obtain ⟨hstart, -, hmissed⟩ := (h.find []).resolve_left hempty
    refine Or.inr ⟨fun hspared => hempty ?_, hstart, ?_⟩
    · rw [hmissed, h.free hspared]
    · refine KeyMap.eq_of_find_eq h.right (h.left.filter _) fun key => ?_
      rw [KeyMap.find_filter]
      by_cases hkey : key = []
      · rw [if_pos hkey, hkey, hmissed]
      · rw [if_neg hkey]
        exact (h.find key).resolve_right fun hexception => hkey hexception.2.1

/-- The write leaves no record under the empty key. -/
def Mutation.Spares (mutation : Mutation) : Prop :=
  mutation.1 = [] → mutation.2 = none

/-- The pending writes leave no record under the empty key. -/
def Pending.Spares (p : Pending) : Prop :=
  ∀ value, p.latest.get? [] ≠ some (some value)

theorem Pending.Spares.record {p : Pending} (h : p.Spares) {key : Bytes} {value : Option Bytes}
    (hwrite : Mutation.Spares (key, value)) : (p.record key value).Spares := by
  intro v
  rw [Pending.record, Dictionary.get?_set]
  split
  · next heq =>
    have hnone : value = none := hwrite heq.symm
    rw [hnone]
    simp
  · exact h v

theorem Pending.Spares.recordAll {p : Pending} (h : p.Spares) {mutations : List Mutation}
    (hwrites : ∀ mutation ∈ mutations, mutation.Spares) : (p.recordAll mutations).Spares := by
  induction mutations generalizing p with
  | nil => exact h
  | cons head rest ih =>
    refine ih (h.record (hwrites head List.mem_cons_self)) fun mutation hmem => ?_
    exact hwrites mutation (List.mem_cons_of_mem _ hmem)

theorem Pending.Spares.mutations {p : Pending} (h : p.Spares) :
    ∀ mutation ∈ p.mutations, mutation.Spares := by
  rintro ⟨key, value⟩ hmem (rfl : key = [])
  rw [Pending.mutations, List.mem_filterMap] at hmem
  obtain ⟨key, -, hlatest⟩ := hmem
  obtain ⟨value', hvalue, heq⟩ := Option.map_eq_some_iff.1 hlatest
  cases heq
  cases value with
  | none => rfl
  | some v => exact absurd hvalue (h v)

theorem Store.get?_applyBatch_nil {s : Store} {mutations : List Mutation}
    (hwrites : ∀ mutation ∈ mutations, mutation.Spares) (h : s.get? [] = none) :
    (s.applyBatch mutations).get? [] = none := by
  rw [get?_applyBatch, h]
  cases hfind : KeyMap.find [] mutations.reverse with
  | none => rfl
  | some value => exact hwrites _ (List.mem_reverse.1 (KeyMap.mem_of_find hfind)) rfl

theorem Listings.overlay {start : Bytes} {xs ys : List (Bytes × Bytes)}
    (h : Listings spared start xs ys) {p : Pending} (hp : spared → p.Spares) :
    Listings spared start (p.overlay start xs) (p.overlay start ys) := by
  have hxs := Pending.get?_overlay p start (KeyMap.distinct_of_ascending h.left)
  have hys := Pending.get?_overlay p start (KeyMap.distinct_of_ascending h.right)
  refine ⟨KeyMap.ascending _, KeyMap.ascending _, fun key => ?_, fun hspared => ?_⟩
  · rw [hxs, hys]
    cases (p.latest.restrict (KeyMap.startsWith start)).get? key with
    | some value => exact Or.inl rfl
    | none => exact h.find key
  · rw [hxs, Dictionary.get?_restrict, h.free hspared]
    split
    · cases hlatest : p.latest.get? [] with
      | none => rfl
      | some value =>
        cases value with
        | none => rfl
        | some v => exact absurd hlatest (hp hspared v)
    · rfl

theorem Listings.scan {records : Dictionary Bytes} {s : Store}
    (hget : ∀ key, s.get? key = records.get? key) (hfree : spared → records.get? [] = none)
    (start : Bytes) : Listings spared start ((Store.memory records).scan start) (s.scan start) := by
  have hmemory : ∀ key, KeyMap.find key ((Store.memory records).scan start) =
      if KeyMap.startsWith start key then (Store.memory records).get? key else none :=
    Store.find_scan (.memory records) (.inr trivial)
  refine ⟨Store.scan_ascending _ _, Store.scan_ascending _ _, fun key => ?_, fun hspared => ?_⟩
  · rcases s.find_scan_or start key with hfind | ⟨hstart, hkey, -, hmissed⟩
    · left
      rw [hfind, hmemory, hget]
      rfl
    · exact Or.inr ⟨hstart, hkey, hmissed⟩
  · rw [hmemory]
    split
    · exact hfree hspared
    · rfl

/-! ## Twin layers -/

/-- Two layers that hold the same records, the first in memory, or that are the same buffer or the
same view. -/
inductive Layer.Twins (spared : Prop) : Layer → Layer → Prop
  | roots {records : Dictionary Bytes} {s : Store} (get : ∀ key, s.get? key = records.get? key)
      (free : spared → records.get? [] = none) : Twins spared (.root (.memory records)) (.root s)
  | buffers {under : Nat} {pending : Pending} (free : spared → pending.Spares) :
      Twins spared (.buffer under pending) (.buffer under pending)
  | views {under : Nat} {view : View} {readOnly : Bool} (path : view.path ≠ []) :
      Twins spared (.view under view readOnly) (.view under view readOnly)

theorem Store.exists_applyBatch_memory (records : Dictionary Bytes) (mutations : List Mutation) :
    ∃ records', (Store.memory records).applyBatch mutations = .memory records' := by
  induction mutations generalizing records with
  | nil => exact ⟨records, rfl⟩
  | cons head rest ih =>
    obtain ⟨key, value⟩ := head
    cases value with
    | none => exact ih (records.remove key)
    | some v => exact ih (records.set key v)

theorem Layer.Twins.applyBatch {records : Dictionary Bytes} {s : Store} (mutations : List Mutation)
    (get : ∀ key, s.get? key = records.get? key) (free : spared → records.get? [] = none)
    (hwrites : spared → ∀ mutation ∈ mutations, mutation.Spares) :
    Layer.Twins spared (.root ((Store.memory records).applyBatch mutations))
      (.root (s.applyBatch mutations)) := by
  obtain ⟨records', hmemory⟩ := Store.exists_applyBatch_memory records mutations
  have hget : ∀ key,
      records'.get? key = ((Store.memory records).applyBatch mutations).get? key := by
    intro key
    rw [hmemory]
    rfl
  rw [hmemory]
  refine .roots (fun key => ?_) fun hspared => ?_
  · rw [hget, Store.get?_applyBatch, Store.get?_applyBatch, get]
    rfl
  · rw [hget]
    exact Store.get?_applyBatch_nil (hwrites hspared) (free hspared)

/-- Whether a layer is a view. -/
def Layer.isView : Layer → Bool
  | .view .. => true
  | _ => false

namespace Layers

/-- As many layers, and each the twin of the other one of its number. -/
structure Twins (spared : Prop) (a b : Layers) : Prop where
  next : b.next = a.next
  layer : ∀ id, (a.layer id).Twins spared (b.layer id)

theorem next_put (l : Layers) (id : Nat) (layer : Layer) : (l.put id layer).next = l.next :=
  List.length_set

theorem layer_put (l : Layers) (id : Nat) (layer : Layer) (i : Nat) :
    (l.put id layer).layer i = if i = id ∧ i < l.next then layer else l.layer i := by
  rw [Layers.layer, put, List.getElem?_set, next]
  by_cases hid : id = i
  · subst hid
    by_cases hlt : id < l.layers.length
    · simp [hlt]
    · simp [Layers.layer, hlt]
  · simp [Layers.layer, hid, Ne.symm hid]

theorem layer_push (l : Layers) (layer : Layer) (i : Nat) :
    (l.push layer).layer i = if i = l.next then layer else l.layer i := by
  rw [Layers.layer, push, next, List.getElem?_append, Layers.layer]
  rcases Nat.lt_trichotomy i l.layers.length with hlt | heq | hgt
  · simp [hlt, Nat.ne_of_lt hlt]
  · simp [heq]
  · have hbeyond : [layer][i - l.layers.length]? = none :=
      List.getElem?_eq_none (by simpa using by omega)
    simp [Nat.not_lt.2 hgt.le, Nat.ne_of_gt hgt, hbeyond]

namespace Twins

variable {a b : Layers} {x y : Layer}

theorem put (h : Twins spared a b) (id : Nat) (hlayer : x.Twins spared y) :
    Twins spared (a.put id x) (b.put id y) := by
  refine ⟨?_, fun i => ?_⟩
  · rw [next_put, next_put, h.next]
  · rw [layer_put, layer_put, h.next]
    split
    · exact hlayer
    · exact h.layer i

theorem push (h : Twins spared a b) (hlayer : x.Twins spared y) :
    Twins spared (a.push x) (b.push y) := by
  refine ⟨?_, fun i => ?_⟩
  · have hnext : b.layers.length = a.layers.length := h.next
    simp [Layers.push, Layers.next, hnext]
  · rw [layer_push, layer_push, h.next]
    split
    · exact hlayer
    · exact h.layer i

theorem getTo (h : Twins spared a b) (depth id : Nat) (key : Bytes) :
    b.getTo depth id key = a.getTo depth id key := by
  induction depth generalizing id key with
  | zero => rfl
  | succ depth ih =>
    have hlayer := h.layer id
    rw [Layers.getTo, Layers.getTo]
    generalize a.layer id = x, b.layer id = y at hlayer
    cases hlayer with
    | roots get free => exact get key
    | buffers free => simp only [ih]
    | views path => exact ih _ _

end Twins

/-! ## Operations that may be refused -/

/-- Both succeed, with results that are related, or both refuse the same operation. -/
inductive Matches {α β : Type} (R : α → β → Prop) :
    Except Unsupported α → Except Unsupported β → Prop
  | done {x : α} {y : β} (related : R x y) : Matches R (.ok x) (.ok y)
  | refused (kind kind' : LayerKind) (operation : Operation) :
      Matches R (.error ⟨kind, operation⟩) (.error ⟨kind', operation⟩)

theorem Matches.map {α β γ δ : Type} {R : α → β → Prop} {S : γ → δ → Prop}
    {x : Except Unsupported α} {y : Except Unsupported β} {f : α → γ} {g : β → δ}
    (h : Matches R x y) (himp : ∀ a b, R a b → S (f a) (g b)) : Matches S (x.map f) (y.map g) := by
  cases h with
  | done related => exact .done (himp _ _ related)
  | refused kind kind' operation => exact .refused kind kind' operation

namespace Twins

variable {a b : Layers}

theorem scanTo (h : Twins spared a b) (depth id : Nat) (start : Bytes) :
    Matches (Listings spared start) (a.scanTo depth id start) (b.scanTo depth id start) := by
  induction depth generalizing id start with
  | zero => exact .done ⟨.nil, .nil, fun _ => Or.inl rfl, fun _ => rfl⟩
  | succ depth ih =>
    have hlayer := h.layer id
    rw [Layers.scanTo, Layers.scanTo, refuse, refuse]
    generalize a.layer id = x, b.layer id = y at hlayer
    cases hlayer with
    | roots get free => exact .done (Listings.scan get free start)
    | @buffers under pending free => exact (ih under start).map fun _ _ hlist => hlist.overlay free
    | views path => exact .refused _ _ _

theorem scan (h : Twins spared a b) (id : Nat) (start : Bytes) :
    Matches (Listings spared start) (a.scan id start) (b.scan id start) := by
  rw [Layers.scan, Layers.scan, h.next]
  exact h.scanTo _ _ _

/-- Views list below a path, where nothing is missed. -/
theorem range (h : Twins spared a b) (id : Nat) :
    Matches (fun xs ys => ys = xs) (a.range id) (b.range id) := by
  have hlayer := h.layer id
  rw [Layers.range, Layers.range, refuse, refuse]
  generalize a.layer id = x, b.layer id = y at hlayer
  cases hlayer with
  | roots get free => exact .refused _ _ _
  | buffers free => exact .refused _ _ _
  | views path =>
    refine (h.scan _ _).map fun xs ys hlist => ?_
    have hsame : ys = xs := hlist.eq_or_filter.resolve_right fun hmissed => path hmissed.2.1
    rw [hsame]

/-- A view puts its path before the key, so nothing reaches the empty key through it. -/
theorem writeTo (h : Twins spared a b) (depth id : Nat) {key : Bytes} {value : Option Bytes}
    (hwrite : spared → (a.layer id).isView ∨ Mutation.Spares (key, value)) :
    Matches (Twins spared) (a.writeTo depth id key value) (b.writeTo depth id key value) := by
  induction depth generalizing id key with
  | zero => exact .done h
  | succ depth ih =>
    have hlayer := h.layer id
    rw [Layers.writeTo, Layers.writeTo, refuse, refuse]
    generalize a.layer id = x, b.layer id = y at hlayer hwrite
    cases hlayer with
    | roots get free =>
      refine .done (h.put id (Layer.Twins.applyBatch [(key, value)] get free fun hspared => ?_))
      rintro mutation hmem
      rw [List.mem_singleton.1 hmem]
      exact (hwrite hspared).resolve_left nofun
    | buffers free =>
      refine .done (h.put id (.buffers fun hspared => ?_))
      exact (free hspared).record ((hwrite hspared).resolve_left nofun)
    | @views under view readOnly path =>
      dsimp only
      split
      · exact .refused _ _ _
      · exact ih under fun _ => Or.inr fun hempty => absurd (List.append_eq_nil_iff.1 hempty).1 path

theorem write (h : Twins spared a b) (id : Nat) {key : Bytes} {value : Option Bytes}
    (hwrite : spared → (a.layer id).isView ∨ Mutation.Spares (key, value)) :
    Matches (Twins spared) (a.write id key value) (b.write id key value) := by
  rw [Layers.write, Layers.write, h.next]
  exact h.writeTo _ _ hwrite

theorem applyBatch (h : Twins spared a b) (id : Nat) {mutations : List Mutation}
    (hwrites : spared → ∀ mutation ∈ mutations, mutation.Spares) :
    Matches (Twins spared) (a.applyBatch id mutations) (b.applyBatch id mutations) := by
  have hlayer := h.layer id
  rw [Layers.applyBatch, Layers.applyBatch, refuse, refuse]
  generalize a.layer id = x, b.layer id = y at hlayer
  cases hlayer with
  | roots get free => exact .done (h.put id (Layer.Twins.applyBatch mutations get free hwrites))
  | buffers free =>
    exact .done (h.put id (.buffers fun hspared => (free hspared).recordAll (hwrites hspared)))
  | views path => exact .refused _ _ _

theorem pending (h : Twins spared a b) (id : Nat) :
    Matches (fun xs ys => ys = xs) (a.pending id) (b.pending id) := by
  have hlayer := h.layer id
  rw [Layers.pending, Layers.pending, refuse, refuse]
  generalize a.layer id = x, b.layer id = y at hlayer
  cases hlayer with
  | roots get free => exact .refused _ _ _
  | buffers free => exact .done rfl
  | views path => exact .refused _ _ _

theorem commit (h : Twins spared a b) (id : Nat) :
    Matches (fun x y => y.1 = x.1 ∧ Twins spared x.2 y.2) (a.commit id) (b.commit id) := by
  have hlayer := h.layer id
  rw [Layers.commit, Layers.commit, refuse, refuse]
  generalize a.layer id = x, b.layer id = y at hlayer
  cases hlayer with
  | roots get free => exact .refused _ _ _
  | @buffers under pending free =>
    have hmade : Matches (Twins spared)
        (if pending.mutations.isEmpty then .ok a else a.applyBatch under pending.mutations)
        (if pending.mutations.isEmpty then .ok b else b.applyBatch under pending.mutations) := by
      split
      · exact .done h
      · exact h.applyBatch under fun hspared => (free hspared).mutations
    exact hmade.map fun x y hxy => ⟨rfl, hxy.put id (.buffers fun _ => nofun)⟩
  | views path => exact .refused _ _ _

theorem discard (h : Twins spared a b) (id : Nat) :
    Matches (fun x y => y.1 = x.1 ∧ Twins spared x.2 y.2) (a.discard id) (b.discard id) := by
  have hlayer := h.layer id
  rw [Layers.discard, Layers.discard, refuse, refuse]
  generalize a.layer id = x, b.layer id = y at hlayer
  cases hlayer with
  | roots get free => exact .refused _ _ _
  | buffers free => exact .done ⟨rfl, h.put id (.buffers fun _ => nofun)⟩
  | views path => exact .refused _ _ _

end Twins

/-! ## Sequences of operations -/

/-- The layers over one store. -/
def ofStore (store : Store) : Layers := empty.push (.root store)

/-- A new layer, or something asked of a layer. -/
inductive Step
  | buffer (under : Nat)
  | view (under : Nat) (names : List Bytes) (readOnly : Bool)
  | get (id : Nat) (key : Bytes)
  | write (id : Nat) (key : Bytes) (value : Option Bytes)
  | scan (id : Nat) (start : Bytes)
  | range (id : Nat)
  | applyBatch (id : Nat) (mutations : List Mutation)
  | pending (id : Nat)
  | commit (id : Nat)
  | discard (id : Nat)

inductive Answer
  | done
  | noView (fault : Namespace.Fault)
  | refused (operation : Operation)
  | value (value : Option Bytes)
  | entries (entries : List (Bytes × Bytes))
  | mutations (mutations : List Mutation)
  | count (count : Nat)
deriving DecidableEq

/-- What came of an operation on layers: an answer and the layers after it, or a refusal, which
changes nothing. A layer is asked by its number, so the refusal tells the operation and not what
the layer is. -/
def settle (l : Layers) : Except Unsupported (Answer × Layers) → Answer × Layers
  | .ok result => result
  | .error unsupported => (.refused unsupported.operation, l)

def perform (l : Layers) : Step → Answer × Layers
  | .buffer under => (.done, l.push (.buffer under .empty))
  | .view under names readOnly =>
    match View.of names with
    | .error fault => (.noView fault, l)
    | .ok view => (.done, l.push (.view under view readOnly))
  | .get id key => (.value (l.get? id key), l)
  | .write id key value => l.settle ((l.write id key value).map (.done, ·))
  | .scan id start => l.settle ((l.scan id start).map fun entries => (.entries entries, l))
  | .range id => l.settle ((l.range id).map fun entries => (.entries entries, l))
  | .applyBatch id mutations => l.settle ((l.applyBatch id mutations).map (.done, ·))
  | .pending id => l.settle ((l.pending id).map fun mutations => (.mutations mutations, l))
  | .commit id => l.settle ((l.commit id).map fun (count, l) => (.count count, l))
  | .discard id => l.settle ((l.discard id).map fun (count, l) => (.count count, l))

/-- A step of a run: the layers before it, the step, and the answer to it. -/
structure Event where
  before : Layers
  step : Step
  answer : Answer

/-- The events of a run. -/
def trace (l : Layers) : List Step → List Event
  | [] => []
  | step :: rest => ⟨l, step, (l.perform step).1⟩ :: trace (l.perform step).2 rest

/-- Whether an event stores a value under the empty key. A view stores its path under it instead. -/
def Event.StoresEmptyKey (event : Event) : Prop :=
  match event.step with
  | .write id key (some _) => key = [] ∧ (event.before.layer id).isView = false
  | .applyBatch _ mutations => ∃ value, ([], some value) ∈ mutations
  | _ => False

theorem exists_value_mem_iff {mutations : List Mutation} {key : Bytes} :
    (∃ mutation ∈ mutations, mutation.1 = key ∧ mutation.2.isSome) ↔
      ∃ value, (key, some value) ∈ mutations := by
  constructor
  · rintro ⟨⟨key, value⟩, hmem, rfl, hsome⟩
    obtain ⟨v, rfl⟩ := Option.isSome_iff_exists.mp hsome
    exact ⟨v, hmem⟩
  · rintro ⟨value, hmem⟩
    exact ⟨_, hmem, rfl, rfl⟩

instance : DecidablePred Event.StoresEmptyKey
  | ⟨_, .write _ _ (some _), _⟩ => inferInstanceAs (Decidable (_ ∧ _))
  | ⟨_, .applyBatch _ _, _⟩ => decidable_of_iff _ exists_value_mem_iff
  | ⟨_, .write _ _ none, _⟩ | ⟨_, .buffer _, _⟩ | ⟨_, .view _ _ _, _⟩ | ⟨_, .get _ _, _⟩
  | ⟨_, .scan _ _, _⟩ | ⟨_, .range _, _⟩ | ⟨_, .pending _, _⟩ | ⟨_, .commit _, _⟩
  | ⟨_, .discard _, _⟩ => .isFalse id

/-- Whether a step lists all entries, and the second answer leaves out the entry of the empty key
that the first one may have. -/
def Answer.Omits (step : Step) (x y : Answer) : Prop :=
  ∃ id entries, step = .scan id [] ∧ x = .entries entries ∧
    y = .entries (entries.filter (·.1 ≠ []))

/-- Events of one step with one answer, except that the second may leave the empty key out. -/
structure Event.Alike (x y : Event) : Prop where
  step : y.step = x.step
  answer : y.answer = x.answer ∨ Answer.Omits x.step x.answer y.answer

/-- Answers to one step that only differ where the empty key is not spared, and twin layers. -/
structure Agree (spared : Prop) (step : Step) (x y : Answer × Layers) : Prop where
  answer : y.1 = x.1 ∨ (¬ spared ∧ Answer.Omits step x.1 y.1)
  layers : Twins spared x.2 y.2

theorem spares_of_not_storesEmptyKey {l : Layers} {id : Nat} {mutations : List Mutation}
    {answer : Answer} (h : ¬ Event.StoresEmptyKey ⟨l, .applyBatch id mutations, answer⟩) :
    ∀ mutation ∈ mutations, mutation.Spares := by
  rintro ⟨key, value⟩ hmem (rfl : key = [])
  cases value with
  | none => rfl
  | some v => exact absurd ⟨v, hmem⟩ h

theorem isView_or_spares_of_not_storesEmptyKey {l : Layers} {id : Nat} {key : Bytes}
    {value : Option Bytes} {answer : Answer}
    (h : ¬ Event.StoresEmptyKey ⟨l, .write id key value, answer⟩) :
    (l.layer id).isView ∨ Mutation.Spares (key, value) := by
  cases hview : (l.layer id).isView with
  | true => exact Or.inl rfl
  | false =>
    right
    rintro (rfl : key = [])
    cases value with
    | none => rfl
    | some v => exact absurd ⟨rfl, hview⟩ h

namespace Twins

variable {a b : Layers} {step : Step}

theorem settle (h : Twins spared a b) {x y : Except Unsupported (Answer × Layers)}
    (hmatch : Matches (Agree spared step) x y) :
    Agree spared step (a.settle x) (b.settle y) := by
  cases hmatch with
  | done related => exact related
  | refused kind kind' operation => exact ⟨Or.inl rfl, h⟩

/-- Twin layers answer a step alike and are twins after it. -/
theorem perform (h : Twins spared a b)
    (hstep : spared → ¬ Event.StoresEmptyKey ⟨a, step, (a.perform step).1⟩) :
    Agree spared step (a.perform step) (b.perform step) := by
  cases step with
  | buffer under => exact ⟨Or.inl rfl, h.push (.buffers fun _ => nofun)⟩
  | view under names readOnly =>
    rw [Layers.perform, Layers.perform]
    cases hview : View.of names with
    | error fault => exact ⟨Or.inl rfl, h⟩
    | ok view => exact ⟨Or.inl rfl, h.push (.views (View.path_ne_nil hview))⟩
  | get id key =>
    refine ⟨Or.inl ?_, h⟩
    rw [Layers.perform, Layers.perform, get?, get?, h.next, h.getTo]
  | write id key value =>
    have hwrite := h.write id fun hspared =>
      isView_or_spares_of_not_storesEmptyKey (hstep hspared)
    exact h.settle (hwrite.map fun _ _ htwins => ⟨Or.inl rfl, htwins⟩)
  | scan id start =>
    refine h.settle ((h.scan id start).map fun xs ys hlist => ⟨?_, h⟩)
    rcases hlist.eq_or_filter with rfl | ⟨hspared, rfl, rfl⟩
    · exact Or.inl rfl
    · exact Or.inr ⟨hspared, id, xs, rfl, rfl, rfl⟩
  | range id =>
    refine h.settle ((h.range id).map ?_)
    rintro entries _ rfl
    exact ⟨Or.inl rfl, h⟩
  | applyBatch id mutations =>
    have hbatch := h.applyBatch id fun hspared => spares_of_not_storesEmptyKey (hstep hspared)
    exact h.settle (hbatch.map fun _ _ htwins => ⟨Or.inl rfl, htwins⟩)
  | pending id =>
    refine h.settle ((h.pending id).map ?_)
    rintro mutations _ rfl
    exact ⟨Or.inl rfl, h⟩
  | commit id =>
    refine h.settle ((h.commit id).map ?_)
    rintro ⟨count, l⟩ ⟨_, l'⟩ ⟨rfl, htwins⟩
    exact ⟨Or.inl rfl, htwins⟩
  | discard id =>
    refine h.settle ((h.discard id).map ?_)
    rintro ⟨count, l⟩ ⟨_, l'⟩ ⟨rfl, htwins⟩
    exact ⟨Or.inl rfl, htwins⟩

theorem trace (h : Twins spared a b) (steps : List Step)
    (hsteps : spared → ∀ event ∈ a.trace steps, ¬ event.StoresEmptyKey) :
    List.Forall₂ Event.Alike (a.trace steps) (b.trace steps) ∧
      (spared → (b.trace steps).map (·.answer) = (a.trace steps).map (·.answer)) := by
  induction steps generalizing a b with
  | nil => exact ⟨.nil, fun _ => rfl⟩
  | cons step rest ih =>
    have hagree := h.perform fun hspared => hsteps hspared _ List.mem_cons_self
    obtain ⟨halike, hsame⟩ := ih hagree.layers fun hspared event hmem =>
      hsteps hspared event (List.mem_cons_of_mem _ hmem)
    refine ⟨.cons ⟨rfl, hagree.answer.imp_right And.right⟩ halike, fun hspared => ?_⟩
    have hfirst := hagree.answer.resolve_right fun hmissed => hmissed.1 hspared
    rw [Layers.trace, Layers.trace, List.map_cons, List.map_cons, hsame hspared, hfirst]

end Twins

theorem twins_ofStore : Twins spared (ofStore (.memory .empty)) (ofStore (.table .empty)) := by
  have hempty : Twins spared empty empty := ⟨rfl, fun _ => .roots (fun _ => rfl) fun _ => rfl⟩
  exact hempty.push (.roots (fun _ => rfl) fun _ => rfl)

/-- An empty table answers as an empty memory store does, whatever is asked of them and of the
buffers and views over them. Only a listing of all entries may leave the one of the empty key out,
and nothing is left out if nothing is stored there. -/
theorem trace_backends (steps : List Step) :
    let memory := (ofStore (.memory .empty)).trace steps
    let table := (ofStore (.table .empty)).trace steps
    List.Forall₂ Event.Alike memory table ∧
      ((∀ event ∈ memory, ¬ event.StoresEmptyKey) →
        table.map (·.answer) = memory.map (·.answer)) := by
  intro memory table
  exact twins_ofStore.trace steps id

/-- A view stores its path under its empty key, and a removal or a read of the empty key stores
nothing there: the backends agree on such a run, its listings included. -/
theorem trace_backends_of_views :
    let steps : List Step :=
      [.buffer 0, .view 1 [[5]] false, .write 2 [] (some [1]), .write 2 [6] (some [2]),
        .scan 1 [], .write 1 [] none, .applyBatch 0 [([], none), ([7], some [3])], .commit 1,
        .get 0 [], .scan 0 [], .range 2]
    let memory := (ofStore (.memory .empty)).trace steps
    let table := (ofStore (.table .empty)).trace steps
    let answers : List Answer :=
      [.done, .done, .done, .done, .entries [([0, 1, 5], [1]), ([0, 1, 5, 6], [2])], .done,
        .done, .count 3, .value none,
        .entries [([0, 1, 5], [1]), ([0, 1, 5, 6], [2]), ([7], [3])],
        .entries [([], [1]), ([6], [2])]]
    (∀ event ∈ memory, ¬ event.StoresEmptyKey) ∧
      memory.map (·.answer) = answers ∧ table.map (·.answer) = answers := by
  intro steps memory table answers
  have hspared : ∀ event ∈ memory, ¬ event.StoresEmptyKey := by decide +kernel
  have hmemory : memory.map (·.answer) = answers := by decide +kernel
  exact ⟨hspared, hmemory, ((trace_backends steps).2 hspared).trans hmemory⟩

-- A buffer shows its own record of the empty key over a table, and not the one of the table.
example :
    let steps : List Step :=
      [.write 0 [] (some [1]), .write 0 [7] (some [2]), .buffer 0, .scan 1 [],
        .write 1 [] (some [3]), .scan 1 [], .commit 1, .scan 1 [], .get 1 []]
    ((ofStore (.memory .empty)).trace steps).map (·.answer) =
        [.done, .done, .done, .entries [([], [1]), ([7], [2])], .done,
          .entries [([], [3]), ([7], [2])], .count 1, .entries [([], [3]), ([7], [2])],
          .value (some [3])] ∧
      ((ofStore (.table .empty)).trace steps).map (·.answer) =
        [.done, .done, .done, .entries [([7], [2])], .done, .entries [([], [3]), ([7], [2])],
          .count 1, .entries [([7], [2])], .value (some [3])] := by
  decide +kernel

end Layers

end FungibleLedger
