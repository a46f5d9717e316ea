import FungibleLedger.Storage.View

/-!
# Layers over one store

Several buffers and views may stand over one store and over each other, and each sees what the
others commit. Layers are kept side by side, and a buffer or a view names the layer under it. Not
every layer can do everything: views are no stores of their own, and some may only be read.

* `Layers.get?`, `Layers.scan`, `Layers.range` : reading.
* `Layers.write`, `Layers.applyBatch` : writing.
* `Layers.pending`, `Layers.commit`, `Layers.discard` : what a buffer holds back, and its end.
* `Unsupported` : what a layer cannot do.
-/

namespace FungibleLedger

/-- A store that holds records, or a buffer over an earlier layer or a view of it. -/
inductive Layer
  | root (store : Store)
  | buffer (under : Nat) (pending : Pending)
  | view (under : Nat) (view : View) (readOnly : Bool)

/-- The kinds of layers. -/
inductive LayerKind
  | memory
  | table
  | buffer
  | view
  | readOnlyView
deriving DecidableEq

/-- The kind of a layer. -/
def Layer.kind : Layer → LayerKind
  | .root (.memory _) => .memory
  | .root (.table _) => .table
  | .root (.buffered ..) => .buffer
  | .buffer .. => .buffer
  | .view _ _ readOnly => if readOnly then .readOnlyView else .view

/-- What may be asked of a layer, except the value of a key. -/
inductive Operation
  | set
  | remove
  | scan
  | range
  | applyBatch
  | pending
  | commit
  | discard
  | size
deriving DecidableEq

/-- An operation that a kind of layers does not have. -/
structure Unsupported where
  kind : LayerKind
  operation : Operation
deriving DecidableEq

/-- Layers, numbered from zero. -/
structure Layers where
  layers : List Layer

namespace Layers

/-- No layers. -/
def empty : Layers := ⟨[]⟩

/-- The number that the next layer gets. -/
def next (l : Layers) : Nat := l.layers.length

/-- The layers with one more. -/
def push (l : Layers) (layer : Layer) : Layers := ⟨l.layers ++ [layer]⟩

/-- The layers with one replaced. -/
def put (l : Layers) (id : Nat) (layer : Layer) : Layers := ⟨l.layers.set id layer⟩

/-- The layer of a number; where there is none, an empty store. -/
def layer (l : Layers) (id : Nat) : Layer :=
  l.layers[id]?.getD (.root (.memory .empty))

/-- The refusal of an operation by a layer. -/
def refuse {α : Type} (l : Layers) (id : Nat) (operation : Operation) : Except Unsupported α :=
  .error ⟨(l.layer id).kind, operation⟩

/-! ## Reading -/

/-- The value of a key of a layer, of which at most `depth` are followed downwards. -/
def getTo (l : Layers) : (depth id : Nat) → Bytes → Option Bytes
  | 0, _, _ => none
  | depth + 1, id, key =>
    match l.layer id with
    | .root store => store.get? key
    | .buffer under pending =>
      match pending.latest.get? key with
      | some value => value
      | none => l.getTo depth under key
    | .view under view _ => l.getTo depth under (view.path ++ key)

/-- The value of a key of a layer. -/
def get? (l : Layers) (id : Nat) (key : Bytes) : Option Bytes :=
  l.getTo l.next id key

/-- The entries of a layer whose key begins with given bytes, in key order. At most `depth` layers
are followed downwards. -/
def scanTo (l : Layers) : (depth id : Nat) → Bytes → Except Unsupported (List (Bytes × Bytes))
  | 0, _, _ => .ok []
  | depth + 1, id, start =>
    match l.layer id with
    | .root store => .ok (store.scan start)
    | .buffer under pending => (l.scanTo depth under start).map (pending.overlay start)
    | .view .. => l.refuse id .scan

/-- The entries of a layer whose key begins with given bytes, in key order. -/
def scan (l : Layers) (id : Nat) (start : Bytes) : Except Unsupported (List (Bytes × Bytes)) :=
  l.scanTo l.next id start

/-- The entries of a view, in key order, their keys without the path. -/
def range (l : Layers) (id : Nat) : Except Unsupported (List (Bytes × Bytes)) :=
  match l.layer id with
  | .view under view _ =>
    (l.scan under view.path).map fun rows =>
      rows.map fun (key, value) => (key.drop view.path.length, value)
  | _ => l.refuse id .range

/-- The number of records of a store in memory. -/
def size (l : Layers) (id : Nat) : Except Unsupported Nat :=
  match l.layer id with
  | .root (.memory records) => .ok records.size
  | _ => l.refuse id .size

/-! ## Writing -/

/-- The layers after one write to one of them, which views pass on; at most `depth` layers are
followed downwards. -/
def writeTo (l : Layers) : (depth id : Nat) → Bytes → Option Bytes → Except Unsupported Layers
  | 0, _, _, _ => .ok l
  | depth + 1, id, key, value =>
    match l.layer id with
    | .root store => .ok (l.put id (.root (store.write key value)))
    | .buffer under pending => .ok (l.put id (.buffer under (pending.record key value)))
    | .view under view readOnly =>
      if readOnly then l.refuse id (if value.isSome then .set else .remove)
      else l.writeTo depth under (view.path ++ key) value

/-- The layers after one write to one of them. -/
def write (l : Layers) (id : Nat) (key : Bytes) (value : Option Bytes) :
    Except Unsupported Layers :=
  l.writeTo l.next id key value

/-- The layers after a list of writes to one of them, in order. -/
def applyBatch (l : Layers) (id : Nat) (mutations : List Mutation) : Except Unsupported Layers :=
  match l.layer id with
  | .root store => .ok (l.put id (.root (store.applyBatch mutations)))
  | .buffer under pending =>
    let pending := mutations.foldl (fun p (key, value) => p.record key value) pending
    .ok (l.put id (.buffer under pending))
  | .view .. => l.refuse id .applyBatch

/-! ## Buffers -/

/-- The writes that a buffer holds back. -/
def pending (l : Layers) (id : Nat) : Except Unsupported (List Mutation) :=
  match l.layer id with
  | .buffer _ pending => .ok pending.mutations
  | _ => l.refuse id .pending

/-- The number of writes that a buffer held back, and the layers after they are made on the layer
under it. Nothing at all is asked of that layer if there are none. -/
def commit (l : Layers) (id : Nat) : Except Unsupported (Nat × Layers) :=
  match l.layer id with
  | .buffer under pending =>
    let mutations := pending.mutations
    let made := if mutations.isEmpty then .ok l else l.applyBatch under mutations
    made.map fun l => (mutations.length, l.put id (.buffer under .empty))
  | _ => l.refuse id .commit

/-- The number of writes that a buffer held back, and the layers after they are dropped. -/
def discard (l : Layers) (id : Nat) : Except Unsupported (Nat × Layers) :=
  match l.layer id with
  | .buffer under pending => .ok (pending.order.length, l.put id (.buffer under .empty))
  | _ => l.refuse id .discard

end Layers

end FungibleLedger
