import FungibleLedger.Storage.Store

/-!
# Namespaces

Records of different kinds live in one store under different namespaces. A namespace contributes
its length in two bytes and then itself to a key, so nested namespaces can be read off a key
without ambiguity.

* `Namespace.encode`, `Namespace.encodeAll` : the bytes of one namespace, and of nested ones.
* `View.of` : the part of a store under nested namespaces.
* `View.get?`, `View.range`, `View.set`, `View.remove` : reading and writing there.
-/

namespace FungibleLedger

namespace Namespace

/-- Why there is no view. -/
inductive Fault
  | none
  | tooLong
deriving DecidableEq

/-- The wording of a fault. -/
def Fault.message : Fault → String
  | .none => "At least one namespace is required"
  | .tooLong => "Namespace exceeds 65535 bytes"

/-- The most bytes of a namespace. -/
def limit : Nat := 0xFFFF

/-- A namespace behind its length in two bytes. -/
def frame (name : Bytes) : Bytes :=
  Bytes.ofNat 2 name.length ++ name

/-- A namespace behind its length, which two bytes have to hold. -/
def encode (name : Bytes) : Except Fault Bytes :=
  if name.length > limit then .error .tooLong else .ok (frame name)

/-- Nested namespaces, the outermost first. -/
def encodeAll : List Bytes → Except Fault Bytes
  | [] => .ok []
  | name :: rest =>
    match encode name with
    | .error fault => .error fault
    | .ok bytes => (encodeAll rest).map (bytes ++ ·)

end Namespace

/-- The part of a store whose keys begin with a path. -/
structure View where
  path : Bytes
deriving DecidableEq

namespace View

/-- The view under nested namespaces, of which there has to be one. -/
def of (names : List Bytes) : Except Namespace.Fault View :=
  match names with
  | [] => .error .none
  | names => (Namespace.encodeAll names).map View.mk

/-- The value of a key of a view. -/
def get? (v : View) (s : Store) (key : Bytes) : Option Bytes :=
  s.get? (v.path ++ key)

/-- The store with one key of a view set. -/
def set (v : View) (s : Store) (key value : Bytes) : Store :=
  s.set (v.path ++ key) value

/-- The store without one key of a view. -/
def remove (v : View) (s : Store) (key : Bytes) : Store :=
  s.remove (v.path ++ key)

/-- The entries of a view, in key order, their keys without the path. -/
def range (v : View) (s : Store) : List (Bytes × Bytes) :=
  (s.scan v.path).map fun (key, value) => (key.drop v.path.length, value)

end View

end FungibleLedger
