import FungibleLedger.Files
import FungibleLedger.Json.File
import FungibleLedger.Message

/-!
# Genesis files

* `GenesisFile.read` : the genesis message that a file of a tree holds.
* `GenesisFile.Fault` : why there is none.
-/

namespace FungibleLedger.GenesisFile

/-- Why a file gives no genesis message. -/
inductive Fault
  | file (e : FileError)
  | unreadable (e : Json.FileError)
  | invalid (path : Path) (rejection : Schema.Rejection)
deriving DecidableEq

/-- The wording of a fault, without the report on a rejected value. -/
def Fault.summary : Fault → String
  | .file e => e.message
  | .unreadable e => e.message
  | .invalid path _ => s!"Invalid initialize message in {path.toString}"

/-- The wording of a fault, with the report on a rejected value. -/
def Fault.message (details : Schema.Details) : Fault → String
  | .invalid path rejection =>
    s!"Invalid initialize message in {path.toString}: {rejection.report details}"
  | fault => fault.summary

/-- The genesis message in the file that a path leads to. Containers in it may nest to a depth. -/
def read (depth : Nat) (files : Files) (path : Path) : Except Fault Genesis :=
  match files.read path with
  | .error e => .error (.file e)
  | .ok bytes =>
    match Json.ofFile depth bytes with
    | .error e => .error (.unreadable e)
    | .ok value => (Genesis.ofJson value).mapError (.invalid path)

end FungibleLedger.GenesisFile
