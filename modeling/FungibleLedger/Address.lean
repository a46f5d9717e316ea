import FungibleLedger.Base64
import FungibleLedger.Json.Display

/-!
# Account addresses

What counts as an address depends on the ledger's format: a key address is the base64 form of a
public key of 32 bytes, a simple one is a short name in lower case.

* `AddressFormat.validate` : the address, or why it is none; `AddressFormat.ofJson` : of a value.
* `InvalidAddress` : a refused address with the reason.
-/

namespace FungibleLedger

/-- The two formats of addresses. -/
inductive AddressFormat
  | key
  | simple
deriving DecidableEq

/-- Why a text is no address. -/
inductive AddressFault
  | empty
  | notBase64
  | wrongLength (bytes : Nat)
  | notCanonical
  | notSimple
deriving DecidableEq

/-- How many bytes a public key has. -/
def publicKeyLength : Nat := 32

/-- The wording of a fault. -/
def AddressFault.message : AddressFault → String
  | .empty => "address is empty"
  | .notBase64 => "not valid base64"
  | .wrongLength bytes => s!"expected {publicKeyLength} key bytes, got {bytes}"
  | .notCanonical => "non-canonical base64 encoding"
  | .notSimple => "expected 3-90 characters of [a-z0-9_-]"

/-- A text that is no address, and why. -/
structure InvalidAddress where
  address : AnyText
  fault : AddressFault
deriving DecidableEq

/-- The wording of a refused address. -/
def InvalidAddress.message (e : InvalidAddress) : String :=
  s!"Invalid address {e.address.quoted}: {e.fault.message}"

namespace AddressFormat

/-- The name of a format in settings. -/
def name : AddressFormat → String
  | .key => "key"
  | .simple => "simple"

/-- The format of a name. -/
def ofName? : String → Option AddressFormat
  | "key" => some .key
  | "simple" => some .simple
  | _ => none

/-- The wording for a format that there is none of. -/
def unknownMessage (name : String) : String :=
  s!"Unknown address format: {name}"

/-- Whether a character may stand in a simple address. -/
def isSimpleChar (c : Char) : Bool :=
  c.isLower || c.isDigit || c == '_' || c == '-'

/-- The reason why a text is no address of a format, if there is one. -/
def fault? (format : AddressFormat) (address : String) : Option AddressFault :=
  match format with
  | .simple =>
    let cs := address.toList
    if 3 ≤ cs.length ∧ cs.length ≤ 90 ∧ cs.all isSimpleChar then none else some .notSimple
  | .key =>
    if address.isEmpty then some .empty
    else
      match Base64.decode true address with
      | .error _ => some .notBase64
      | .ok bytes =>
        if bytes.length ≠ publicKeyLength then some (.wrongLength bytes.length)
        else if Base64.encode bytes ≠ address then some .notCanonical
        else none

/-- The reason why a value that is no text is no address of a format. -/
def strayFault : AddressFormat → AddressFault
  | .key => .empty
  | .simple => .notSimple

/-- The reason why a broken text is no address of a format. -/
def brokenFault : AddressFormat → AddressFault
  | .key => .notBase64
  | .simple => .notSimple

/-- An address of a format, unchanged, or why a text is none. -/
def validate (format : AddressFormat) : AnyText → Except InvalidAddress String
  | .whole address =>
    match format.fault? address with
    | none => .ok address
    | some fault => .error ⟨address, fault⟩
  | text => .error ⟨text, format.brokenFault⟩

/-- The address of a format that a value writes. A value that is no text is refused under the text
that people are shown for it. -/
def ofJson (format : AddressFormat) : Json → Except InvalidAddress String
  | .str address => format.validate address
  | .halves codes => format.validate (.broken codes)
  | value => .error ⟨value.display, format.strayFault⟩

end AddressFormat

end FungibleLedger
