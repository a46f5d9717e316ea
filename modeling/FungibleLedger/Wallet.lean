import FungibleLedger.Base64
import FungibleLedger.Json.File
import FungibleLedger.Path
import FungibleLedger.Wallet.Ed25519

/-!
# Wallets

A wallet is a seed of 32 bytes. Its address is the base64 form of the public key of the seed, and
its file holds the address and the seed, both in base64.

* `Wallet.address` : the address of a wallet.
* `Wallet.fileText`, `Wallet.ofFile` : writing a wallet file, and reading one.
* `Wallet.pathFor` : where a wallet's file is.
-/

namespace FungibleLedger

/-- A seed of 32 bytes. -/
structure Wallet where
  seed : Bytes
  length_seed : seed.length = 32
deriving DecidableEq

namespace Wallet

/-- Why a file gives no wallet. -/
inductive Fault
  | unreadable (e : Json.FileError)
  | noObject
  | noKey
  | noText
  | notBase64 (fault : Base64.Fault)
  | seedLength
deriving DecidableEq

/-- The wording of a fault. -/
def Fault.message : Fault → String
  | .unreadable e => e.message
  | .noObject => "the file holds no object"
  | .noKey => "'private_key'"
  | .noText => "the private key is no text"
  | .notBase64 fault => fault.message
  | .seedLength => "The seed must be exactly 32 bytes long"

/-- The wallet of a seed, which has to have 32 bytes. -/
def ofSeed (seed : Bytes) : Except Fault Wallet :=
  if h : seed.length = 32 then .ok ⟨seed, h⟩ else .error .seedLength

/-- The address of a wallet. -/
def address (w : Wallet) : String :=
  Base64.encode (Ed25519.publicKey w.seed)

/-- The text of a wallet's file. -/
def fileText (w : Wallet) : String :=
  "\x7b\"address\": \"" ++ w.address ++ "\", \"private_key\": \"" ++ Base64.encode w.seed ++
    "\"\x7d"

/-- The wallet that a value writes. -/
def ofJson : Json → Except Fault Wallet
  | .obj members =>
    match Json.Members.get? members "private_key" with
    | none => .error .noKey
    | some (.str s) =>
      match Base64.decode false s with
      | .error fault => .error (.notBase64 fault)
      | .ok seed => ofSeed seed
    | some (.halves _) => .error (.notBase64 .notAscii)
    | some _ => .error .noText
  | _ => .error .noObject

/-- The wallet that a file holds. Containers in it may nest to a depth. -/
def ofFile (depth : Nat) (bytes : Bytes) : Except Fault Wallet :=
  match Json.ofFile depth bytes with
  | .error e => .error (.unreadable e)
  | .ok value => ofJson value

/-- Where a wallet's file is: at an explicit path, or under its name beside the default wallet, or
that wallet's own. An empty path or name counts as none. -/
def pathFor (homes : Homes) (name path : Option String) (default : Path) :
    Except UserFault Path :=
  match path.filter (· ≠ ""), name.filter (· ≠ "") with
  | some path, _ => (expandHome homes path).map .ofString
  | none, some name => .ok (default.parent.join (.ofString (name ++ ".json")))
  | none, none => .ok default

end Wallet

end FungibleLedger
