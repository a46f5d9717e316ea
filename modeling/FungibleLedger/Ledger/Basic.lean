import FungibleLedger.Failure
import FungibleLedger.Metadata
import FungibleLedger.Response

/-!
# Ledgers and their records

A ledger is a set of rules: which texts are addresses and how long a token's name and symbol are.
It keeps its records in the store that it is handed, under three namespaces, and an action on that
store leaves its writes there even when it fails.

* `Ledger` : the rules.
* `Ledger.Action` : a step that reads and writes a store and may fail.
* `Ledger.amountAt`, `Ledger.writeAmount` : the records that hold amounts.
* `Ledger.readAllowance`, `Ledger.writeAllowance` : what a spender may still draw from an owner.
-/

namespace FungibleLedger

/-- The least and greatest lengths of a token's name and symbol. -/
structure Bounds where
  nameLeast : Int
  nameGreatest : Int
  symbolLeast : Int
  symbolGreatest : Int
deriving DecidableEq

/-- The rules of a ledger. -/
structure Ledger where
  addresses : AddressFormat
  bounds : Bounds
deriving DecidableEq

namespace Ledger

/-! ## Metadata -/

/-- Whether a token's name has a good length, in bytes of UTF-8. -/
def isValidName (l : Ledger) (name : String) : Bool :=
  let length : Int := (utf8 name).length
  l.bounds.nameLeast ≤ length && length ≤ l.bounds.nameGreatest

/-- Whether a ticker symbol has a good length and only the capitals `A` to `Z`. -/
def isValidSymbol (l : Ledger) (symbol : String) : Bool :=
  let length : Int := symbol.toList.length
  l.bounds.symbolLeast ≤ length && length ≤ l.bounds.symbolGreatest &&
    symbol.toList.all Char.isUpper

/-- The name that a text is; a broken text has no length in bytes. -/
def nameOf (l : Ledger) : AnyText → Except Failure String
  | .whole name => if l.isValidName name then .ok name else .error (.nameFormat name)
  | .broken codes => .error (.unencodable (.ofCodes codes))

/-- The ticker symbol that a text is. -/
def symbolOf (l : Ledger) : AnyText → Except Failure String
  | .whole symbol => if l.isValidSymbol symbol then .ok symbol else .error (.symbolFormat symbol)
  | text => .error (.symbolFormat text)

/-! ## Accounts -/

/-- The address that a text is. -/
def addressOf (l : Ledger) (text : AnyText) : Except Failure String :=
  (l.addresses.validate text).mapError .invalidAddress

/-- The account of a sender, who need not have an address. A broken text has no bytes that a record
could be found by. -/
def senderOf : AnyText → Except Failure String
  | .whole account => .ok account
  | .broken codes => .error (.unencodable (.ofCodes codes))

/-! ## Places of records -/

/-- The namespace of the metadata and the total supply. -/
def configView : View := ⟨Namespace.frame (utf8 "config")⟩

/-- The namespace of balances, keyed by account. -/
def balanceView : View := ⟨Namespace.frame (utf8 "balances")⟩

/-- The namespace of the allowances that an owner granted, keyed by spender. -/
def allowanceView (owner : String) : Except Failure View :=
  (View.of [utf8 "allowances", utf8 owner]).mapError .noView

/-- The key of the metadata record. -/
def metadataKey : Bytes := utf8 "constants"

/-- The key of the total supply record. -/
def supplyKey : Bytes := utf8 "total_supply"

/-! ## Reading -/

/-- The amount that a stored record holds. -/
def decodeAmount (raw : Bytes) : Except Failure Amount :=
  (Amount.decode raw).mapError fun e => .violation (.wrongWidth e)

/-- The amount under a key, where no record stands for zero. -/
def amountAt (s : Store) (view : View) (key : Bytes) : Except Failure Amount :=
  match view.get? s key with
  | none => .ok .zero
  | some raw => decodeAmount raw

/-- The balance of an account. -/
def balanceAt (s : Store) (account : String) : Except Failure Amount :=
  amountAt s balanceView (utf8 account)

/-- What a spender may still draw from an owner. -/
def allowanceAt (s : Store) (owner spender : String) : Except Failure Amount :=
  match allowanceView owner with
  | .error e => .error e
  | .ok view => amountAt s view (utf8 spender)

/-! ## Actions -/

/-- A step that reads and writes a store and may fail; what it wrote before it failed stays. -/
abbrev Action (α : Type) := EStateM Failure Store α

/-- The value of a computation without a store, as a step. -/
def lift {α : Type} : Except Failure α → Action α
  | .ok a => pure a
  | .error e => throw e

/-- The step that reads the balance of an account. -/
def readBalance (account : String) : Action Amount := do
  lift (balanceAt (← get) account)

/-- The step that writes a number under a key, as an amount. -/
def writeAmount (view : View) (key : Bytes) (n : Int) : Action Unit := do
  let bytes ← lift ((Amount.encode n).mapError .outOfRange)
  modify fun s => view.set s key bytes

/-- The step that writes the balance of an account. -/
def writeBalance (account : String) (n : Int) : Action Unit :=
  writeAmount balanceView (utf8 account) n

/-- The step that reads what a spender may still draw from an owner. -/
def readAllowance (owner spender : String) : Action Amount := do
  lift (allowanceAt (← get) owner spender)

/-- The step that writes what a spender may draw from an owner; zero is written as no record. -/
def writeAllowance (owner spender : String) (n : Int) : Action Unit := do
  let view ← lift (allowanceView owner)
  if n = 0 then modify fun s => view.remove s (utf8 spender)
  else writeAmount view (utf8 spender) n

/-- The step that reads a text as an address. -/
def address (l : Ledger) (text : AnyText) : Action String :=
  lift (l.addressOf text)

end Ledger

end FungibleLedger
