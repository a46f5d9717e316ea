import FungibleLedger.Address
import FungibleLedger.Message
import FungibleLedger.Storage.View
import FungibleLedger.Text.Utf8

/-!
# Failures of ledger calls

* `Violation` : the stored state is missing, malformed or inconsistent.
* `Failure` : any reason why a call fails, each with its parameters.
* `Failure.kind` : whether a call was rejected, found corrupt state, or could not be read.
-/

namespace FungibleLedger

/-- What is wrong with the stored state. -/
inductive Violation
  | wrongWidth (e : Amount.WidthError)
  | noSupply
  | notStarted
  | negative (e : NegativeDifference)
  | corruptMetadata (rejection : Schema.Rejection)
deriving DecidableEq

/-- The wording of a violation, without the report on a rejected record. -/
def Violation.summary : Violation → String
  | .wrongWidth e => e.message
  | .noSupply => "Total supply record is missing"
  | .notStarted => "Ledger has not been initialized"
  | .negative e => e.message
  | .corruptMetadata _ => "Corrupted constants record"

/-- The wording of a violation, with the report on a rejected record. -/
def Violation.message (details : Schema.Details) : Violation → String
  | .corruptMetadata rejection => s!"Corrupted constants record: {rejection.report details}"
  | v => v.summary

/-- The most decimal places of a token. -/
def decimalsLimit : Nat := 18

/-- Why a call fails. -/
inductive Failure
  | nameFormat (name : String)
  | unencodable (halves : AnyText.Halves)
  | symbolFormat (symbol : AnyText)
  | tooManyDecimals (decimals : Nat)
  | insufficientFunds (balance required : Amount)
  | insufficientAllowance (allowance required : Amount)
  | invalidAddress (e : InvalidAddress)
  | overflow (e : SumOverflow)
  | alreadyStarted
  | violation (v : Violation)
  | unreadable (e : MessageError)
  | noView (fault : Namespace.Fault)
  | outOfRange (e : Amount.RangeError)
  | undecodableKey (fault : Utf8.Fault)
  | noMember (kind name : String)
  | unsupportedCommand (model : String)
  | unsupportedQuery (model : String)
deriving DecidableEq

/-- The kinds of failures that callers tell apart. -/
inductive FailureKind
  /-- The ledger turned the call down. -/
  | rejected
  /-- The stored state is corrupt. -/
  | corrupt
  /-- The message could not be read. -/
  | unreadable
  /-- None of these. -/
  | other
deriving DecidableEq

namespace Failure

/-- The kind of a failure. -/
def kind : Failure → FailureKind
  | .nameFormat _ | .symbolFormat _ | .tooManyDecimals _ | .insufficientFunds .. => .rejected
  | .insufficientAllowance .. | .invalidAddress _ | .overflow _ | .alreadyStarted => .rejected
  | .violation _ => .corrupt
  | .unreadable _ => .unreadable
  | .noView _ | .outOfRange _ | .undecodableKey _ | .unencodable _ => .other
  | .noMember .. | .unsupportedCommand _ | .unsupportedQuery _ => .other

/-- Whether a failure of a command or a question comes before the store is looked at: the message,
an address in it or its sender cannot be read, or there is no place for a record. -/
def isEarly : Failure → Bool
  | .unreadable _ | .invalidAddress _ | .unencodable _ | .noView _ => true
  | _ => false

/-- The wording of a failure. -/
def message (details : Schema.Details) : Failure → String
  | .nameFormat name => s!"Name is not in the expected format: {Text.quoted name}"
  | .unencodable halves => halves.message
  | .symbolFormat symbol => s!"Ticker symbol is not in expected format: {symbol.quoted}"
  | .tooManyDecimals decimals => s!"Decimals must not exceed {decimalsLimit}, got {decimals}"
  | .insufficientFunds balance required =>
    s!"Insufficient funds (balance {balance.val}, required={required.val})"
  | .insufficientAllowance allowance required =>
    s!"Insufficient allowance (allowance {allowance.val}, required={required.val})"
  | .invalidAddress e => e.message
  | .overflow e => e.message
  | .alreadyStarted => "Ledger is already initialized"
  | .violation v => v.message details
  | .unreadable e => e.message details
  | .noView fault => fault.message
  | .outOfRange e => e.message
  | .undecodableKey fault => fault.message
  | .noMember kind name => s!"'{kind}' object has no attribute '{name}'"
  | .unsupportedCommand model => s!"Unsupported command: {model}"
  | .unsupportedQuery model => s!"Unsupported query: {model}"

end Failure

end FungibleLedger
