import FungibleLedger.Amount
import FungibleLedger.Schema

/-!
# Messages

What callers send to a ledger: the genesis message, commands and queries. Commands and queries are
written as an object with one member, whose name is the variant.

* `Genesis`, `Command`, `Query` : the messages.
* `Command.ofJson`, `Query.ofJson`, `Genesis.check` : reading them.
* `Command.toJson`, `Query.toJson`, `Genesis.toJson` : writing them.
* `MessageError` : why a value is no message.
-/

namespace FungibleLedger

/-! ## Amounts in messages -/

/-- How the greatest amount is shown in a bound. -/
def Amount.shownGreatest : String := "340282366920938500000000000000000000000"

/-- The check of a whole number as an amount. -/
def Amount.ofChecked (n : Int) : Schema.Checked Amount :=
  (Schema.atMost greatest shownGreatest n).map fun a => ⟨a.val, a.isLt⟩

/-- The whole number that a text writes for an amount: one to 4300 ASCII digits. -/
def Amount.wholeOfText (s : String) : Schema.Checked Int :=
  let cs := s.toList
  if cs.isEmpty || !cs.all Char.isDigit then
    Schema.fail (.rule s!"Amount must be a decimal string of digits: {Text.quoted s}")
  else if cs.length > Integer.digitLimit then
    Schema.fail (.rule (Integer.tooLongMessage cs.length))
  else .ok (Integer.ofDigits false cs)

/-- The check of an amount. A truth value is none, and a text has to be all digits. -/
def Amount.check : Json → Schema.Checked Amount
  | .bool _ => Schema.fail (.rule "Amount must be an integer, not a boolean")
  | .str s => (wholeOfText s).bind ofChecked
  | .halves codes =>
    Schema.fail (.rule s!"Amount must be a decimal string of digits: {Text.quotedCodes codes}")
  | value => (Schema.whole value).bind ofChecked

/-- An amount is written as its decimal digits. -/
def Amount.toJson (a : Amount) : Json := .str a.digits

/-- The check of a token's decimal places: a byte. -/
def checkDecimals (value : Json) : Schema.Checked (Fin 256) :=
  (Schema.whole value).bind (Schema.atMost 255 "255")

/-! ## Genesis -/

/-- A balance that a ledger begins with. -/
structure Seed where
  address : AnyText
  amount : Amount
deriving DecidableEq

/-- The message that starts a ledger: the token's metadata and its first balances. Its texts may
be broken; the ledger turns such a text down when its turn comes. -/
structure Genesis where
  name : AnyText
  symbol : AnyText
  decimals : Fin 256
  seeds : List Seed
deriving DecidableEq

namespace Seed

/-- The check of a first balance. -/
def check : Json → Schema.Checked Seed :=
  Schema.object (.noModel "InitialBalance") fun members =>
    (Schema.both (Schema.field members "address" Schema.anyText)
      (Schema.field members "amount" Amount.check)).map fun (address, amount) => ⟨address, amount⟩

/-- The written form of a first balance. -/
def toJson (seed : Seed) : Json :=
  .obj [("address", .ofText seed.address), ("amount", seed.amount.toJson)]

end Seed

namespace Genesis

/-- The check of a genesis message. -/
def check : Json → Schema.Checked Genesis :=
  Schema.object (.noModel "InitializeMsg") fun members =>
    (Schema.both (Schema.field members "name" Schema.anyText)
      (Schema.both (Schema.field members "symbol" Schema.anyText)
        (Schema.both (Schema.field members "decimals" checkDecimals)
          (Schema.fieldOr members "initial_balances" [] (Schema.list Seed.check))))).map
      fun (name, symbol, decimals, seeds) => ⟨name, symbol, decimals, seeds⟩

/-- The genesis message that a value writes. -/
def ofJson (value : Json) : Except Schema.Rejection Genesis :=
  Schema.judgeJson "InitializeMsg" check value

/-- The written form of a genesis message. -/
def toJson (genesis : Genesis) : Json :=
  .obj [("name", .ofText genesis.name), ("symbol", .ofText genesis.symbol),
    ("decimals", .int genesis.decimals.val),
    ("initial_balances", .arr (genesis.seeds.map Seed.toJson))]

end Genesis

/-! ## Commands -/

/-- A call that changes the ledger. Its texts may be broken, and need not be addresses. -/
inductive Command
  | transfer (recipient : AnyText) (amount : Amount)
  | approve (spender : AnyText) (amount : Amount)
  | transferFrom (owner recipient : AnyText) (amount : Amount)
  | burn (amount : Amount)
deriving DecidableEq

namespace Command

/-- The name of a command's variant in messages. -/
def tag : Command → String
  | .transfer .. => "transfer"
  | .approve .. => "approve"
  | .transferFrom .. => "transfer_from"
  | .burn .. => "burn"

/-- The name of a command's model. -/
def model : Command → String
  | .transfer .. => "Transfer"
  | .approve .. => "Approve"
  | .transferFrom .. => "TransferFrom"
  | .burn .. => "Burn"

/-- The written form of a command's fields. -/
def body : Command → Json
  | .transfer recipient amount =>
    .obj [("recipient", .ofText recipient), ("amount", amount.toJson)]
  | .approve spender amount => .obj [("spender", .ofText spender), ("amount", amount.toJson)]
  | .transferFrom owner recipient amount =>
    .obj [("owner", .ofText owner), ("recipient", .ofText recipient), ("amount", amount.toJson)]
  | .burn amount => .obj [("amount", amount.toJson)]

/-- The written form of a command. -/
def toJson (c : Command) : Json := .obj [(c.tag, c.body)]

/-- The check of the fields of a transfer. -/
def checkTransfer : Json → Schema.Checked Command :=
  Schema.object (.noModel "Transfer") fun members =>
    (Schema.both (Schema.field members "recipient" Schema.anyText)
      (Schema.field members "amount" Amount.check)).map fun (r, a) => .transfer r a

/-- The check of the fields of an approval. -/
def checkApprove : Json → Schema.Checked Command :=
  Schema.object (.noModel "Approve") fun members =>
    (Schema.both (Schema.field members "spender" Schema.anyText)
      (Schema.field members "amount" Amount.check)).map fun (s, a) => .approve s a

/-- The check of the fields of a delegated transfer. -/
def checkTransferFrom : Json → Schema.Checked Command :=
  Schema.object (.noModel "TransferFrom") fun members =>
    (Schema.both (Schema.field members "owner" Schema.anyText)
      (Schema.both (Schema.field members "recipient" Schema.anyText)
        (Schema.field members "amount" Amount.check))).map fun (o, r, a) => .transferFrom o r a

/-- The check of the fields of a burn. -/
def checkBurn : Json → Schema.Checked Command :=
  Schema.object (.noModel "Burn") fun members =>
    (Schema.field members "amount" Amount.check).map .burn

/-- The model of a variant, and the check of its fields. -/
def variant? : (tag : String) → Option (String × (Json → Schema.Checked Command))
  | "transfer" => some ("Transfer", checkTransfer)
  | "approve" => some ("Approve", checkApprove)
  | "transfer_from" => some ("TransferFrom", checkTransferFrom)
  | "burn" => some ("Burn", checkBurn)
  | _ => none

end Command

/-! ## Queries -/

/-- A question that changes nothing. -/
inductive Query
  | balance (address : AnyText)
  | allowance (owner spender : AnyText)
  | tokenInfo
deriving DecidableEq

namespace Query

/-- The name of a query's variant in messages. -/
def tag : Query → String
  | .balance .. => "balance"
  | .allowance .. => "allowance"
  | .tokenInfo => "token_info"

/-- The name of a query's model. -/
def model : Query → String
  | .balance .. => "Balance"
  | .allowance .. => "Allowance"
  | .tokenInfo => "TokenInfo"

/-- The written form of a query's fields. -/
def body : Query → Json
  | .balance address => .obj [("address", .ofText address)]
  | .allowance owner spender => .obj [("owner", .ofText owner), ("spender", .ofText spender)]
  | .tokenInfo => .obj []

/-- The written form of a query. -/
def toJson (q : Query) : Json := .obj [(q.tag, q.body)]

/-- The check of the fields of a balance query. -/
def checkBalance : Json → Schema.Checked Query :=
  Schema.object (.noModel "Balance") fun members =>
    (Schema.field members "address" Schema.anyText).map .balance

/-- The check of the fields of an allowance query. -/
def checkAllowance : Json → Schema.Checked Query :=
  Schema.object (.noModel "Allowance") fun members =>
    (Schema.both (Schema.field members "owner" Schema.anyText)
      (Schema.field members "spender" Schema.anyText)).map fun (o, s) => .allowance o s

/-- The check of the fields of a query for the token's metadata. -/
def checkTokenInfo : Json → Schema.Checked Query :=
  Schema.object (.noModel "TokenInfo") fun _ => .ok .tokenInfo

/-- The model of a variant, and the check of its fields. -/
def variant? : (tag : String) → Option (String × (Json → Schema.Checked Query))
  | "balance" => some ("Balance", checkBalance)
  | "allowance" => some ("Allowance", checkAllowance)
  | "token_info" => some ("TokenInfo", checkTokenInfo)
  | _ => none

end Query

/-! ## Reading tagged messages -/

/-- The two kinds of tagged messages. -/
inductive MessageKind
  | execute
  | query
deriving DecidableEq

/-- The name of a kind. -/
def MessageKind.name : MessageKind → String
  | .execute => "execute"
  | .query => "query"

/-- Why a value is no message. -/
inductive MessageError
  | noVariant (kind : MessageKind)
  | unknownVariant (kind : MessageKind) (tag : String)
  | invalid (what : String) (rejection : Schema.Rejection)
deriving DecidableEq

/-- The wording of a message error, without the report on a rejected value. -/
def MessageError.summary : MessageError → String
  | .noVariant kind => s!"A {kind.name} message must be an object with exactly one variant key"
  | .unknownVariant kind tag => s!"Unknown {kind.name} variant: {tag}"
  | .invalid what _ => s!"Invalid {what} message"

/-- The flaws of a rejected value. -/
def MessageError.flaws : MessageError → List Schema.Flaw
  | .invalid _ rejection => rejection.flaws
  | _ => []

/-- The wording of a message error, with the report on a rejected value. -/
def MessageError.message (details : Schema.Details) : MessageError → String
  | .invalid what rejection => s!"Invalid {what} message: {rejection.report details}"
  | e => e.summary

/-- The message that an object with one member writes; `null` stands for no fields. -/
def readTagged {α : Type} (kind : MessageKind)
    (variant? : String → Option (String × (Json → Schema.Checked α))) :
    Json → Except MessageError α
  | .obj [(tag, body)] =>
    match variant? tag with
    | none => .error (.unknownVariant kind tag)
    | some (model, check) =>
      let fields := match body with
        | .null => .obj []
        | fields => fields
      (Schema.judgeJson model check fields).mapError (.invalid tag)
  | _ => .error (.noVariant kind)

/-- The command that a value writes. -/
def Command.ofJson : Json → Except MessageError Command :=
  readTagged .execute variant?

/-- The query that a value writes. -/
def Query.ofJson : Json → Except MessageError Query :=
  readTagged .query variant?

end FungibleLedger
