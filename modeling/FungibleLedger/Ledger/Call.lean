import FungibleLedger.Ledger.Basic

/-!
# Calls that change a ledger

* `Ledger.instantiate` : the first balances, the metadata and the total supply.
* `Order`, `Ledger.carryOut` : a command whose accounts are known, and its steps.
* `Ledger.move` : the debit of one account and the credit of another, on which transfers rest.
* `Ledger.resolve`, `Ledger.execute` : a command on behalf of a sender.

A call writes as it goes. Whoever makes the call decides whether the writes of a failed one stay.
-/

namespace FungibleLedger

/-- A command whose accounts are known. -/
inductive Order
  | transfer (recipient : String) (amount : Amount)
  | approve (spender : String) (amount : Amount)
  | transferFrom (owner recipient : String) (amount : Amount)
  | burn (amount : Amount)
deriving DecidableEq

namespace Ledger

/-! ## Genesis -/

/-- The steps that write first balances and add them up. `total` is the sum so far and `seeded`
the amounts that it holds, last first; a repeated address takes the place of its earlier amount. -/
def seedBalances (l : Ledger) (total : Int) (seeded : List (String × Amount)) :
    List Seed → Action Int
  | [] => pure total
  | seed :: rest => do
    let address ← l.address seed.address
    writeBalance address seed.amount.val
    let earlier := ((seeded.lookup address).getD .zero).val
    let total ← lift ((checkedAdd (total - earlier) seed.amount.val).mapError .overflow)
    seedBalances l total ((address, seed.amount) :: seeded) rest

/-- The metadata of a token: its name is checked first, then its symbol and its decimal places. -/
def metadataOf (l : Ledger) (g : Genesis) : Except Failure Metadata := do
  let name ← l.nameOf g.name
  let symbol ← l.symbolOf g.symbol
  if g.decimals.val > decimalsLimit then throw (.tooManyDecimals g.decimals.val)
  return ⟨name, symbol, g.decimals⟩

/-- The start of a ledger: the first balances, then the metadata and the total supply. -/
def instantiate (l : Ledger) (g : Genesis) : Action Response := do
  let total ← seedBalances l 0 [] g.seeds
  let metadata ← lift (l.metadataOf g)
  modify fun s => configView.set s metadataKey metadata.toBytes
  writeAmount configView supplyKey total
  pure .empty

/-! ## Orders -/

/-- The debit of one account and the credit of another. The balance to credit is read after the
debit was written, so a transfer to oneself changes nothing. -/
def move (sender recipient : String) (amount : Amount) : Action Unit := do
  let balance ← readBalance sender
  if balance < amount then throw (.insufficientFunds balance amount)
  writeBalance sender (balance.val - amount.val)
  let credited ← readBalance recipient
  let total ← lift ((checkedAdd credited.val amount.val).mapError .overflow)
  writeBalance recipient total

/-- A transfer from the sender to a recipient. -/
def transfer (sender recipient : String) (amount : Amount) : Action Response := do
  move sender recipient amount
  pure ⟨[("action", "transfer"), ("sender", sender), ("recipient", recipient),
    ("amount", amount.digits)]⟩

/-- The grant of an allowance by the sender, in place of an earlier one. -/
def approve (sender spender : String) (amount : Amount) : Action Response := do
  writeAllowance sender spender amount.val
  pure ⟨[("action", "approve"), ("owner", sender), ("spender", spender),
    ("amount", amount.digits)]⟩

/-- A transfer from an owner to a recipient, drawn from what the owner allows the sender. The
allowance is lowered before the balances change. -/
def transferFrom (sender owner recipient : String) (amount : Amount) : Action Response := do
  let allowance ← readAllowance owner sender
  if allowance < amount then throw (.insufficientAllowance allowance amount)
  writeAllowance owner sender (allowance.val - amount.val)
  move owner recipient amount
  pure ⟨[("action", "transfer_from"), ("spender", sender), ("sender", owner),
    ("recipient", recipient), ("amount", amount.digits)]⟩

/-- The end of some of the sender's tokens, which lowers the total supply. -/
def burn (sender : String) (amount : Amount) : Action Response := do
  let balance ← readBalance sender
  if balance < amount then throw (.insufficientFunds balance amount)
  writeBalance sender (balance.val - amount.val)
  match configView.get? (← get) supplyKey with
  | none => throw (.violation .noSupply)
  | some raw =>
    let supply ← lift (decodeAmount raw)
    let rest ← lift ((checkedSub supply.val amount.val).mapError fun e => .violation (.negative e))
    writeAmount configView supplyKey rest
    pure ⟨[("action", "burn"), ("account", sender), ("amount", amount.digits)]⟩

/-- An order of a sender. -/
def carryOut (sender : String) : Order → Action Response
  | .transfer recipient amount => transfer sender recipient amount
  | .approve spender amount => approve sender spender amount
  | .transferFrom owner recipient amount => transferFrom sender owner recipient amount
  | .burn amount => burn sender amount

/-! ## Commands -/

/-- The order that a command gives: its addresses are read, one after the other. -/
def orderOf (l : Ledger) : Command → Except Failure Order
  | .transfer recipient amount => do
    let recipient ← l.addressOf recipient
    return .transfer recipient amount
  | .approve spender amount => do
    let spender ← l.addressOf spender
    return .approve spender amount
  | .transferFrom owner recipient amount => do
    let owner ← l.addressOf owner
    let recipient ← l.addressOf recipient
    return .transferFrom owner recipient amount
  | .burn amount => return .burn amount

/-- The account of a sender, and the order that a command gives. The addresses of the command are
read before the account is looked for. -/
def resolve (l : Ledger) (sender : AnyText) (command : Command) :
    Except Failure (String × Order) := do
  let order ← l.orderOf command
  let account ← senderOf sender
  return (account, order)

/-- A command on behalf of a sender. -/
def execute (l : Ledger) (sender : AnyText) (command : Command) : Action Response := do
  let (account, order) ← lift (l.resolve sender command)
  carryOut account order

end Ledger

end FungibleLedger
