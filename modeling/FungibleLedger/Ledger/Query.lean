import FungibleLedger.Ledger.Basic

/-!
# Questions to a ledger

* `Ledger.query` : the answer to a query, from a store that stays as it is.
* `Ledger.holders` : every account with a balance record, in key order.
-/

namespace FungibleLedger

/-- The answer to a query. -/
inductive Answer
  | balance (amount : Amount)
  | allowance (amount : Amount)
  | tokenInfo (metadata : Metadata) (supply : Amount)
deriving DecidableEq

/-- The written form of an answer. -/
def Answer.toJson : Answer → Json
  | .balance amount => .obj [("balance", amount.toJson)]
  | .allowance amount => .obj [("allowance", amount.toJson)]
  | .tokenInfo metadata supply =>
    .obj [("name", .str metadata.name), ("symbol", .str metadata.symbol),
      ("decimals", .int metadata.decimals.val), ("total_supply", supply.toJson)]

namespace Ledger

/-- The token's metadata and total supply, once both are recorded. -/
def tokenInfo (s : Store) : Except Failure Answer :=
  match configView.get? s metadataKey, configView.get? s supplyKey with
  | some rawMetadata, some rawSupply =>
    match Metadata.ofBytes rawMetadata with
    | .error rejection => .error (.violation (.corruptMetadata rejection))
    | .ok metadata => (decodeAmount rawSupply).map (.tokenInfo metadata)
  | _, _ => .error (.violation .notStarted)

/-- The answer to a query. -/
def query (l : Ledger) (s : Store) : Query → Except Failure Answer
  | .balance address => do
    let address ← l.addressOf address
    .balance <$> balanceAt s address
  | .allowance owner spender => do
    let owner ← l.addressOf owner
    let spender ← l.addressOf spender
    .allowance <$> allowanceAt s owner spender
  | .tokenInfo => tokenInfo s

/-- The account and the amount of a balance record. -/
def holder (record : Bytes × Bytes) : Except Failure (String × Amount) := do
  let account ← (Utf8.decode record.1).mapError .undecodableKey
  let amount ← decodeAmount record.2
  return (account, amount)

/-- Every account with a balance record, in key order, up to the first record that is corrupt. -/
def holders (s : Store) : Except Failure (List (String × Amount)) :=
  (balanceView.range s).mapM holder

end Ledger

end FungibleLedger
