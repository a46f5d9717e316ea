import FungibleLedger.Json.Reader
import FungibleLedger.Message

/-!
# The metadata record

A ledger writes its token's name, ticker symbol and decimal places once, as compact JSON.

* `Metadata.toBytes` : the stored form.
* `Metadata.ofBytes` : what a stored form says, or its flaws.
-/

namespace FungibleLedger

/-- What describes a token. -/
structure Metadata where
  name : String
  symbol : String
  decimals : Fin 256
deriving DecidableEq

namespace Metadata

/-- The check of metadata; `otherwise` is the problem of a value that is no object. -/
def check (otherwise : Schema.Problem) : Json → Schema.Checked Metadata :=
  Schema.object otherwise fun members =>
    (Schema.both (Schema.field members "name" Schema.text)
      (Schema.both (Schema.field members "symbol" Schema.text)
        (Schema.field members "decimals" checkDecimals))).map
      fun (name, symbol, decimals) => ⟨name, symbol, decimals⟩

/-- The metadata that a value writes. -/
def ofJson (value : Json) : Except Schema.Rejection Metadata :=
  Schema.judgeJson "Constants" (check (.noModel "Constants")) value

/-- The written form of metadata. -/
def toJson (m : Metadata) : Json :=
  .obj [("name", .str m.name), ("symbol", .str m.symbol), ("decimals", .int m.decimals.val)]

/-- The stored form of metadata. -/
def toBytes (m : Metadata) : Bytes :=
  utf8 m.toJson.compact

/-- The metadata that a stored record holds. -/
def ofBytes (bytes : Bytes) : Except Schema.Rejection Metadata :=
  Schema.judge "Constants" bytes <|
    match Json.readStored bytes with
    | none => Schema.fail .malformed
    | some value => check .noObject value

end Metadata

end FungibleLedger
