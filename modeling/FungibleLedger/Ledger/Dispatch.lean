import FungibleLedger.Ledger.Call
import FungibleLedger.Ledger.Query

/-!
# Messages of either kind

A ledger has one entry for commands and one for queries, and each turns the other's messages away.

* `Message` : a command or a query.
* `Ledger.perform` : the entry for commands.
* `Ledger.answer` : the entry for queries.
-/

namespace FungibleLedger

/-- A command or a query. -/
inductive Message
  | command (command : Command)
  | query (query : Query)
deriving DecidableEq

namespace Ledger

/-- The entry for commands. -/
def perform (l : Ledger) (sender : AnyText) : Message → Action Response
  | .command command => l.execute sender command
  | .query query => throw (.unsupportedCommand query.model)

/-- The entry for queries. -/
def answer (l : Ledger) (s : Store) : Message → Except Failure Answer
  | .query query => l.query s query
  | .command command => .error (.unsupportedQuery command.model)

end Ledger

end FungibleLedger
