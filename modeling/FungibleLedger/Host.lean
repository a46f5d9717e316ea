import FungibleLedger.Json.Display
import FungibleLedger.Ledger.Call
import FungibleLedger.Ledger.Query
import FungibleLedger.Observers

/-!
# Hosts

A host owns a store and lets calls into a ledger change it as a whole or not at all: a call runs
over a buffer, which is committed when the call succeeds and dropped when it fails. Observers hear
of a call after that.

* `Host.instantiate`, `Host.execute` : calls that change the store.
* `Host.query`, `Host.holders` : questions about the committed state.
* `Reply` : the answer to a call, the host after it, and who was told what.
-/

namespace FungibleLedger

/-- A ledger over the store that it changes, with those who follow its calls, and how a value that
it rejects is reported to them. -/
structure Host where
  ledger : Ledger
  store : Store
  observers : Option Observers
  details : Schema.Details

/-- An event that a host publishes. -/
structure Announcement where
  event : Event
  accounts : List AnyText
  data : Json.Members

/-- What a call gives: its result, the host after it, what it announced and to whom. -/
structure Reply (α : Type) where
  result : Except Failure α
  host : Host
  announced : Option Announcement
  deliveries : List Delivery

/-- A message as it comes in: a value that is still to be read if it is an object, or read. -/
inductive Incoming (α : Type)
  | raw (value : Json)
  | typed (message : α)

namespace Host

/-- Whether the ledger's metadata is recorded. -/
def isInitialized (h : Host) : Bool :=
  (Ledger.configView.get? h.store Ledger.metadataKey).isSome

/-- The result of an action on a buffer over a store, and the store after it. -/
def run {α : Type} (store : Store) (action : Ledger.Action α) : Except Failure α × Store :=
  match EStateM.run action store.buffer with
  | .ok a buffer => (.ok a, buffer.commit.2.backing)
  | .error e buffer => (.error e, buffer.discard.2.backing)

/-- The reply to a call that announced nothing. -/
def silently {α : Type} (h : Host) (result : Except Failure α) : Reply α :=
  ⟨result, h, none, []⟩

/-- The reply to a call after which a host announces an event. -/
def announcing {α : Type} (h : Host) (result : Except Failure α) (event : Event)
    (accounts : List AnyText) (data : List (String × Json)) : Reply α :=
  let data := data ++ [("accounts", .arr (accounts.map .ofText))]
  match h.observers with
  | none => h.silently result
  | some observers =>
    ⟨result, h, some ⟨event, accounts, data⟩, observers.publish event accounts data⟩

/-- The attributes that name an account. -/
def accountAttributes : List String := ["sender", "owner", "spender", "account", "recipient"]

/-- The accounts that a response names, each once. -/
def accountsOf (r : Response) : List AnyText :=
  ((accountAttributes.filterMap fun key => r.toDict.lookup key).map .whole).eraseDups

/-- The attributes of a response as an object, each key once. -/
def attributesJson (r : Response) : Json :=
  .obj (r.toDict.map fun (key, value) => (key, .str value))

/-- The start of the ledger, once. -/
def instantiateTyped (h : Host) (sender : AnyText) (genesis : Genesis) : Reply Response :=
  if h.isInitialized then h.silently (.error .alreadyStarted)
  else
    match run h.store (h.ledger.instantiate genesis) with
    | (.error e, store) => { h with store := store }.silently (.error e)
    | (.ok response, store) =>
      { h with store := store }.announcing (.ok response) .ledgerInitialized
        (genesis.seeds.map Seed.address).eraseDups
        [("sender", .ofText sender), ("action", .str "initialize"),
          ("attributes", attributesJson response)]

/-- The start of the ledger by a message that may still have to be read. A value that is no object
passes for a message until its first balances are asked for. -/
def instantiate (h : Host) (sender : AnyText) : Incoming Genesis → Reply Response
  | .typed genesis => h.instantiateTyped sender genesis
  | .raw (.obj members) =>
    match Genesis.ofJson (.obj members) with
    | .ok genesis => h.instantiateTyped sender genesis
    | .error rejection => h.silently (.error (.unreadable (.invalid "initialize" rejection)))
  | .raw value =>
    if h.isInitialized then h.silently (.error .alreadyStarted)
    else h.silently (.error (.noMember value.kindName "initial_balances"))

/-- A command on behalf of a sender. A command that is turned down, or finds corrupt state, is
announced as rejected. -/
def executeTyped (h : Host) (sender : AnyText) (command : Command) : Reply Response :=
  match run h.store (h.ledger.execute sender command) with
  | (.ok response, store) =>
    { h with store := store }.announcing (.ok response) .commandApplied (accountsOf response)
      [("sender", .ofText sender), ("action", .str command.tag),
        ("attributes", attributesJson response)]
  | (.error e, store) =>
    let h := { h with store := store }
    if e.kind = .rejected ∨ e.kind = .corrupt then
      h.announcing (.error e) .commandRejected [sender]
        [("sender", .ofText sender), ("action", .str command.tag),
          ("reason", .str (e.message h.details))]
    else h.silently (.error e)

/-- A command by a message that may still have to be read. A value that is no object has no
variant. -/
def execute (h : Host) (sender : AnyText) : Incoming Command → Reply Response
  | .typed command => h.executeTyped sender command
  | .raw (.obj members) =>
    match Command.ofJson (.obj members) with
    | .ok command => h.executeTyped sender command
    | .error e => h.silently (.error (.unreadable e))
  | .raw value => h.silently (.error (.noMember value.kindName "tag"))

/-- The answer to a query that may still have to be read. -/
def query (h : Host) : Incoming Query → Except Failure Answer
  | .typed q => h.ledger.query h.store q
  | .raw (.obj members) =>
    match Query.ofJson (.obj members) with
    | .ok q => h.ledger.query h.store q
    | .error e => .error (.unreadable e)
  | .raw value => .error (.unsupportedQuery value.kindName)

/-- Every account with a balance record, in key order. -/
def holders (h : Host) : Except Failure (List (String × Amount)) :=
  Ledger.holders h.store

end Host

end FungibleLedger
