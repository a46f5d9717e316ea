import FungibleLedger.Json.Display
import FungibleLedger.Json.Writer

/-!
# Observers of ledger calls

Callbacks subscribe to an event or to an account. A notice of an event goes to the subscribers of
the event and then to those of the accounts that it names, and to each callback once.

* `Observers.subscribe`, `Observers.watch` and their opposites : the subscriptions.
* `Observers.targets` : who hears of an event, in order.
* `Observers.publish`, `Observers.notify` : the deliveries of a notice.
* `Observers.dataOf` : the data of a notice that a value gives.
-/

namespace FungibleLedger

/-- The outcomes of ledger calls that can be followed. -/
inductive Event
  | ledgerInitialized
  | commandApplied
  | commandRejected
deriving DecidableEq

/-- The name of an event. -/
def Event.name : Event → String
  | .ledgerInitialized => "ledger_initialized"
  | .commandApplied => "command_applied"
  | .commandRejected => "command_rejected"

/-- The event of a name. -/
def Event.ofName? : String → Option Event
  | "ledger_initialized" => some .ledgerInitialized
  | "command_applied" => some .commandApplied
  | "command_rejected" => some .commandRejected
  | _ => none

/-- The event whose name a value writes. -/
def Event.ofJson? : Json → Option Event
  | .str name => ofName? name
  | _ => none

/-- The wording for a value that names no event. -/
def Event.unknownMessage (value : Json) : String :=
  s!"{value.displayInner} is not a valid NotificationType"

/-- What a notice says, as the members of an object. -/
abbrev Notice := Json.Members

/-- A notice given to a callback, and what became of it. -/
structure Delivery where
  callback : String
  notice : Notice
  outcome : Except String Unit

/-- Subscriptions of callbacks, which are told apart by their names. -/
structure Observers where
  /-- What a callback does with a notice. It may fail with an error, which ends its own delivery
  only. An order to leave the program is no error and not meant here: it would end all
  deliveries. -/
  react : String → Notice → Except String Unit
  /-- The subscribers of each event, in order. -/
  followers : Event → List String
  /-- The subscribers of each account that has any, in order. -/
  watchers : List (AnyText × List String)

namespace Observers

/-- No subscriptions. -/
def none (react : String → Notice → Except String Unit) : Observers := ⟨react, fun _ => [], []⟩

/-- A list with one callback at its end, unless it is there already. -/
def join (callback : String) (callbacks : List String) : List String :=
  if callbacks.contains callback then callbacks else callbacks ++ [callback]

/-- The observers after a subscription to an event. -/
def subscribe (o : Observers) (event : Event) (callback : String) : Observers :=
  { o with
    followers := fun e => if e = event then join callback (o.followers e) else o.followers e }

/-- The observers after the end of a subscription to an event. -/
def unsubscribe (o : Observers) (event : Event) (callback : String) : Observers :=
  { o with
    followers := fun e => if e = event then (o.followers e).erase callback else o.followers e }

/-- The subscribers of an account. -/
def watchersOf (o : Observers) (address : AnyText) : List String :=
  (o.watchers.lookup address).getD []

/-- A list of accounts with the subscribers of one set: in its old place, or at the end. -/
def putWatchers (address : AnyText) (callbacks : List String) :
    List (AnyText × List String) → List (AnyText × List String)
  | [] => [(address, callbacks)]
  | (a, cs) :: rest =>
    if a = address then (address, callbacks) :: rest
    else (a, cs) :: putWatchers address callbacks rest

/-- The observers after a subscription to an account. -/
def watch (o : Observers) (address : AnyText) (callback : String) : Observers :=
  { o with watchers := putWatchers address (join callback (o.watchersOf address)) o.watchers }

/-- The observers after the end of a subscription to an account. An account that nobody watches
any more is forgotten. -/
def unwatch (o : Observers) (address : AnyText) (callback : String) : Observers :=
  match (o.watchersOf address).erase callback with
  | [] => { o with watchers := o.watchers.filter (·.1 ≠ address) }
  | callbacks => { o with watchers := putWatchers address callbacks o.watchers }

/-- The accounts that are watched, with the number of their subscribers. -/
def watched (o : Observers) : List (AnyText × Nat) :=
  o.watchers.map fun (address, callbacks) => (address, callbacks.length)

/-- Who hears of an event that touches some accounts: the subscribers of the event, and then those
of each account in turn that are not among them yet. -/
def targets (o : Observers) (event : Event) (accounts : List AnyText) : List String :=
  accounts.foldl (fun found address => (o.watchersOf address).foldl (fun l c => join c l) found)
    (o.followers event)

/-- What is said of an event: the data with the event's name. -/
def notice (event : Event) (data : Json.Members) : Notice :=
  (data.put "event_type" (.str event.name)).erase "timestamp"

/-- The deliveries of an event that touches some accounts. A callback that fails keeps none of the
others from theirs. -/
def publish (o : Observers) (event : Event) (accounts : List AnyText) (data : Json.Members) :
    List Delivery :=
  let said := notice event data
  (o.targets event accounts).map fun callback => ⟨callback, said, o.react callback said⟩

/-- What a value consists of, item by item: the items of a list, the names of an object's members
or the single characters of a text. -/
def itemsOf? : Json → Option (List Json)
  | .arr items => some items
  | .obj members => some (members.map fun (name, _) => .str name)
  | .str s => some (s.toList.map fun c => .str (String.singleton c))
  | .halves codes => some (codes.map fun code => .ofText (AnyText.ofUnits [code]))
  | _ => .none

/-- The verdict that a value lists no accounts. -/
inductive AccountsFault
  | noList
  | noAccount
deriving DecidableEq

/-- The account that an item of a list names, if it names one; a container names none and is no
account either. -/
def accountOfItem : Json → Except AccountsFault (Option AnyText)
  | .str s => .ok (some s)
  | .halves codes => .ok (some (.broken codes))
  | .arr _ => .error .noAccount
  | .obj _ => .error .noAccount
  | _ => .ok .none

/-- The accounts that a value lists. -/
def accountsOf (value : Json) : Except AccountsFault (List AnyText) :=
  match itemsOf? value with
  | some items => (items.mapM accountOfItem).map (·.filterMap id)
  | .none => .error .noList

/-- The deliveries of an event with any data, whose member `accounts` lists the accounts. -/
def notify (o : Observers) (event : Event) (data : Json.Members) :
    Except AccountsFault (List Delivery) :=
  match data.get? "accounts" with
  | .none => .ok (o.publish event [] data)
  | some value => (accountsOf value).map fun accounts => o.publish event accounts data

/-- Why a value gives no data for a notice. -/
inductive DataFault
  | noPairs
  | notTwo (index count : Nat)
deriving DecidableEq

/-- The wording of a fault. -/
def DataFault.message : DataFault → String
  | .noPairs => "data has to be an object or a list of pairs"
  | .notTwo index count =>
    s!"dictionary update sequence element #{index} has length {count}; 2 is required"

/-- The name that a value can be; a container is none. -/
def nameOf? : Json → Option String
  | .str s => some s
  | .arr _ | .obj _ => .none
  | value => some value.compact

/-- The members that pairs of a name and a value give, the first of them with an index. -/
def membersOfPairs (index : Nat) : List Json → Except DataFault Json.Members
  | [] => .ok []
  | pair :: rest =>
    match itemsOf? pair with
    | some [name, value] =>
      match nameOf? name with
      | some name => (membersOfPairs (index + 1) rest).map ((name, value) :: ·)
      | .none => .error .noPairs
    | some items => .error (.notTwo index items.length)
    | .none => .error .noPairs

/-- The data that a value gives: the members of an object, or pairs of which the last of a name
counts. -/
def dataOf : Json → Except DataFault Json.Members
  | .obj members => .ok members
  | value =>
    match itemsOf? value with
    | some pairs =>
      (membersOfPairs 0 pairs).map fun members =>
        members.foldl (fun data (name, value) => data.put name value) []
    | .none => .error .noPairs

end Observers

/-! ## The registry of a process -/

/-- The registry that a process shares, once it has one. -/
abbrev SharedObservers := Option Observers

/-- The refusal to make a second registry. -/
inductive RegistryFault
  | taken
deriving DecidableEq

/-- The wording of the refusal. -/
def RegistryFault.message : RegistryFault → String
  | .taken => "NotificationManager is a singleton - use get_instance()"

/-- A new registry, where there is none yet. -/
def SharedObservers.construct (shared : SharedObservers)
    (react : String → Notice → Except String Unit) : Except RegistryFault Observers :=
  match shared with
  | some _ => .error .taken
  | none => .ok (.none react)

end FungibleLedger
