import FungibleLedger.CommandLine.Arguments
import FungibleLedger.Path

/-!
# Requests on a command line

The arguments of a run name a command, with options of the run before it and the command's own
arguments behind it. These are read once the command is known. As all arguments are whole texts, so
are the accounts and amounts of a request.

* `Run.ofArguments` : the command that a run names, and the options of the run.
* `Request.ofArguments` : what a command is asked to do.
-/

namespace FungibleLedger.CommandLine

/-- The commands. -/
inductive Verb
  | init
  | transfer
  | approve
  | transferFrom
  | burn
  | balance
  | allowance
  | info
  | holders
  | wallet
deriving DecidableEq

/-- The command of a name. -/
def Verb.ofName? : String → Option Verb
  | "init" => some .init
  | "transfer" => some .transfer
  | "approve" => some .approve
  | "transfer-from" => some .transferFrom
  | "burn" => some .burn
  | "balance" => some .balance
  | "allowance" => some .allowance
  | "info" => some .info
  | "holders" => some .holders
  | "wallet" => some .wallet
  | _ => none

/-- The names of the commands, as a help screen shows them. -/
def Verb.names : List String :=
  ["init", "transfer", "approve", "transfer-from", "burn", "balance", "allowance", "info",
    "holders", "wallet create", "wallet address"]

/-- Why arguments ask for nothing to be done. -/
inductive Stop
  | misuse (m : Misuse)
  | help
deriving DecidableEq

/-- The switch that asks for help, which every command has. -/
def helpSwitch : String × Option Char := ("--help", none)

/-- What arguments say, unless they are misused or ask for help. -/
def parsed (g : Grammar) (arguments : List String) : Except Stop Parsed :=
  match g.parse arguments with
  | .error misuse => .error (.misuse misuse)
  | .ok said => if said.has "--help" then .error .help else .ok said

/-- The path that an option gives, if it is given; it must not have a null character. -/
def pathOption (said : Parsed) (name : String) : Except Stop (Option Path) :=
  match (said.value? name).map Path.ofString with
  | none => .ok none
  | some path => if path.hasNull then .error (.misuse (.noPath name)) else .ok path

/-- The command that is named first among further arguments, and what stands behind it. -/
def verbOf {α : Type} (ofName? : String → Option α) : List String → Except Stop (α × List String)
  | [] => .error (.misuse .noCommand)
  | name :: rest =>
    match ofName? name with
    | none => .error (.misuse (.unknownCommand name))
    | some verb => .ok (verb, rest)

/-- A run: its options, its command and the arguments of the command. -/
structure Run where
  dbPath : Option Path
  verbose : Bool
  verb : Verb
  arguments : List String
deriving DecidableEq

/-- The run that arguments ask for. -/
def Run.ofArguments (arguments : List String) : Except Stop Run := do
  let said ← parsed ⟨["--db-path"], [("--verbose", some 'v'), helpSwitch], false⟩ arguments
  let dbPath ← pathOption said "--db-path"
  let (verb, rest) ← verbOf Verb.ofName? said.rest
  return ⟨dbPath, said.has "--verbose", verb, rest⟩

/-- Who makes a call: a sender, or the address of the wallet under a name or at a path. -/
structure Caller where
  sender : Option String
  wallet : Option String
  walletPath : Option String
deriving DecidableEq

/-- What a command is asked to do. -/
inductive Request
  | init (genesis : Option Path) (caller : Caller)
  | transfer (recipient amount : String) (caller : Caller)
  | approve (spender amount : String) (caller : Caller)
  | transferFrom (owner recipient amount : String) (caller : Caller)
  | burn (amount : String) (caller : Caller)
  | balance (holder : Caller)
  | allowance (owner spender : String)
  | info
  | holders
  | createWallet (name path : Option String)
  | walletAddress (name path : Option String)
deriving DecidableEq

namespace Request

/-- What a command without further arguments is told, and its caller by the options for that. -/
def withCaller (own : List String) (arguments : List String) : Except Stop (Parsed × Caller) := do
  let said ← parsed ⟨own ++ ["--sender", "--wallet", "--wallet-path"], [helpSwitch], true⟩ arguments
  return (said, ⟨said.value? "--sender", said.value? "--wallet", said.value? "--wallet-path"⟩)

/-- The value of an option that has to be given. -/
def required (said : Parsed) (name : String) : Except Stop String :=
  match said.value? name with
  | some value => .ok value
  | none => .error (.misuse (.missingOption name))

/-- The check that there are no further arguments. -/
def nothingElse : List String → Except Stop Unit
  | [] => .ok ()
  | argument :: _ => .error (.misuse (.extraArgument argument))

/-- The two commands for wallets. -/
inductive WalletVerb
  | create
  | address
deriving DecidableEq

/-- The wallet command of a name. -/
def WalletVerb.ofName? : String → Option WalletVerb
  | "create" => some .create
  | "address" => some .address
  | _ => none

/-- What a wallet command is asked to do. -/
def ofWalletArguments (arguments : List String) : Except Stop Request := do
  let said ← parsed ⟨[], [helpSwitch], false⟩ arguments
  let (verb, rest) ← verbOf WalletVerb.ofName? said.rest
  let said ← parsed ⟨["--name", "--path"], [helpSwitch], true⟩ rest
  nothingElse said.rest
  match verb with
  | .create => return .createWallet (said.value? "--name") (said.value? "--path")
  | .address => return .walletAddress (said.value? "--name") (said.value? "--path")

/-- What a command is asked to do. -/
def ofArguments (verb : Verb) (arguments : List String) : Except Stop Request :=
  match verb with
  | .init => do
    let (said, caller) ← withCaller ["--genesis"] arguments
    let genesis ← pathOption said "--genesis"
    nothingElse said.rest
    return .init genesis caller
  | .transfer => do
    let (said, caller) ← withCaller ["--to", "--amount"] arguments
    let recipient ← required said "--to"
    let amount ← required said "--amount"
    nothingElse said.rest
    return .transfer recipient amount caller
  | .approve => do
    let (said, caller) ← withCaller ["--spender", "--amount"] arguments
    let spender ← required said "--spender"
    let amount ← required said "--amount"
    nothingElse said.rest
    return .approve spender amount caller
  | .transferFrom => do
    let (said, caller) ← withCaller ["--owner", "--to", "--amount"] arguments
    let owner ← required said "--owner"
    let recipient ← required said "--to"
    let amount ← required said "--amount"
    nothingElse said.rest
    return .transferFrom owner recipient amount caller
  | .burn => do
    let (said, caller) ← withCaller ["--amount"] arguments
    let amount ← required said "--amount"
    nothingElse said.rest
    return .burn amount caller
  | .balance => do
    let said ← parsed ⟨["--wallet", "--wallet-path"], [helpSwitch], true⟩ arguments
    nothingElse said.rest.tail
    return .balance ⟨said.rest.head?, said.value? "--wallet", said.value? "--wallet-path"⟩
  | .allowance => do
    let said ← parsed ⟨["--owner", "--spender"], [helpSwitch], true⟩ arguments
    let owner ← required said "--owner"
    let spender ← required said "--spender"
    nothingElse said.rest
    return .allowance owner spender
  | .info => do
    let said ← parsed ⟨[], [helpSwitch], true⟩ arguments
    nothingElse said.rest
    return .info
  | .holders => do
    let said ← parsed ⟨[], [helpSwitch], true⟩ arguments
    nothingElse said.rest
    return .holders
  | .wallet => ofWalletArguments arguments

end Request

end FungibleLedger.CommandLine
