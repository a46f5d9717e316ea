import FungibleLedger.CommandLine.Request
import FungibleLedger.Config
import FungibleLedger.Files.Database
import FungibleLedger.GenesisFile
import FungibleLedger.Host
import FungibleLedger.Json.Writer
import FungibleLedger.Text.Styling
import FungibleLedger.WalletFile

/-!
# Runs of the command line

A run reads its configuration from environment variables, works on the files of a tree and ends
with an exit code and lines for people, unless something breaks it off.

* `System` : what a run finds, its files above all, and the `Runtime` that it is carried out by.
* `Ending` : how a run ends.
* `System.perform` : a run, from its arguments to its ending and the files after it.
-/

namespace FungibleLedger.CommandLine

/-- What a run owes to the machine that carries it out, and not to the program. A reader of files
stops at containers that nest too deep; how deep that is depends on the machine, and on how deep in
calls the file is read. -/
structure Runtime where
  /-- How deep containers may nest in a genesis file. -/
  genesisDepth : Nat
  /-- How deep containers may nest in a wallet file. -/
  walletDepth : Nat
  /-- How the report on a rejected value goes on after its first line. -/
  details : Schema.Details

/-- A machine with room for a thousand calls or so, whose reports end with their first line. -/
def Runtime.plain : Runtime := ⟨988, 988, .none⟩

/-- What a run finds: files, home directories, environment variables and a machine. -/
structure System where
  files : Files
  homes : Homes
  environment : List (String × String)
  runtime : Runtime

/-- What breaks a run off. -/
inductive Breakdown
  | environment (e : Config.EnvironmentError)
  | file (e : FileError)
  | database (fault : DatabaseFault)
  | genesis (e : Json.FileError)
  | user (fault : UserFault)
  | wallet (fault : Wallet.Fault)
  | call (e : Failure)
deriving DecidableEq

/-- The wording of a breakdown. -/
def Breakdown.message (details : Schema.Details) : Breakdown → String
  | .environment (.number text fault) => fault.message text
  | .environment (.invalid flaws) =>
    "invalid settings: " ++ "; ".intercalate (flaws.filterMap fun f => f.problem.message?)
  | .file e => e.message
  | .database fault => fault.message
  | .genesis e => e.message
  | .user fault => fault.message
  | .wallet fault => fault.message
  | .call e => e.message details

/-- How a run ends: with an exit code and lines for the two output channels, or otherwise. -/
inductive Ending
  | exit (code : Nat) (out err : List String)
  | help
  | misuse (m : Misuse)
  | broken (cause : Breakdown)
deriving DecidableEq

namespace Ending

/-- A good end. -/
def said (lines : List String) : Ending := .exit 0 lines []

/-- An end with one line of complaint. -/
def complaint (code : Nat) (line : String) : Ending := .exit code [] [line]

/-- The exit code of an ending. -/
def code : Ending → Nat
  | .exit code _ _ => code
  | .help => 0
  | .misuse _ => 2
  | .broken _ => 1

/-- Lines as they come out, without styling. -/
def printed (lines : List String) : String :=
  String.join (lines.map fun line => Text.unstyled line ++ "\n")

/-- The output of an ending. -/
def out : Ending → String
  | .exit _ out _ => printed out
  | .help => printed ("Commands:" :: Verb.names.map ("  " ++ ·))
  | _ => ""

/-- The complaints of an ending. -/
def err (details : Schema.Details) : Ending → String
  | .exit _ _ err => printed err
  | .help => ""
  | .misuse m => printed [s!"Error: {m.message}"]
  | .broken cause => printed [s!"Error: {cause.message details}"]

end Ending

/-- A part of a run that may end it. -/
abbrev Part (α : Type) := Except Ending α

/-- The ending of a run that asks for nothing to be done. -/
def Stop.ending : Stop → Ending
  | .misuse m => .misuse m
  | .help => .help

/-! ## Calls -/

/-- The ending of a command that failed. -/
def commandFailed (details : Schema.Details) (e : Failure) : Ending :=
  match e.kind with
  | .rejected => .complaint 1 s!"❌ {e.message details}"
  | .unreadable => .complaint 1 s!"❌ {e.message details}"
  | .corrupt => .complaint 2 s!"💥 Ledger state is corrupted: {e.message details}"
  | .other => .broken (.call e)

/-- The ending of a query that failed. -/
def queryFailed (details : Schema.Details) (e : Failure) : Ending :=
  match e.kind with
  | .rejected => .complaint 1 s!"❌ {e.message details}"
  | .unreadable => .complaint 1 s!"❌ {e.message details}"
  | .corrupt => .complaint 2 s!"💥 {e.message details}"
  | .other => .broken (.call e)

/-- The lines that tell of a command that was applied. -/
def applied (r : Response) : List String :=
  ("✅ " ++ (r.get? "action").getD "None" ++ " applied") ::
    (r.attributes.filter (·.1 ≠ "action")).map fun (key, value) => s!"   {key}: {value}"

/-- Work that was done with a host: its ending, the host after it, and whether it came so far as to
look at the host's store. -/
structure Done where
  ending : Ending
  host : Host
  looked : Bool

/-- A command on behalf of a sender. -/
def runCommand (sender : String) (message : Json.Members) (h : Host) : Done :=
  match h.execute sender (.raw (.obj message)) with
  | ⟨.ok response, after, _, _⟩ => ⟨.said (applied response), after, true⟩
  | ⟨.error e, after, _, _⟩ => ⟨commandFailed h.details e, after, !e.isEarly⟩

/-- A query. -/
def runQuery (message : Json.Members) (h : Host) : Done :=
  match h.query (.raw (.obj message)) with
  | .ok answer => ⟨.said [answer.toJson.compact], h, true⟩
  | .error e => ⟨queryFailed h.details e, h, !e.isEarly⟩

/-- The list of accounts with a balance record. -/
def runHolders (h : Host) : Done :=
  match h.holders with
  | .ok rows => ⟨.said (rows.map fun (account, amount) => s!"{account}\t{amount.digits}"), h, true⟩
  | .error e => ⟨.broken (.call e), h, true⟩

/-- The start of a ledger, which first of all looks whether it has started. -/
def runInit (sender : String) (genesis : Genesis) (h : Host) : Done :=
  match h.instantiate sender (.typed genesis) with
  | ⟨.error e, after, _, _⟩ =>
    let ending : Ending :=
      if e.kind = .rejected then .complaint 1 s!"❌ {e.message h.details}" else .broken (.call e)
    ⟨ending, after, true⟩
  | ⟨.ok _, after, _, _⟩ =>
    match after.query (.typed .tokenInfo) with
    | .ok (.tokenInfo metadata supply) =>
      let token := s!"{metadata.name} ({metadata.symbol})"
      ⟨.said [s!"✅ Initialized {token} with total supply {supply.digits}"], after, true⟩
    | .ok answer => ⟨.said [answer.toJson.compact], after, true⟩
    | .error e => ⟨.broken (.call e), after, true⟩

/-- The genesis message in a file. -/
def readGenesis (runtime : Runtime) (files : Files) (path : Path) : Part Genesis :=
  match GenesisFile.read runtime.genesisDepth files path with
  | .ok genesis => .ok genesis
  | .error (.file ⟨.nullCharacter, path⟩) => .error (.broken (.file ⟨.nullCharacter, path⟩))
  | .error (.unreadable (.invalid (.digits count))) =>
    .error (.broken (.genesis (.invalid (.digits count))))
  | .error (.unreadable (.invalid (.depth container))) =>
    .error (.broken (.genesis (.invalid (.depth container))))
  | .error fault =>
    .error (.complaint 1 s!"❌ Cannot read {path.toString}: {fault.message runtime.details}")

/-! ## Wallets -/

/-- Whether a fault of a wallet's file is complained of; any other breaks the run off. -/
def isComplaint : Wallet.Fault → Bool
  | .unreadable (.invalid (.depth _)) => false
  | .noObject => false
  | .noText => false
  | _ => true

namespace System

/-- The path of a wallet. -/
def walletPath (s : System) (c : Config) (name path : Option String) : Part Path :=
  (Wallet.pathFor s.homes name path c.walletPath).mapError fun fault => .broken (.user fault)

/-- The wallet under a name or at a path. -/
def getWallet (s : System) (c : Config) (name path : Option String) : Part Wallet := do
  let path ← s.walletPath c name path
  match s.files.exists? path with
  | .error e => .error (.broken (.file e))
  | .ok false => .error (.complaint 1 s!"❌ Wallet not found at {path.toString}")
  | .ok true =>
    match WalletFile.load s.runtime.walletDepth s.files path with
    | .ok wallet => .ok wallet
    | .error (.file e) => .error (.complaint 1 s!"❌ Error loading wallet: {e.message}")
    | .error (.contents fault) =>
      if isComplaint fault then .error (.complaint 1 s!"❌ Error loading wallet: {fault.message}")
      else .error (.broken (.wallet fault))

/-- Who makes a call: the sender that is given, unless it is empty, or else a wallet's address. -/
def resolve (s : System) (c : Config) (caller : Caller) : Part String :=
  match caller.sender.filter (· ≠ "") with
  | some sender => .ok sender
  | none => (s.getWallet c caller.wallet caller.walletPath).map Wallet.address

/-- A new wallet saved to its file. -/
def createWallet (s : System) (c : Config) (fresh : Wallet) (name path : Option String) :
    Ending × Files :=
  match s.walletPath c name path with
  | .error ending => (ending, s.files)
  | .ok path =>
    match s.files.exists? path with
    | .error e => (.broken (.file e), s.files)
    | .ok true => (.exit 1 [s!"⚠️  Wallet already exists at {path.toString}"] [], s.files)
    | .ok false =>
      match WalletFile.save s.files path fresh with
      | (.error e, files) => (.broken (.file e), files)
      | (.ok (), files) =>
        (.said [s!"✅ Wallet created and saved to {path.toString}", s!"Address: {fresh.address}"],
          files)

/-- The address of a wallet. -/
def showWallet (s : System) (c : Config) (name path : Option String) : Ending :=
  match s.getWallet c name path with
  | .error ending => ending
  | .ok wallet => .said [wallet.address]

/-! ## Runs -/

/-- The ending of work with a host over the database of a configuration, and the files after it.
A database that no file keeps has no table to look at. -/
def withHost (s : System) (c : Config) (work : Host → Done) : Ending × Files :=
  match s.files.openDatabase c.dbPath with
  | (.error fault, files) => (.broken (.database fault), files)
  | (.ok .transient, files) =>
    let done := work ⟨c.ledger, .table .empty, none, s.runtime.details⟩
    (if done.looked then .broken (.database .noTable) else done.ending, files)
  | (.ok (.kept names db), files) =>
    let done := work ⟨c.ledger, .table db.rows, none, s.runtime.details⟩
    match done.host.store with
    | .table rows => (done.ending, files.putDatabase names db rows)
    | _ => (done.ending, files)

/-- A command on behalf of a caller who has to be found out first. -/
def commandBy (s : System) (c : Config) (caller : Caller) (message : Json.Members) :
    Ending × Files :=
  match s.resolve c caller with
  | .error ending => (ending, s.files)
  | .ok sender => s.withHost c (runCommand sender message)

/-- The start of a ledger from a genesis file. -/
def initBy (s : System) (c : Config) (genesis : Option Path) (caller : Caller) : Ending × Files :=
  match genesis <|> c.genesisFile with
  | none =>
    (.complaint 1 "❌ No genesis file given (use --genesis or TOKENLEDGER_GENESIS_FILE)", s.files)
  | some path =>
    match readGenesis s.runtime s.files path with
    | .error ending => (ending, s.files)
    | .ok genesis =>
      match s.resolve c caller with
      | .error ending => (ending, s.files)
      | .ok sender => s.withHost c (runInit sender genesis)

/-- What a request asks for. -/
def serve (s : System) (c : Config) (fresh : Wallet) : Request → Ending × Files
  | .init genesis caller => s.initBy c genesis caller
  | .transfer recipient amount caller =>
    s.commandBy c caller
      [("transfer", .obj [("recipient", .str recipient), ("amount", .str amount)])]
  | .approve spender amount caller =>
    s.commandBy c caller
      [("approve", .obj [("spender", .str spender), ("amount", .str amount)])]
  | .transferFrom owner recipient amount caller =>
    s.commandBy c caller
      [("transfer_from",
        .obj [("owner", .str owner), ("recipient", .str recipient), ("amount", .str amount)])]
  | .burn amount caller => s.commandBy c caller [("burn", .obj [("amount", .str amount)])]
  | .balance holder =>
    match s.resolve c holder with
    | .error ending => (ending, s.files)
    | .ok address => s.withHost c (runQuery [("balance", .obj [("address", .str address)])])
  | .allowance owner spender =>
    s.withHost c
      (runQuery [("allowance", .obj [("owner", .str owner), ("spender", .str spender)])])
  | .info => s.withHost c (runQuery [("token_info", .obj [])])
  | .holders => s.withHost c runHolders
  | .createWallet name path => s.createWallet c fresh name path
  | .walletAddress name path => (s.showWallet c name path, s.files)

/-- The configuration of a run: that of the environment, with the options of the run. -/
def configOf (s : System) (run : Run) : Part Config :=
  match Config.ofEnvironment s.homes.own s.environment with
  | .error e => .error (.broken (.environment e))
  | .ok c =>
    .ok { c with
      dbPath := run.dbPath.getD c.dbPath
      logLevel := if run.verbose then .debug else c.logLevel }

/-- A run, with a wallet in reserve in case that a new one is asked for. The configuration is read
between the options of the run and those of its command. -/
def perform (s : System) (fresh : Wallet) (arguments : List String) : Ending × Files :=
  match Run.ofArguments arguments with
  | .error stop => (stop.ending, s.files)
  | .ok run =>
    match s.configOf run with
    | .error ending => (ending, s.files)
    | .ok c =>
      match Request.ofArguments run.verb run.arguments with
      | .error stop => (stop.ending, s.files)
      | .ok request => s.serve c fresh request

end System

end FungibleLedger.CommandLine
