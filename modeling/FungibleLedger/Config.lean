import FungibleLedger.Ledger.Basic
import FungibleLedger.Path
import FungibleLedger.Text.Upper

/-!
# Configuration

Where the files are, which addresses a ledger takes, how long names and symbols may be, and how
much is logged.

* `Config.ofMembers` : a configuration from given fields and defaults.
* `Config.assign` : one field changed, or a private note taken.
* `Config.ofEnvironment` : a configuration from environment variables.
-/

namespace FungibleLedger

/-- How much is logged. -/
inductive LogLevel
  | debug
  | info
  | warning
  | error
  | critical
deriving DecidableEq

/-- The name of a level. -/
def LogLevel.name : LogLevel → String
  | .debug => "DEBUG"
  | .info => "INFO"
  | .warning => "WARNING"
  | .error => "ERROR"
  | .critical => "CRITICAL"

/-- The level of a name. -/
def LogLevel.ofName? : String → Option LogLevel
  | "DEBUG" => some .debug
  | "INFO" => some .info
  | "WARNING" => some .warning
  | "ERROR" => some .error
  | "CRITICAL" => some .critical
  | _ => none

/-- A configuration. -/
structure Config where
  dbPath : Path
  genesisFile : Option Path
  walletPath : Path
  addressFormat : AddressFormat
  bounds : Bounds
  logLevel : LogLevel
deriving DecidableEq

namespace Config

/-- The configuration of a user with a home directory. -/
def default (home : String) : Config where
  dbPath := (Path.ofString home).join ⟨0, [".tokenledger", "ledger.db"]⟩
  genesisFile := none
  walletPath := (Path.ofString home).join ⟨0, [".tokenledger", "wallet.json"]⟩
  addressFormat := .key
  bounds := ⟨3, 30, 3, 6⟩
  logLevel := .info

/-- The ledger of a configuration. -/
def ledger (c : Config) : Ledger := ⟨c.addressFormat, c.bounds⟩

/-! ## Checks of fields -/

/-- The check of a path. -/
def checkPath : Json → Schema.Checked Path
  | .str s => .ok (.ofString s)
  | _ => Schema.fail .noPath

/-- The check of a path that may be left open. -/
def checkOptionalPath : Json → Schema.Checked (Option Path)
  | .null => .ok none
  | value => (checkPath value).map some

/-- The check of an address format. -/
def checkFormat (value : Json) : Schema.Checked AddressFormat :=
  let found := match value with
    | .str s => AddressFormat.ofName? s
    | _ => none
  match found with
  | some format => .ok format
  | none => Schema.fail (.noChoice ["key", "simple"])

/-- The check of a least length: at least one. -/
def checkLeast (value : Json) : Schema.Checked Int :=
  (Schema.whole value).bind fun n =>
    if n < 1 then Schema.fail (.rule "Minimum length must be at least 1") else .ok n

/-- The check of a log level, whose name may be in any case. -/
def checkLevel (value : Json) : Schema.Checked LogLevel :=
  (Schema.text value).bind fun s =>
    let name := Text.upper s
    match LogLevel.ofName? name with
    | some level => .ok level
    | none => Schema.fail (.rule s!"Unknown log level: {name}")

/-- The check of a whole configuration: no least length above its greatest one. -/
def checkBounds (c : Config) : Schema.Checked Unit :=
  if c.bounds.nameLeast > c.bounds.nameGreatest then
    Schema.fail (.rule "name_min_length cannot exceed name_max_length")
  else if c.bounds.symbolLeast > c.bounds.symbolGreatest then
    Schema.fail (.rule "symbol_min_length cannot exceed symbol_max_length")
  else .ok ()

/-! ## Making and changing configurations -/

/-- The configuration with given fields, each checked, and the defaults for the others. -/
def checkFields (base : Config) (members : Json.Members) : Schema.Checked Config :=
  let dbPath := Schema.fieldOr members "db_path" base.dbPath checkPath
  let genesisFile := Schema.fieldOr members "genesis_file" base.genesisFile checkOptionalPath
  let walletPath := Schema.fieldOr members "wallet_path" base.walletPath checkPath
  let format := Schema.fieldOr members "address_format" base.addressFormat checkFormat
  let nameLeast := Schema.fieldOr members "name_min_length" base.bounds.nameLeast checkLeast
  let nameGreatest :=
    Schema.fieldOr members "name_max_length" base.bounds.nameGreatest Schema.whole
  let symbolLeast := Schema.fieldOr members "symbol_min_length" base.bounds.symbolLeast checkLeast
  let symbolGreatest :=
    Schema.fieldOr members "symbol_max_length" base.bounds.symbolGreatest Schema.whole
  let level := Schema.fieldOr members "log_level" base.logLevel checkLevel
  let lengths := Schema.both nameLeast <| Schema.both nameGreatest <|
    Schema.both symbolLeast <| Schema.both symbolGreatest level
  let fields := Schema.both dbPath <| Schema.both genesisFile <| Schema.both walletPath <|
    Schema.both format lengths
  fields.map fun (db, genesis, wallet, format, nameLeast, nameGreatest, least, greatest, level) =>
    ⟨db, genesis, wallet, format, ⟨nameLeast, nameGreatest, least, greatest⟩, level⟩

/-- The configuration with given fields. -/
def ofMembers (base : Config) (members : Json.Members) : Schema.Checked Config :=
  (checkFields base members).bind fun c => (checkBounds c).map fun _ => c

/-- A configuration with the value of a field, once the value is checked. -/
def withField (c : Config) (name : String) (value : Json) : Schema.Checked Config :=
  match name with
  | "db_path" => (checkPath value).map fun p => { c with dbPath := p }
  | "genesis_file" => (checkOptionalPath value).map fun p => { c with genesisFile := p }
  | "wallet_path" => (checkPath value).map fun p => { c with walletPath := p }
  | "address_format" => (checkFormat value).map fun f => { c with addressFormat := f }
  | "name_min_length" =>
    (checkLeast value).map fun n => { c with bounds := { c.bounds with nameLeast := n } }
  | "name_max_length" =>
    (Schema.whole value).map fun n => { c with bounds := { c.bounds with nameGreatest := n } }
  | "symbol_min_length" =>
    (checkLeast value).map fun n => { c with bounds := { c.bounds with symbolLeast := n } }
  | "symbol_max_length" =>
    (Schema.whole value).map fun n => { c with bounds := { c.bounds with symbolGreatest := n } }
  | "log_level" => (checkLevel value).map fun l => { c with logLevel := l }
  | name => Schema.fail (.noField name)

/-- Why an assignment to a name is refused. -/
inductive AssignError
  | invalid (flaws : List Schema.Flaw)
  | derived (name : String)
  | reserved (name : String)
deriving DecidableEq

/-- What follows from the fields of a configuration, so that it cannot be set. -/
def derivedNames : List String := ["model_extra", "model_fields_set", "__fields_set__"]

/-- What a configuration is and holds as a whole, for which no value can stand in. -/
def reservedNames : List String := ["__class__", "__dict__"]

/-- Whether a name begins with an underscore: such a name is private, and anything may be noted
under it. -/
def isPrivate (name : String) : Bool := name.toList.head? = some '_'

/-- The wording of a refused assignment. -/
def AssignError.message : AssignError → String
  | .invalid flaws => "; ".intercalate (flaws.filterMap fun f => f.problem.message?)
  | .derived name => s!"property '{name}' of 'LedgerConfig' object has no setter"
  | .reserved name => s!"{name} cannot be replaced"

/-- The verdict on an assignment to a name, and the configuration after it. A value that its field
refuses is not taken; the check of the whole configuration comes after the change. A private note
changes no field. -/
def assign (c : Config) (name : String) (value : Json) : Except AssignError Unit × Config :=
  if derivedNames.contains name then (.error (.derived name), c)
  else if reservedNames.contains name then (.error (.reserved name), c)
  else if isPrivate name then (.ok (), c)
  else
    match Schema.under (.field name) (c.withField name value) with
    | .error flaws => (.error (.invalid flaws), c)
    | .ok changed => ((checkBounds changed).mapError .invalid, changed)

/-- The fields of a configuration. -/
def toJson (c : Config) : Json :=
  .obj [("db_path", .str c.dbPath.toString),
    ("genesis_file", (c.genesisFile.map fun p => Json.str p.toString).getD .null),
    ("wallet_path", .str c.walletPath.toString),
    ("address_format", .str c.addressFormat.name),
    ("name_min_length", .int c.bounds.nameLeast), ("name_max_length", .int c.bounds.nameGreatest),
    ("symbol_min_length", .int c.bounds.symbolLeast),
    ("symbol_max_length", .int c.bounds.symbolGreatest), ("log_level", .str c.logLevel.name)]

/-! ## Environment variables -/

/-- Why environment variables give no configuration. -/
inductive EnvironmentError
  | number (text : String) (fault : Integer.Fault)
  | invalid (flaws : List Schema.Flaw)
deriving DecidableEq

/-- The environment variables that are read, in order, with their fields and whether they hold a
number. -/
def settings : List (String × String × Bool) :=
  [("TOKENLEDGER_DB_PATH", "db_path", false), ("TOKENLEDGER_WALLET_PATH", "wallet_path", false),
    ("TOKENLEDGER_GENESIS_FILE", "genesis_file", false),
    ("TOKENLEDGER_ADDRESS_FORMAT", "address_format", false),
    ("TOKENLEDGER_NAME_MIN_LENGTH", "name_min_length", true),
    ("TOKENLEDGER_NAME_MAX_LENGTH", "name_max_length", true),
    ("TOKENLEDGER_SYMBOL_MIN_LENGTH", "symbol_min_length", true),
    ("TOKENLEDGER_SYMBOL_MAX_LENGTH", "symbol_max_length", true),
    ("TOKENLEDGER_LOG_LEVEL", "log_level", false)]

/-- The fields that environment variables set. -/
def environmentFields (environment : List (String × String)) :
    List (String × String × Bool) → Except EnvironmentError Json.Members
  | [] => .ok []
  | (variable_, field, numeric) :: rest =>
    match environment.lookup variable_ with
    | none => environmentFields environment rest
    | some text =>
      if numeric then
        match Integer.setting text.toList with
        | .error fault => .error (.number text fault)
        | .ok n => (environmentFields environment rest).map ((field, .int n) :: ·)
      else (environmentFields environment rest).map ((field, .str text) :: ·)

/-- The configuration that environment variables give. The numbers are read before any field is
checked. -/
def ofEnvironment (home : String) (environment : List (String × String)) :
    Except EnvironmentError Config :=
  match environmentFields environment settings with
  | .error e => .error e
  | .ok members => (ofMembers (default home) members).mapError .invalid

end Config

end FungibleLedger
