import FungibleLedger.CommandLine.Session

/-!
# What a run reaches

* `System.reach` : the names that a run may read or write, with those of the folders above them.
-/

namespace FungibleLedger.CommandLine

/-- The path of a wallet, if there is one. -/
def System.walletPaths (s : System) (c : Config) (name path : Option String) : List Path :=
  (s.walletPath c name path).toOption.toList

/-- The paths of a caller's wallet. -/
def Caller.paths (caller : Caller) (s : System) (c : Config) : List Path :=
  s.walletPaths c caller.wallet caller.walletPath

/-- The paths of a database and its companions. -/
def databasePaths (p : Path) : List Path :=
  [p, { p with names := Files.journal p.names }, { p with names := Files.log p.names }]

/-- The paths that a request reads or writes. -/
def Request.paths (s : System) (c : Config) : Request → List Path
  | .init genesis caller =>
    databasePaths c.dbPath ++ (genesis <|> c.genesisFile).toList ++ caller.paths s c
  | .transfer _ _ caller => databasePaths c.dbPath ++ caller.paths s c
  | .approve _ _ caller => databasePaths c.dbPath ++ caller.paths s c
  | .transferFrom _ _ _ caller => databasePaths c.dbPath ++ caller.paths s c
  | .burn _ caller => databasePaths c.dbPath ++ caller.paths s c
  | .balance holder => databasePaths c.dbPath ++ holder.paths s c
  | .allowance .. => databasePaths c.dbPath
  | .info => databasePaths c.dbPath
  | .holders => databasePaths c.dbPath
  | .createWallet name path => s.walletPaths c name path
  | .walletAddress name path => s.walletPaths c name path

/-- The paths that the arguments of a run lead to. -/
def System.paths (s : System) (arguments : List String) : List Path :=
  match Run.ofArguments arguments with
  | .error _ => []
  | .ok run =>
    match s.configOf run with
    | .error _ => []
    | .ok c =>
      match Request.ofArguments run.verb run.arguments with
      | .error _ => []
      | .ok request => request.paths s c

/-- Names with all their beginnings, the shortest first. -/
def beginnings (names : List String) : List (List String) :=
  (List.range names.length).map fun i => names.take (i + 1)

/-- The names that a run may read or write, each behind those of the folders above it. -/
def System.reach (s : System) (arguments : List String) : List (List String) :=
  let places := (s.paths arguments).map fun p => (s.files.absolute p).names
  ((s.files.here :: places).flatMap beginnings).eraseDups

end FungibleLedger.CommandLine
