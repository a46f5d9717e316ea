import FungibleLedger.CommandLine.Reach
import FungibleLedger.Storage.Listing

/-!
# The program

Loads the part of the file tree that a run reaches, performs the run and puts the changes back.
Database files are kept as listings of their tables.
-/

namespace FungibleLedger.Program

open CommandLine

/-- The text of a path from the root. -/
def pathText (names : List String) : String := (Path.mk 1 names).toString

/-- What stands under names. -/
def load (names : List String) : IO (Option Entry) := do
  let place := (← IO.currentDir) / pathText names
  if ← place.isDir then return some .folder
  if ← place.pathExists then
    let bytes ← IO.FS.readBinFile place
    match (String.fromUTF8? bytes).bind Table.ofListing? with
    | some rows => return some (.database (.ofRows rows))
    | none => return some (.file bytes.toList)
  return none

/-- The bytes that are kept of a file. -/
def contents : Entry → Option Bytes
  | .folder => none
  | .file bytes => some bytes
  | .database db => some (utf8 db.rows.toListing)

/-- Puts back what a run changed under names. A run makes folders and takes none away. -/
def save (before after : Files) (names : List String) : IO Unit := do
  match before.entry? names, after.entry? names with
  | none, some .folder => IO.FS.createDir (pathText names)
  | old, some new =>
    let bytes := contents new
    if bytes ≠ old.bind contents then
      if let some bytes := bytes then
        IO.FS.writeBinFile (pathText names) (ByteArray.mk bytes.toArray)
  | some _, none => IO.FS.removeFile (pathText names)
  | none, none => return ()

/-- The environment variables that a run looks at. -/
def environment : IO (List (String × String)) := do
  let mut found := []
  for (name, _) in Config.settings do
    if let some value ← IO.getEnv name then found := found ++ [(name, value)]
  return found

/-- A wallet with a random seed. -/
def freshWallet : IO Wallet := do
  let bytes ← IO.getRandomBytes 32
  match Wallet.ofSeed bytes.toList with
  | .ok wallet => return wallet
  | .error fault => throw (IO.userError fault.message)

/-- Performs the run that the arguments ask for. -/
def run (arguments : List String) : IO UInt32 := do
  let home := (← IO.getEnv "HOME").getD "/"
  let here := (Path.ofString (← IO.currentDir).toString).names
  let bare : System := ⟨⟨[], here⟩, ⟨home, []⟩, ← environment, .plain⟩
  let reach := bare.reach arguments
  let mut files := bare.files
  for names in reach do
    if let some entry ← load names then files := files.put names entry
  let system := { bare with files := files }
  let (ending, after) := system.perform (← freshWallet) arguments
  for names in reach do
    save files after names
  IO.print ending.out
  IO.eprint (ending.err system.runtime.details)
  return UInt32.ofNat ending.code

end FungibleLedger.Program

def main (arguments : List String) : IO UInt32 :=
  FungibleLedger.Program.run arguments
