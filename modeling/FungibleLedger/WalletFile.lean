import FungibleLedger.Files
import FungibleLedger.Wallet

/-!
# Wallet files

* `WalletFile.load` : the wallet that a file of a tree holds.
* `WalletFile.save` : the tree with a wallet's file.
-/

namespace FungibleLedger.WalletFile

/-- Why a wallet cannot be loaded. -/
inductive Fault
  | file (e : FileError)
  | contents (fault : Wallet.Fault)
deriving DecidableEq

/-- The wording of a fault. -/
def Fault.message : Fault → String
  | .file e => e.message
  | .contents fault => fault.message

/-- The wallet in the file that a path leads to. Containers in it may nest to a depth. -/
def load (depth : Nat) (files : Files) (path : Path) : Except Fault Wallet :=
  match files.read path with
  | .error e => .error (.file e)
  | .ok bytes => (Wallet.ofFile depth bytes).mapError .contents

/-- The writing of a wallet's file at a path, and the tree after it. The folders above the file are
made first. -/
def save (files : Files) (path : Path) (w : Wallet) : Except FileError Unit × Files :=
  match files.makeFolders (files.absolute path).parent with
  | (.error e, files) => (.error e, files)
  | (.ok (), files) =>
    match files.write path (utf8 w.fileText) with
    | .error e => (.error e, files)
    | .ok files => (.ok (), files)

end FungibleLedger.WalletFile
