import FungibleLedger.Path
import FungibleLedger.Storage.DatabaseFile
import FungibleLedger.Text.Quoted

/-!
# Trees of files

What stands under which names, and how a path leads there from the root or from the working
folder. A step to `..` leads out of a folder, so the names before it have to be there.

* `Files.find` : what a path leads to.
* `Files.read`, `Files.write`, `Files.makeFolders` : the contents of files, and new folders.
* `FileError` : why none of this can be done, and at which path.
-/

namespace FungibleLedger

/-- What names stand for. -/
inductive Entry
  | folder
  | file (bytes : Bytes)
  | database (db : DatabaseFile)

/-- The bytes of a file as far as anyone reads them; a database is read up to the first byte that
no text can hold. -/
def Entry.bytes? : Entry → Option Bytes
  | .folder => none
  | .file bytes => some bytes
  | .database db => some db.head

/-- A tree of files: what is below the root, each under the names that lead there, and the names of
the working folder. -/
structure Files where
  entries : List (List String × Entry)
  here : List String

/-- Why a path cannot be used. -/
inductive FileFault
  | missing
  | occupied
  | noFolder
  | folder
  | nameTooLong
  | nullCharacter
deriving DecidableEq

/-- A path that cannot be used, and why. -/
structure FileError where
  fault : FileFault
  path : String
deriving DecidableEq

/-- The number and the wording of a fault; a path with a null character never gets so far. -/
def FileFault.text? : FileFault → Option (Nat × String)
  | .missing => some (2, "No such file or directory")
  | .occupied => some (17, "File exists")
  | .noFolder => some (20, "Not a directory")
  | .folder => some (21, "Is a directory")
  | .nameTooLong => some (36, "File name too long")
  | .nullCharacter => none

/-- The wording of a file error. -/
def FileError.message (e : FileError) : String :=
  match e.fault.text? with
  | some (number, text) => s!"[Errno {number}] {text}: {Text.quoted e.path}"
  | none => Path.nullMessage

namespace Files

/-- The most bytes of a name. -/
def nameLimit : Nat := 255

/-- The most bytes of a path. -/
def pathLimit : Nat := 4095

/-- What stands under names. -/
def entry? (f : Files) (names : List String) : Option Entry :=
  match names with
  | [] => some .folder
  | names => f.entries.lookup names

/-- The tree with something put under names. -/
def put (f : Files) (names : List String) (entry : Entry) : Files :=
  { f with entries := (names, entry) :: f.entries.filter (·.1 ≠ names) }

/-- The tree with nothing under names. -/
def remove (f : Files) (names : List String) : Files :=
  { f with entries := f.entries.filter (·.1 ≠ names) }

/-- The names that lead from a folder along further names, all but the last of which have to be
there. -/
def walk (f : Files) : (folder names : List String) → Except FileFault (List String)
  | folder, [] => .ok folder
  | folder, name :: rest =>
    match f.entry? folder with
    | none => .error .missing
    | some .folder =>
      if (utf8 name).length > nameLimit then .error .nameTooLong
      else f.walk (if name = ".." then folder.dropLast else folder ++ [name]) rest
    | some _ => .error .noFolder

/-- The names that a path starts from. -/
def base (f : Files) (p : Path) : List String :=
  if p.slashes = 0 then f.here else []

/-- The names that a path leads to, whether anything stands there or not. -/
def place (f : Files) (p : Path) : Except FileFault (List String) :=
  if p.hasNull then .error .nullCharacter
  else if (utf8 p.toString).length > pathLimit then .error .nameTooLong
  else f.walk (f.base p) p.names

/-- What a path leads to. -/
def find (f : Files) (p : Path) : Except FileFault Entry :=
  match f.place p with
  | .error fault => .error fault
  | .ok names =>
    match f.entry? names with
    | none => .error .missing
    | some entry => .ok entry

/-- Whether a path leads to anything. A path or a name that is too long is an error. -/
def exists? (f : Files) (p : Path) : Except FileError Bool :=
  match f.find p with
  | .ok _ => .ok true
  | .error .nameTooLong => .error ⟨.nameTooLong, p.toString⟩
  | .error _ => .ok false

/-- The bytes of the file that a path leads to. -/
def read (f : Files) (p : Path) : Except FileError Bytes :=
  match f.find p with
  | .error fault => .error ⟨fault, p.toString⟩
  | .ok entry =>
    match entry.bytes? with
    | some bytes => .ok bytes
    | none => .error ⟨.folder, p.toString⟩

/-- The tree after bytes are written to a file, which is made if it is not there. -/
def write (f : Files) (p : Path) (bytes : Bytes) : Except FileError Files :=
  match f.place p with
  | .error fault => .error ⟨fault, p.toString⟩
  | .ok names =>
    match f.entry? names with
    | some .folder => .error ⟨.folder, p.toString⟩
    | _ => .ok (f.put names (.file bytes))

/-- The making of one folder, and the tree after it. -/
def makeFolder (f : Files) (p : Path) : Except FileError Unit × Files :=
  match f.place p with
  | .error fault => (.error ⟨fault, p.toString⟩, f)
  | .ok names =>
    match f.entry? names with
    | some .folder => (.ok (), f)
    | some _ => (.error ⟨.occupied, p.toString⟩, f)
    | none => (.ok (), f.put names .folder)

/-- The making of a folder with the folders above it. The names come last one first. -/
def makeFoldersUp (f : Files) (slashes : Nat) : List String → Except FileError Unit × Files
  | [] => (.ok (), f)
  | name :: above =>
    let p : Path := ⟨slashes, (name :: above).reverse⟩
    match f.find p.parent with
    | .ok _ => f.makeFolder p
    | .error _ =>
      match f.makeFoldersUp slashes above with
      | (.ok (), f) => f.makeFolder p
      | failed => failed

/-- The making of a folder with the folders above it, as far as they are not there. What was made
before a failure stays. -/
def makeFolders (f : Files) (p : Path) : Except FileError Unit × Files :=
  f.makeFoldersUp p.slashes p.names.reverse

/-- The names of a path without its steps out of folders; `above` is what comes before them, last
one first. -/
def straighten (above : List String) : List String → List String
  | [] => above.reverse
  | name :: rest => straighten (if name = ".." then above.tail else name :: above) rest

/-- The path from the root to where a path leads if every name in it is a folder. -/
def absolute (f : Files) (p : Path) : Path :=
  ⟨max p.slashes 1, straighten (f.base p).reverse p.names⟩

end Files

end FungibleLedger
