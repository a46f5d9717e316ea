import FungibleLedger.Files

/-!
# Database files of a tree

A database has companions under its own name with an ending: the journal of a change that is being
made, and a log. What stands there from elsewhere is cleared away when the database is opened, or
keeps it from being opened.

* `Files.openDatabase` : the database at a path, set up.
* `Files.putDatabase` : the tree with the rows of a database replaced.
* `DatabaseFault` : why there is no database.
-/

namespace FungibleLedger

/-- Why a database cannot be used. -/
inductive DatabaseFault
  | file (e : FileError)
  | cannotOpen
  | diskError
  | notDatabase
  | noTable
deriving DecidableEq

/-- The wording of a database fault. -/
def DatabaseFault.message : DatabaseFault → String
  | .file e => e.message
  | .cannotOpen => "unable to open database file"
  | .diskError => "disk I/O error"
  | .notDatabase => "file is not a database"
  | .noTable => "no such table: state"

/-- A database that was opened: one that a file under names keeps, or one that no file keeps. -/
inductive OpenDatabase
  | kept (names : List String) (db : DatabaseFile)
  | transient

namespace Files

/-- The path that stands for a database which no file keeps. -/
def transient : Path := ⟨0, [":memory:"]⟩

/-! ## Room for a database -/

/-- How many bytes longer than a database's name the name of its journal is. -/
def journalExtra : Nat := 8

/-- The most bytes of the path of a journal. -/
def journalPathLimit : Nat := 512

/-- Whether a database has room at the end of names from the root, without their steps out of
folders: the way there stays below the limit, and the journal's path within it. `above` holds how
many bytes each name so far takes, last one first. -/
def hasRoom (above : List Nat) : List String → Bool
  | [] => above.sum + journalExtra ≤ journalPathLimit
  | name :: rest =>
    if name = ".." then hasRoom above.tail rest
    else
      let above := ((utf8 name).length + 1) :: above
      above.sum < journalPathLimit && hasRoom above rest

/-- Whether the name of a database's journal is not too long. -/
def hasJournalName (names : List String) : Bool :=
  (utf8 (names.getLastD "")).length + journalExtra ≤ nameLimit

/-! ## Companions -/

/-- Names with an ending of the last one. -/
def withEnding (ending : String) (names : List String) : List String :=
  names.dropLast ++ [names.getLastD "" ++ ending]

/-- The names of a database's journal. -/
def journal (names : List String) : List String := withEnding "-journal" names

/-- The names of a database's log. -/
def log (names : List String) : List String := withEnding "-wal" names

/-- Whether a folder stands under names. -/
def hasFolder (f : Files) (names : List String) : Bool :=
  match f.entry? names with
  | some .folder => true
  | _ => false

/-- The first byte of what stands under names, if that has any. -/
def firstByte? (f : Files) (names : List String) : Option UInt8 :=
  (f.entry? names).bind fun entry => entry.bytes?.bind List.head?

/-- The tree without the log of a database, if that has any bytes. -/
def dropLog (f : Files) (names : List String) : Files :=
  if (f.firstByte? (log names)).isSome then f.remove (log names) else f

/-- The tree without the journal of a database, if a change may have been broken off: the first
byte of such a journal is not zero. -/
def dropJournal (f : Files) (names : List String) : Files :=
  match f.firstByte? (journal names) with
  | some b => if b = 0 then f else f.remove (journal names)
  | none => f

/-! ## Opening -/

/-- The companions of a file with contents, looked after. -/
def settle (f : Files) (names : List String) : Except DatabaseFault Files :=
  if f.hasFolder (journal names) then .error .diskError
  else
    let f := f.dropJournal names
    if f.hasFolder (log names) then .error .cannotOpen else .ok f

/-- The empty file under names set up as a database, which takes a journal. -/
def setUpEmpty (f : Files) (names : List String) : Except DatabaseFault DatabaseFile × Files :=
  if f.hasFolder (log names) then (.error .diskError, f)
  else
    let f := f.dropLog names
    if !hasJournalName names || f.hasFolder (journal names) then (.error .cannotOpen, f)
    else (.ok .fresh, (f.remove (journal names)).put names (.database .fresh))

/-- The database file under names, set up. A file of less than two bytes counts as empty, and one
that cannot be set up stays as it is. -/
def setUpDatabase (f : Files) (names : List String) : Except DatabaseFault DatabaseFile × Files :=
  match f.entry? names with
  | some .folder => (.error .cannotOpen, f)
  | some (.file (_ :: _ :: _)) =>
    match f.settle names with
    | .error fault => (.error fault, f)
    | .ok f => (.error .notDatabase, f)
  | some (.database db) =>
    match f.settle names with
    | .error fault => (.error fault, f)
    | .ok f => (.ok db, f.dropLog names)
  | entry => (f.put names (entry.getD (.file []))).setUpEmpty names

/-- The database at a path, set up. The folders above it are made first. -/
def openDatabase (f : Files) (p : Path) : Except DatabaseFault OpenDatabase × Files :=
  match f.makeFolders p.parent with
  | (.error e, f) => (.error (.file e), f)
  | (.ok (), f) =>
    if p = transient then (.ok .transient, f)
    else
      match f.place p with
      | .error .nullCharacter => (.error (.file ⟨.nullCharacter, p.toString⟩), f)
      | .error _ => (.error .cannotOpen, f)
      | .ok names =>
        if hasRoom [] (f.base p ++ p.names) then
          let (db, f) := f.setUpDatabase names
          (db.map (.kept names), f)
        else (.error .cannotOpen, f)

/-- The tree with the rows of a database replaced. A change takes the journal and clears it away
afterwards. -/
def putDatabase (f : Files) (names : List String) (db : DatabaseFile) (rows : Table) : Files :=
  if rows.entries = db.rows.entries then f
  else (f.remove (journal names)).put names (.database (db.update rows))

end Files

end FungibleLedger
