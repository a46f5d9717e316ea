import FungibleLedger.Storage.Store

/-!
# Database files

The file of a database is a row of pages. Its first page holds a head and the schema; the rows of
the table and its keys are each kept in a tree of pages, and what is too long for a page of a tree
goes on in pages of its own. A file never gives pages back.

* `Table.pageCount` : how many pages the rows of a table take.
* `DatabaseFile` : the rows of a file, how often it was changed and how many pages it has;
  `DatabaseFile.pageCount_le` says that the rows have room.
* `DatabaseFile.head` : the first bytes of a file.
-/

namespace FungibleLedger

/-! ## Records in pages -/

namespace Record

/-- How many bytes a page of a tree has for its records. -/
def room : Nat := 4088

/-- How many bytes of a record go on in a page of its own. -/
def furtherRoom : Nat := 4092

/-- The fewest bytes of a long record that stay in its page. -/
def leastInside : Nat := 489

/-- The most bytes of a record that stay in a page of rows. -/
def mostOfRow : Nat := 4061

/-- The most bytes of a record that stay in a page of keys. -/
def mostOfKey : Nat := 1002

/-- How many bytes a number takes, with seven bits in each. -/
def numberLength (n : Nat) : Nat := n.log2 / 7 + 1

/-- How many bytes the type of a byte string takes. -/
def typeLength (bytes : Bytes) : Nat := numberLength (12 + 2 * bytes.length)

/-- How many bytes of a record stay in its page. The others fill further pages, the last of them
in part if the page has room for what would be left over. -/
def inside (most length : Nat) : Nat :=
  if length ≤ most then length
  else
    let kept := leastInside + (length - leastInside) % furtherRoom
    if kept ≤ most then kept else leastInside

/-- How many further pages a record takes. -/
def furtherPages (most length : Nat) : Nat :=
  (length - inside most length + (furtherRoom - 1)) / furtherRoom

/-- How many bytes of a page a record takes: `around` it, its length, its bytes and the link to a
further page if there is one. -/
def footprint (most around length : Nat) : Nat :=
  around + numberLength length + inside most length + if length ≤ most then 0 else 4

/-- How many pages come after one with some room left, so that records of these sizes fit. -/
def pagesAfter (left : Nat) : List Nat → Nat
  | [] => 0
  | size :: rest =>
    if size ≤ left then pagesAfter (left - size) rest else pagesAfter (room - size) rest + 1

/-- How many pages a tree of records takes: one, or one above all that hold the records, and the
further pages of the long ones. -/
def treePages (most around : Nat) (lengths : List Nat) : Nat :=
  let inTree := match pagesAfter room (lengths.map (footprint most around)) with
    | 0 => 1
    | more + 1 => more + 3
  lengths.foldl (fun pages length => pages + furtherPages most length) inTree

end Record

namespace Table

/-- How many bytes the record of a row takes. -/
def rowLength (row : Bytes × Bytes) : Nat :=
  1 + Record.typeLength row.1 + Record.typeLength row.2 + row.1.length + row.2.length

/-- How many bytes the record of a row's key takes. It ends with the number of the row. -/
def keyLength (row : Bytes × Bytes) : Nat :=
  3 + Record.typeLength row.1 + row.1.length

/-- How many pages the rows of a table take, with the page of the schema. A place takes two bytes,
and before a row stands its number. -/
def pageCount (t : Table) : Nat :=
  1 + Record.treePages Record.mostOfRow 3 (t.entries.map rowLength) +
    Record.treePages Record.mostOfKey 2 (t.entries.map keyLength)

end Table

/-! ## Files -/

/-- The file of a database: its rows, how often it was changed and how many pages it has. -/
structure DatabaseFile where
  rows : Table
  changes : Nat
  pages : Nat
  /-- The rows have room in the pages. -/
  pageCount_le : rows.pageCount ≤ pages

namespace DatabaseFile

/-- A file with its rows written at once. -/
def ofRows (rows : Table) : DatabaseFile := ⟨rows, 1, rows.pageCount, Nat.le_refl _⟩

/-- A file that was just set up. -/
def fresh : DatabaseFile := ofRows .empty

/-- A file with other rows. Rows that are the same already are no change. -/
def update (f : DatabaseFile) (rows : Table) : DatabaseFile :=
  if rows.entries = f.rows.entries then f
  else ⟨rows, f.changes + 1, max f.pages rows.pageCount, Nat.le_max_right ..⟩

/-- How many pages of a file are not in use. -/
def freePages (f : DatabaseFile) : Nat := f.pages - f.rows.pageCount

/-- The first bytes of a file, up to one behind the head that no text can hold: the signature, the
form of the pages, how often the file was changed, and how many pages it has and does not use. -/
def head (f : DatabaseFile) : Bytes :=
  utf8 "SQLite format 3" ++ [0, 0x10, 0, 1, 1, 0, 64, 32, 32] ++ Bytes.ofNat 4 f.changes ++
    Bytes.ofNat 4 f.pages ++ List.replicate 4 0 ++ Bytes.ofNat 4 f.freePages ++
    List.replicate 52 0 ++ Bytes.ofNat 4 f.changes ++ List.replicate 4 0 ++ [0x0D, 0x0F, 0xF8]

end DatabaseFile

end FungibleLedger
