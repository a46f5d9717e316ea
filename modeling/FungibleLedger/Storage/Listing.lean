import FungibleLedger.Storage.Store
import FungibleLedger.Text.Quoted

/-!
# Listings of tables

A table as text: a headline, and a line for each row with its key and its value in hexadecimal
digits.

* `Table.toListing` : the listing of a table.
* `Table.ofListing?` : the table that a listing shows.
-/

namespace FungibleLedger.Table

/-- The first line of a listing. -/
def headline : String := "table of keys and values"

/-- The hexadecimal digits of bytes. -/
def hexDigits (bytes : Bytes) : List Char :=
  bytes.flatMap fun b => Text.Quoted.hex 2 b.toNat

/-- The value of a lower-case hexadecimal digit. -/
def hexValue? (c : Char) : Option Nat :=
  if c.isDigit then some (c.toNat - 48)
  else if 'a' ≤ c ∧ c ≤ 'f' then some (c.toNat - 87)
  else none

/-- The bytes that pairs of hexadecimal digits write. -/
def bytesOfHex? : List Char → Option Bytes
  | [] => some []
  | a :: b :: rest => do
    let high ← hexValue? a
    let low ← hexValue? b
    let bytes ← bytesOfHex? rest
    return UInt8.ofNat (high * 16 + low) :: bytes
  | [_] => none

/-- The line of a row. -/
def line (row : Bytes × Bytes) : String :=
  String.ofList (hexDigits row.1 ++ ' ' :: hexDigits row.2)

/-- The row of a line. -/
def row? (line : String) : Option (Bytes × Bytes) := do
  let key ← bytesOfHex? (line.toList.takeWhile (· ≠ ' '))
  let value ← bytesOfHex? ((line.toList.dropWhile (· ≠ ' ')).drop 1)
  return (key, value)

/-- The listing of a table. -/
def toListing (t : Table) : String :=
  String.join ((headline :: t.entries.map line).map (· ++ "\n"))

/-- The table that a listing shows. -/
def ofListing? (s : String) : Option Table :=
  match s.splitOn "\n" with
  | first :: lines =>
    if first = headline then
      ((lines.filter (· ≠ "")).mapM row?).map fun rows =>
        rows.foldl (fun t (key, value) => KeyMap.insert t key value) .empty
    else none
  | [] => none

end FungibleLedger.Table
