import FungibleLedger.Json
import FungibleLedger.Decimal.Shortest
import FungibleLedger.Text.Quoted

/-!
# Writing JSON

The compact form of a value: no blanks, members in order, every character as itself except the
quote, the backslash and the control characters.

* `Json.quoteChars` : the characters of a text between its quotes.
* `Json.compact` : the compact form of a value.
-/

namespace FungibleLedger.Json

/-- One character inside a quoted text. -/
def escapeChar (c : Char) : List Char :=
  if c = '"' then ['\\', '"']
  else if c = '\\' then ['\\', '\\']
  else if c = '\n' then ['\\', 'n']
  else if c = '\r' then ['\\', 'r']
  else if c = '\t' then ['\\', 't']
  else if c.toNat = 8 then ['\\', 'b']
  else if c.toNat = 12 then ['\\', 'f']
  else if c.toNat < 0x20 then '\\' :: 'u' :: Text.Quoted.hex 4 c.toNat
  else [c]

/-- The characters of a text between quotes. -/
def quoteChars (cs : List Char) : List Char :=
  '"' :: cs.flatMap escapeChar ++ ['"']

/-- A text between quotes. -/
def quote (s : String) : String :=
  String.ofList (quoteChars s.toList)

/-- A text given by code points, between quotes: half of a surrogate pair is an escape. -/
def quoteCodes (codes : List Nat) : String :=
  let one (code : Nat) : List Char :=
    if 0xD800 ≤ code ∧ code ≤ 0xDFFF then '\\' :: 'u' :: Text.Quoted.hex 4 code
    else escapeChar (Char.ofNat code)
  String.ofList ('"' :: codes.flatMap one ++ ['"'])

/-- The written form of a number with a point or an exponent. -/
def floatText : Binary64 → String
  | .notANumber => "NaN"
  | .infinite negative => if negative then "-Infinity" else "Infinity"
  | x => x.text

mutual

/-- The compact form of a value. -/
def compact : Json → String
  | .null => "null"
  | .bool b => if b then "true" else "false"
  | .int n => toString n
  | .float x => floatText x
  | .str s => quote s
  | .halves codes => quoteCodes codes
  | .arr items => "[" ++ ",".intercalate (compactItems items) ++ "]"
  | .obj members => "\x7b" ++ ",".intercalate (compactMembers members) ++ "\x7d"

/-- The compact forms of the items of a list. -/
def compactItems : List Json → List String
  | [] => []
  | item :: rest => compact item :: compactItems rest

/-- The compact forms of the members of an object. -/
def compactMembers : List (String × Json) → List String
  | [] => []
  | (name, value) :: rest => (quote name ++ ":" ++ compact value) :: compactMembers rest

end

end FungibleLedger.Json
