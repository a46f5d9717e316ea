import FungibleLedger.Json
import FungibleLedger.Decimal.Shortest
import FungibleLedger.Text.Quoted

/-!
# Values for human readers

How a value is shown to people: a text as it is, and inside a list or an object between quotes;
truth values and the missing value by their capitalised names.

* `Json.display` : the text of a value on its own.
* `Json.displayInner` : the text of a value inside another one.
* `Json.kindName` : what kind of value it is.
-/

namespace FungibleLedger.Json

mutual

/-- The text of a value inside another one. -/
def displayInner : Json → String
  | .null => "None"
  | .bool b => if b then "True" else "False"
  | .int n => toString n
  | .float x => x.text
  | .str s => Text.quoted s
  | .halves codes => Text.quotedCodes codes
  | .arr items => "[" ++ ", ".intercalate (displayItems items) ++ "]"
  | .obj members => "\x7b" ++ ", ".intercalate (displayMembers members) ++ "\x7d"

/-- The texts of the items of a list. -/
def displayItems : List Json → List String
  | [] => []
  | item :: rest => displayInner item :: displayItems rest

/-- The texts of the members of an object. -/
def displayMembers : List (String × Json) → List String
  | [] => []
  | (name, value) :: rest =>
    (Text.quoted name ++ ": " ++ displayInner value) :: displayMembers rest

end

/-- The text of a value on its own. -/
def display : Json → String
  | .str s => s
  | value => displayInner value

/-- The name of a value's kind. -/
def kindName : Json → String
  | .null => "NoneType"
  | .bool _ => "bool"
  | .int _ => "int"
  | .float _ => "float"
  | .str _ | .halves _ => "str"
  | .arr _ => "list"
  | .obj _ => "dict"

end FungibleLedger.Json
