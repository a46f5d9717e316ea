import FungibleLedger.Decimal.Binary64
import FungibleLedger.Text.AnyText

/-!
# JSON values

Values as messages, genesis files and stored records carry them. Whole numbers are kept apart from
numbers that are written with a point or an exponent, because the rules of a field tell them apart.

* `Json` : a value.
* `Json.Members` : the members of an object, in order.
-/

namespace FungibleLedger

/-- A JSON value. A broken text is kept as its code points. The names of members are whole texts: no
rule asks for a broken one. -/
inductive Json
  | null
  | bool (b : Bool)
  | int (n : Int)
  | float (x : Binary64)
  | str (s : String)
  | halves (codes : List Nat)
  | arr (items : List Json)
  | obj (members : List (String × Json))

namespace Json

/-- A text as a value. -/
def ofText : AnyText → Json
  | .whole s => .str s
  | .broken codes => .halves codes

/-- The members of an object, in order. -/
abbrev Members := List (String × Json)

/-- The value of a member. -/
def Members.get? (members : Members) (name : String) : Option Json :=
  members.lookup name

/-- The members with one set: in its old place if it had one, and else at the end. -/
def Members.put (name : String) (value : Json) : Members → Members
  | [] => [(name, value)]
  | (n, v) :: rest => if n = name then (name, value) :: rest else (n, v) :: put name value rest

/-- The members without one name. -/
def Members.erase (name : String) (members : Members) : Members :=
  members.filter (·.1 ≠ name)

end Json

end FungibleLedger
