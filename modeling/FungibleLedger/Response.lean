import FungibleLedger.Json.Display
import FungibleLedger.Schema

/-!
# Responses

A call that changes the ledger answers with attributes, in order, for those who watch.

* `Response.add` : one more attribute; `Response.addJson` : of a key and a value.
* `Response.get?` : the first value of a key.
* `Response.toDict` : each key once, in the order of first use, with its last value.
-/

namespace FungibleLedger

/-- The attributes of a call's outcome. -/
structure Response where
  attributes : List (String × String)
deriving DecidableEq

namespace Response

/-- The response without attributes. -/
def empty : Response := ⟨[]⟩

/-- A response with one more attribute at its end. -/
def add (r : Response) (key value : String) : Response :=
  ⟨r.attributes ++ [(key, value)]⟩

/-- A response with one more attribute, whose key has to be a text and whose value is written as
people are shown it. -/
def addJson (r : Response) (key value : Json) : Except Schema.Rejection Response :=
  let check (key : Json) : Schema.Checked Response :=
    (Schema.under (.field "key") (Schema.text key)).map fun key => r.add key value.display
  Schema.judge "Attribute" (utf8 (Json.obj [("key", key), ("value", value)]).compact) (check key)

/-- The first value of a key. -/
def get? (r : Response) (key : String) : Option String :=
  r.attributes.lookup key

/-- A list of pairs with one set: in its old place if its key had one, and else at the end. -/
def putPair (key value : String) : List (String × String) → List (String × String)
  | [] => [(key, value)]
  | (k, v) :: rest => if k = key then (key, value) :: rest else (k, v) :: putPair key value rest

/-- Each key once, in the order of first use, with its last value. -/
def toDict (r : Response) : List (String × String) :=
  r.attributes.foldl (fun dict (key, value) => putPair key value dict) []

end Response

end FungibleLedger
