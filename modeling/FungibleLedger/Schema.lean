import FungibleLedger.Bytes
import FungibleLedger.Json.Writer
import FungibleLedger.Text.Integer
import FungibleLedger.Text.Quoted

/-!
# Checking values against a model

A model names fields; checking a value against it gives the fields' values or every flaw, in the
order of the fields. Fields that the model does not name are passed over.

* `Schema.Flaw` : one thing wrong, with its place in the value.
* `Schema.Checked` : a checked value, or the flaws.
* `Schema.field`, `Schema.both` : the checks of single fields, and their combination.
* `Schema.text`, `Schema.anyText` : the checks of texts.
* `Schema.whole`, `Schema.atMost` : the checks of whole numbers.
* `Schema.Rejection` : a value that does not fit a model, with all its flaws.
-/

namespace FungibleLedger.Schema

/-- A step from a value to a part of it. -/
inductive Step
  | field (name : String)
  | index (i : Nat)
deriving DecidableEq

/-- What is wrong with a part of a value. -/
inductive Problem
  | missing
  | noText
  | brokenText
  | noWhole
  | unreadableWhole
  | oversizedWhole
  | fractional
  | infinite
  | above (bound : String)
  | below (bound : String)
  | noList
  | noModel (name : String)
  | noObject
  | noChoice (choices : List String)
  | noPath
  | noField (name : String)
  | malformed
  | rule (text : String)
deriving DecidableEq

/-- The code of a problem. -/
def Problem.code : Problem → String
  | .missing => "missing"
  | .noText => "string_type"
  | .brokenText => "string_unicode"
  | .noWhole => "int_type"
  | .unreadableWhole => "int_parsing"
  | .oversizedWhole => "int_parsing_size"
  | .fractional => "int_from_float"
  | .infinite => "finite_number"
  | .above _ => "less_than_equal"
  | .below _ => "greater_than_equal"
  | .noList => "list_type"
  | .noModel _ => "model_type"
  | .noObject => "model_type"
  | .noChoice _ => "literal_error"
  | .noPath => "path_type"
  | .noField _ => "no_such_attribute"
  | .malformed => "json_invalid"
  | .rule _ => "value_error"

/-- The wording of a problem; a text that is no JSON has none. -/
def Problem.message? : Problem → Option String
  | .missing => "Field required"
  | .noText => "Input should be a valid string"
  | .brokenText =>
    "Input should be a valid string, unable to parse raw data as a unicode string"
  | .noWhole => "Input should be a valid integer"
  | .unreadableWhole => "Input should be a valid integer, unable to parse string as an integer"
  | .oversizedWhole => "Unable to parse input string as an integer, exceeded maximum size"
  | .fractional => "Input should be a valid integer, got a number with a fractional part"
  | .infinite => "Input should be a finite number"
  | .above bound => s!"Input should be less than or equal to {bound}"
  | .below bound => s!"Input should be greater than or equal to {bound}"
  | .noList => "Input should be a valid list"
  | .noModel name => s!"Input should be a valid dictionary or instance of {name}"
  | .noObject => "Input should be an object"
  | .noChoice choices => "Input should be " ++ " or ".intercalate (choices.map Text.quoted)
  | .noPath => "Input is not a valid path for <class 'pathlib.Path'>"
  | .noField name => s!"Object has no attribute '{name}'"
  | .malformed => none
  | .rule text => s!"Value error, {text}"

/-- One thing wrong with a value, and the steps to the part that it concerns. -/
structure Flaw where
  place : List Step
  problem : Problem
deriving DecidableEq

/-- A flaw of a part, seen from the value that holds the part. -/
def Flaw.under (step : Step) (flaw : Flaw) : Flaw :=
  { flaw with place := step :: flaw.place }

/-- A checked value, or everything that is wrong with it. -/
abbrev Checked (α : Type) := Except (List Flaw) α

/-- The verdict that the value itself is wrong. -/
def fail {α : Type} (problem : Problem) : Checked α :=
  .error [⟨[], problem⟩]

/-- A check of a part, seen from the value that holds it. -/
def under {α : Type} (step : Step) (checked : Checked α) : Checked α :=
  checked.mapError (·.map (Flaw.under step))

/-- Two checks with the flaws of both. -/
def both {α β : Type} (a : Checked α) (b : Checked β) : Checked (α × β) :=
  match a, b with
  | .ok x, .ok y => .ok (x, y)
  | .ok _, .error flaws => .error flaws
  | .error flaws, .ok _ => .error flaws
  | .error flaws, .error more => .error (flaws ++ more)

/-- The check of a field that has to be present. -/
def field {α : Type} (members : Json.Members) (name : String) (check : Json → Checked α) :
    Checked α :=
  under (.field name) <|
    match members.get? name with
    | some value => check value
    | none => fail .missing

/-- The check of a field with a default. -/
def fieldOr {α : Type} (members : Json.Members) (name : String) (default : α)
    (check : Json → Checked α) : Checked α :=
  match members.get? name with
  | some value => under (.field name) (check value)
  | none => .ok default

/-- The check of an object by its members. -/
def object {α : Type} (otherwise : Problem) (check : Json.Members → Checked α) :
    Json → Checked α
  | .obj members => check members
  | _ => fail otherwise

/-- The checks of the items of a list from one index on. -/
def items {α : Type} (check : Json → Checked α) : (i : Nat) → List Json → Checked (List α)
  | _, [] => .ok []
  | i, item :: rest =>
    (both (under (.index i) (check item)) (items check (i + 1) rest)).map fun (x, xs) => x :: xs

/-- The check of a list by its items. -/
def list {α : Type} (check : Json → Checked α) : Json → Checked (List α)
  | .arr values => items check 0 values
  | _ => fail .noList

/-- The check of a text that may be broken. -/
def anyText : Json → Checked AnyText
  | .str s => .ok s
  | .halves codes => .ok (.broken codes)
  | _ => fail .noText

/-- The check of a whole text. -/
def text : Json → Checked String
  | .str s => .ok s
  | .halves _ => fail .brokenText
  | _ => fail .noText

/-- The whole number that a text writes for a field. -/
def wholeOfText (cs : List Char) : Checked Int :=
  match Integer.lenient cs with
  | .ok n => .ok n
  | .error .unreadable => fail .unreadableWhole
  | .error (.tooLong _) => fail .oversizedWhole

/-- What the size of a whole number that is written with a point stays below: 63 bits. -/
def wordBound : Int := 9223372036854775808

/-- The whole number that a number with a point is, if that fits a signed word. -/
def wholeOfFloat : Binary64 → Checked Int
  | .notANumber => fail .infinite
  | .infinite _ => fail .infinite
  | x =>
    match x.toInt? with
    | none => fail .fractional
    | some n => if -wordBound < n ∧ n < wordBound then .ok n else fail .oversizedWhole

/-- The check of a whole number. A truth value counts as zero or one, and a text or a number with
a point as the whole number that it writes. -/
def whole : Json → Checked Int
  | .int n => .ok n
  | .bool b => .ok (if b then 1 else 0)
  | .float x => wholeOfFloat x
  | .str s => wholeOfText s.toList
  | .halves _ => fail .brokenText
  | _ => fail .noWhole

/-- The check of a whole number against zero and a greatest value, which is shown as `bound`. -/
def atMost (greatest : Nat) (bound : String) (n : Int) : Checked (Fin (greatest + 1)) :=
  if _ : n > greatest then fail (.above bound)
  else if _ : n < 0 then fail (.below "0")
  else .ok ⟨n.toNat, by omega⟩

/-- The flaws of a value that does not fit a model, with the name of the model and what came in: a
record as it is stored, any other value as compact JSON. -/
structure Rejection where
  model : String
  input : Bytes
  flaws : List Flaw
deriving DecidableEq

/-- The first line of the report on a rejected value. -/
def Rejection.headline (r : Rejection) : String :=
  let errors := if r.flaws.length = 1 then "error" else "errors"
  s!"{r.flaws.length} validation {errors} for {r.model}"

/-- How the report on a rejected value goes on after its first line. It shows the parts that are
wrong, in a wording that is left open here. -/
abbrev Details := Rejection → String

/-- Reports that end with their first line. -/
def Details.none : Details := fun _ => ""

/-- The report on a rejected value. -/
def Rejection.report (details : Details) (r : Rejection) : String :=
  r.headline ++ "\n" ++ details r

/-- A checked record, or its rejection by a model. -/
def judge {α : Type} (model : String) (input : Bytes) (checked : Checked α) : Except Rejection α :=
  checked.mapError (⟨model, input, ·⟩)

/-- A value that is checked by a model, or its rejection. -/
def judgeJson {α : Type} (model : String) (check : Json → Checked α) (value : Json) :
    Except Rejection α :=
  judge model (utf8 value.compact) (check value)

end FungibleLedger.Schema
