import FungibleLedger.Json
import FungibleLedger.Text.Integer
import FungibleLedger.Text.Utf8

/-!
# Reading JSON

One grammar, read with a choice of limits: how deep containers may nest, how many digits a number
may have and whether a text may be broken. Beside the standard's values it knows `NaN`, `Infinity`
and `-Infinity`. Of two members with one name the later value stays.

A reader's state is the rest of the text, and a fault keeps the rest at which it was found: the
offset is the difference of two lengths, worked out once at the end.

* `Json.read` : the value that a text writes.
* `Json.readStored` : the value that a stored record writes, with its own limits.
* `Json.ReadError` : why there is none.
-/

namespace FungibleLedger.Json

/-- What a reader found to be wrong at a place. -/
inductive Complaint
  | value
  | name
  | colon
  | comma
  | extra
  | unterminated
  | control
  | escape
  | hexEscape
  | byteOrderMark
deriving DecidableEq

/-- The wording of a complaint. -/
def Complaint.message : Complaint → String
  | .value => "Expecting value"
  | .name => "Expecting property name enclosed in double quotes"
  | .colon => "Expecting ':' delimiter"
  | .comma => "Expecting ',' delimiter"
  | .extra => "Extra data"
  | .unterminated => "Unterminated string starting at"
  | .control => "Invalid control character at"
  | .escape => "Invalid \\escape"
  | .hexEscape => "Invalid \\uXXXX escape"
  | .byteOrderMark => "Unexpected UTF-8 BOM (decode using utf-8-sig)"

/-- A container, as an error names it. -/
inductive Container
  | array
  | object
deriving DecidableEq

/-- Why a reader stopped: a complaint at a rest of the text, a whole number with too many digits,
or a container nested too deep. -/
inductive Stop
  | complaint (what : Complaint) (rest : List Char)
  | digits (count : Nat)
  | depth (container : Container)

/-- The limits of a reader. -/
structure Limits where
  /-- The deepest nesting of containers. -/
  depth : Nat
  /-- Whether an empty container counts for the depth. -/
  empties : Bool
  /-- The most digits of a whole number. -/
  digits : Nat
  /-- Whether that limits the digits before a point or an exponent, too. -/
  wholeParts : Bool
  /-- Whether a text may be broken. -/
  halves : Bool

/-! ## Texts -/

/-- Whether a character is blank between tokens. -/
def isBlank (c : Char) : Bool :=
  c == ' ' || c == '\t' || c == '\n' || c == '\r'

/-- The rest of a text after blanks. -/
def skipBlanks (cs : List Char) : List Char :=
  cs.dropWhile isBlank

/-- The value of a hexadecimal digit. -/
def hexValue? (c : Char) : Option Nat :=
  if '0' ≤ c ∧ c ≤ '9' then some (c.toNat - '0'.toNat)
  else if 'a' ≤ c ∧ c ≤ 'f' then some (c.toNat - 'a'.toNat + 10)
  else if 'A' ≤ c ∧ c ≤ 'F' then some (c.toNat - 'A'.toNat + 10)
  else none

/-- The value of four hexadecimal digits. -/
def hexQuad? (a b c d : Char) : Option Nat := do
  return (((← hexValue? a) * 16 + (← hexValue? b)) * 16 + (← hexValue? c)) * 16 + (← hexValue? d)

/-- The character that a one-letter escape stands for. -/
def escaped? (c : Char) : Option Char :=
  match c with
  | '"' => some '"'
  | '\\' => some '\\'
  | '/' => some '/'
  | 'b' => some '\x08'
  | 'f' => some '\x0c'
  | 'n' => some '\n'
  | 'r' => some '\r'
  | 't' => some '\t'
  | _ => none

/-- The code points of a text up to its closing quote, where an escape gives one code unit, and
the rest after the quote. `opening` is the rest at the opening quote and `done` holds the code
points read so far, last first. -/
def readUnits (opening : List Char) (done : List Nat) :
    List Char → Except Stop (List Nat × List Char)
  | [] => .error (.complaint .unterminated opening)
  | '"' :: rest => .ok (done.reverse, rest)
  | ['\\'] => .error (.complaint .unterminated opening)
  | '\\' :: 'u' :: rest =>
    match rest with
    | a :: b :: c :: d :: next :: rest' =>
      match hexQuad? a b c d with
      | some code => readUnits opening (code :: done) (next :: rest')
      | none => .error (.complaint .hexEscape ('u' :: rest))
    | _ => .error (.complaint .hexEscape ('u' :: rest))
  | '\\' :: c :: rest =>
    match escaped? c with
    | some e => readUnits opening (e.toNat :: done) rest
    | none => .error (.complaint .escape ('\\' :: c :: rest))
  | c :: rest =>
    if c.toNat < 0x20 then .error (.complaint .control (c :: rest))
    else readUnits opening (c.toNat :: done) rest

/-- The text after an opening quote, and the rest after its closing one. -/
def readText (limits : Limits) (opening : List Char) (cs : List Char) :
    Except Stop (Json × List Char) :=
  match readUnits opening [] cs with
  | .error stop => .error stop
  | .ok (units, rest) =>
    let text := AnyText.ofUnits units
    if limits.halves || text.whole?.isSome then .ok (.ofText text, rest)
    else .error (.complaint .hexEscape opening)

/-! ## Numbers -/

/-- A number's fraction: its digits, and the rest. A point without a digit after it is not part
of the number. -/
def readFraction : List Char → List Char × List Char
  | '.' :: rest =>
    match rest.takeWhile Char.isDigit with
    | [] => ([], '.' :: rest)
    | digits => (digits, rest.dropWhile Char.isDigit)
  | cs => ([], cs)

/-- A number's exponent, and the rest. An exponent mark without a digit after it is not part of
the number. -/
def readExponent (cs : List Char) : Option Int × List Char :=
  let signed (negative : Bool) (rest : List Char) : Option Int × List Char :=
    match rest.takeWhile Char.isDigit with
    | [] => (none, cs)
    | digits =>
      (some (Integer.ofDigits negative digits), rest.dropWhile Char.isDigit)
  match cs with
  | 'e' :: '-' :: rest | 'E' :: '-' :: rest => signed true rest
  | 'e' :: '+' :: rest | 'E' :: '+' :: rest => signed false rest
  | 'e' :: rest | 'E' :: rest => signed false rest
  | _ => (none, cs)

/-- The whole part of a number: a zero alone, or digits that begin with another one. -/
def readWhole : List Char → Option (List Char × List Char)
  | '0' :: rest => some (['0'], rest)
  | c :: rest =>
    if c.isDigit then some ((c :: rest).takeWhile Char.isDigit, (c :: rest).dropWhile Char.isDigit)
    else none
  | [] => none

/-- The number at the start of a text, its sign already read. -/
def readNumber (limits : Limits) (negative : Bool) (start cs : List Char) :
    Except Stop (Json × List Char) :=
  match readWhole cs with
  | none => .error (.complaint .value start)
  | some (whole, rest) =>
    let (fraction, rest) := readFraction rest
    let (exponent, rest) := readExponent rest
    let isInt := fraction.isEmpty && exponent.isNone
    if (isInt || limits.wholeParts) && whole.length > limits.digits then
      .error (.digits whole.length)
    else if isInt then .ok (.int (Integer.ofDigits negative whole), rest)
    else
      let digits := Nat.ofDigitChars 10 (whole ++ fraction) 0
      .ok (.float (.ofDecimal negative digits (exponent.getD 0 - fraction.length)), rest)

/-! ## Values -/

/-- The rest of a text after a given start. -/
def afterStart? : (start cs : List Char) → Option (List Char)
  | [], cs => some cs
  | a :: start, c :: cs => if a = c then afterStart? start cs else none
  | _ :: _, [] => none

/-- The words that stand for a value. -/
def words : List (List Char × Json) :=
  [("null".toList, .null), ("true".toList, .bool true), ("false".toList, .bool false),
    ("NaN".toList, .float .notANumber), ("Infinity".toList, .float (.infinite false)),
    ("-Infinity".toList, .float (.infinite true))]

/-- A value that is no container and no text. -/
def readScalar (limits : Limits) (cs : List Char) : Except Stop (Json × List Char) :=
  match words.findSome? fun (word, value) => (afterStart? word cs).map (value, ·) with
  | some found => .ok found
  | none =>
    match cs with
    | '-' :: rest => readNumber limits true cs rest
    | _ => readNumber limits false cs cs

mutual

/-- The value at the start of a text. `fuel` bounds the steps and `depth` is how many more
containers may nest. -/
def readValue (limits : Limits) : (fuel depth : Nat) → List Char → Except Stop (Json × List Char)
  | 0, _, cs => .error (.complaint .value cs)
  | fuel + 1, depth, cs =>
    match cs with
    | '"' :: rest => readText limits cs rest
    | '[' :: rest =>
      match skipBlanks rest, depth with
      | ']' :: rest, depth =>
        if limits.empties && depth = 0 then .error (.depth .array) else .ok (.arr [], rest)
      | _, 0 => .error (.depth .array)
      | rest, depth + 1 => readItems limits fuel depth [] rest
    | '\x7b' :: rest =>
      match skipBlanks rest, depth with
      | '\x7d' :: rest, depth =>
        if limits.empties && depth = 0 then .error (.depth .object) else .ok (.obj [], rest)
      | _, 0 => .error (.depth .object)
      | rest, depth + 1 => readMembers limits fuel depth [] rest
    | cs => readScalar limits cs

/-- The items of a list from one item on; `done` holds the items before it, last first. -/
def readItems (limits : Limits) : (fuel depth : Nat) → (done : List Json) → List Char →
    Except Stop (Json × List Char)
  | 0, _, _, cs => .error (.complaint .value cs)
  | fuel + 1, depth, done, cs =>
    match readValue limits fuel depth cs with
    | .error stop => .error stop
    | .ok (item, rest) =>
      match skipBlanks rest with
      | ']' :: rest => .ok (.arr (item :: done).reverse, rest)
      | ',' :: rest => readItems limits fuel depth (item :: done) (skipBlanks rest)
      | rest => .error (.complaint .comma rest)

/-- The members of an object from one member on; `done` holds the members before it. -/
def readMembers (limits : Limits) : (fuel depth : Nat) → (done : Members) → List Char →
    Except Stop (Json × List Char)
  | 0, _, _, cs => .error (.complaint .name cs)
  | fuel + 1, depth, done, cs =>
    match cs with
    | '"' :: rest =>
      match readText limits cs rest with
      | .error stop => .error stop
      | .ok (name, rest) =>
        match skipBlanks rest with
        | ':' :: rest =>
          match readValue limits fuel depth (skipBlanks rest) with
          | .error stop => .error stop
          | .ok (value, rest) =>
            -- no program asks for a member whose name is no text
            let done := match name with
              | .str name => done.put name value
              | _ => done
            match skipBlanks rest with
            | '\x7d' :: rest => .ok (.obj done, rest)
            | ',' :: rest => readMembers limits fuel depth done (skipBlanks rest)
            | rest => .error (.complaint .comma rest)
        | rest => .error (.complaint .colon rest)
    | cs => .error (.complaint .name cs)

end

/-! ## Whole texts -/

/-- Why a text is no JSON. -/
inductive ReadError
  /-- A complaint at a place: line and column count from one, the offset from zero. -/
  | malformed (what : Complaint) (line column offset : Nat)
  /-- A whole number with too many digits. -/
  | digits (count : Nat)
  /-- A container nested too deep. -/
  | depth (container : Container)
deriving DecidableEq

/-- A complaint with the place that a number of characters before it has. -/
def ReadError.at (what : Complaint) (before : List Char) : ReadError :=
  let line := before.count '\n' + 1
  let column := (before.reverse.takeWhile (· ≠ '\n')).length + 1
  .malformed what line column before.length

/-- The reader's answer for a whole text. -/
def ReadError.ofStop (cs : List Char) : Stop → ReadError
  | .complaint what rest => .at what (cs.take (cs.length - rest.length))
  | .digits count => .digits count
  | .depth container => .depth container

/-- The value that a text writes, and nothing beside it. -/
def read (limits : Limits) (cs : List Char) : Except ReadError Json :=
  if cs.head? = some '\ufeff' then .error (.at .byteOrderMark [])
  else
    match readValue limits (2 * cs.length + 2) limits.depth (skipBlanks cs) with
    | .error stop => .error (.ofStop cs stop)
    | .ok (value, rest) =>
      match skipBlanks rest with
      | [] => .ok value
      | rest => .error (.ofStop cs (.complaint .extra rest))

/-- The limits for files: a text may be broken, and of numbers only a whole one is limited. The
depth is what room the reader finds when it is called. -/
def Limits.file (depth : Nat) : Limits := ⟨depth, true, Integer.digitLimit, false, true⟩

/-- The limits for stored records: an empty container may be deeper than all others. -/
def Limits.stored : Limits := ⟨200, false, Integer.digitLimit, true, false⟩

/-- The value that a stored record writes. -/
def readStored (bytes : Bytes) : Option Json :=
  match Utf8.decode bytes with
  | .error _ => none
  | .ok s => (read .stored s.toList).toOption

/-- The wording of a container. -/
def Container.message : Container → String
  | .array => "array"
  | .object => "object"

/-- The wording of an error. -/
def ReadError.message : ReadError → String
  | .malformed what line column offset =>
    s!"{what.message}: line {line} column {column} (char {offset})"
  | .digits count => Integer.tooLongMessage count
  | .depth container =>
    "maximum recursion depth exceeded while decoding a JSON " ++ container.message ++
      " from a unicode string"

end FungibleLedger.Json
