import FungibleLedger.Text.Blank
import FungibleLedger.Text.Quoted

/-!
# Whole numbers in texts

Three readings of a text as a whole number. Each gives up on a number of more than
`Integer.digitLimit` digits, and says so.

* `Integer.strict` : a minus sign or none, then digits without a needless zero.
* `Integer.lenient` : what a field of a message or of the configuration takes: also blanks around
  the number, a plus sign, leading zeros, even before the minus sign, underscores between digits,
  and a fraction of zeros.
* `Integer.setting` : what an environment variable takes: blanks around the number, either sign,
  leading zeros, underscores between digits, and the digits of every script.
-/

namespace FungibleLedger.Integer

/-- The most digits that a number in a text may have. -/
def digitLimit : Nat := 4300

/-- Why a text gives no whole number. -/
inductive Fault
  | unreadable
  | tooLong (digits : Nat)
deriving DecidableEq

/-- The wording for a number of too many digits. -/
def tooLongMessage (digits : Nat) : String :=
  s!"Exceeds the limit ({digitLimit} digits) for integer string conversion: value has {digits} " ++
    "digits; use sys.set_int_max_str_digits() to increase the limit"

/-- The number that ASCII digits write. -/
def ofDigits (negative : Bool) (digits : List Char) : Int :=
  let size : Int := Nat.ofDigitChars 10 digits 0
  if negative then -size else size

/-! ## The strict reading -/

/-- The digits of a strict number and what follows them; a zero stands alone. -/
def strictDigits : List Char → List Char × List Char
  | '0' :: rest => (['0'], rest)
  | cs => (cs.takeWhile Char.isDigit, cs.dropWhile Char.isDigit)

/-- The number that a text writes with a minus sign or none and without a needless zero. A number
too long is noticed before anything that follows it. -/
def strict (cs : List Char) : Except Fault Int :=
  let (negative, unsigned) := match cs with
    | '-' :: rest => (true, rest)
    | _ => (false, cs)
  let (digits, rest) := strictDigits unsigned
  if digits.length > digitLimit then .error (.tooLong digits.length)
  else if digits.isEmpty || !rest.isEmpty then .error .unreadable
  else .ok (ofDigits negative digits)

/-! ## The lenient reading -/

/-- What remains of a number after a leading zero, given the character read last: from the first
other digit or a minus sign on, or from the zero before a point on, or the last character. -/
def afterZeros (last : Char) : List Char → Option (List Char)
  | [] => some [last]
  | c :: rest =>
    if c = '0' ∨ c = '_' then afterZeros c rest
    else if c.isDigit ∨ c = '-' then some (c :: rest)
    else if c = '.' then some (last :: c :: rest)
    else none

/-- A number without its leading zeros; nothing if it does not begin with a digit. -/
def dropZeros : List Char → Option (List Char)
  | '0' :: rest => afterZeros '0' rest
  | c :: rest => if c.isDigit then some (c :: rest) else none
  | [] => none

/-- A number without its leading zeros, and without a plus sign before them. -/
def dropSignedZeros : List Char → Option (List Char)
  | '+' :: rest => dropZeros rest
  | '-' :: rest => (dropZeros rest).map ('-' :: ·)
  | cs => dropZeros cs

/-- A number without a fraction of zeros, of which there has to be one. -/
def dropFraction (cs : List Char) : List Char :=
  match cs.dropWhile (· ≠ '.') with
  | '.' :: '0' :: zeros => if zeros.all (· = '0') then cs.takeWhile (· ≠ '.') else cs
  | _ => cs

/-- A number without its underscores, if all of them are single and between other characters. -/
def dropUnderscores (cs : List Char) : List Char :=
  if cs.head? = some '_' ∨ cs.getLast? = some '_' ∨ ('_', '_') ∈ cs.zip cs.tail then cs
  else cs.filter (· ≠ '_')

/-- The plain spelling of a number, if it may have one. -/
def plain (cs : List Char) : Option (List Char) :=
  (dropSignedZeros (Text.trimBoth Text.isWhite cs)).map fun digits =>
    dropUnderscores (dropFraction digits)

/-- The number that a text writes for a field: strictly, or else in the plain spelling. A number
too long is told from an unreadable one only where it is strict. -/
def lenient (cs : List Char) : Except Fault Int :=
  match strict cs with
  | .error .unreadable =>
    match (plain cs).map strict with
    | some (.ok n) => .ok n
    | _ => .error .unreadable
  | answer => answer

/-! ## The reading of settings -/

/-- The digits of a number whose single underscores stand between digits, and what follows them.
`between` says whether an underscore may come next. -/
def groupedDigits (between : Bool) : List Char → Option (List Char × List Char)
  | [] => if between then some ([], []) else none
  | '_' :: rest => if between then groupedDigits false rest else none
  | c :: rest =>
    match Text.digitValue? c with
    | some d => (groupedDigits true rest).map fun (ds, rest) => (d.digitChar :: ds, rest)
    | none => if between then some ([], c :: rest) else none

/-- The number that a text writes for a setting. A number too long is noticed before anything
that follows it. -/
def setting (cs : List Char) : Except Fault Int :=
  let trimmed := Text.trimBoth Text.isWhite cs
  let (negative, unsigned) := match trimmed with
    | '-' :: rest => (true, rest)
    | '+' :: rest => (false, rest)
    | rest => (false, rest)
  match groupedDigits false unsigned with
  | none => .error .unreadable
  | some (digits, rest) =>
    if digits.length > digitLimit then .error (.tooLong digits.length)
    else if rest.isEmpty then .ok (ofDigits negative digits)
    else .error .unreadable

/-- The wording for a text that writes no number; a long text is cut off. -/
def unreadableMessage (s : String) : String :=
  "invalid literal for int() with base 10: " ++ String.ofList ((Text.quoted s).toList.take 200)

/-- The wording of a fault. -/
def Fault.message (s : String) : Fault → String
  | .unreadable => unreadableMessage s
  | .tooLong digits => tooLongMessage digits

end FungibleLedger.Integer
