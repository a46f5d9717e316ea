/-!
# Terminal styling

Escape sequences that style a terminal are left out of text that goes elsewhere: the escape
character, a bracket, any parameters and a closing letter.

* `Text.unstyled` : a text without such sequences.
-/

namespace FungibleLedger.Text

namespace Styling

/-- The character that opens a sequence. -/
def escape : Char := Char.ofNat 0x1B

/-- Whether a character is part of the parameters of a sequence. -/
def isParameter (c : Char) : Bool :=
  c.isDigit || c == ';' || c == '?'

/-- What follows a sequence of which the escape character is gone, if it is one. -/
def afterSequence? : List Char → Option (List Char)
  | '[' :: cs =>
    match cs.dropWhile isParameter with
    | c :: rest => if c.isAlpha then some rest else none
    | [] => none
  | _ => none

/-- Characters without sequences; `fuel` is at least their number. -/
def strip : (fuel : Nat) → List Char → List Char
  | 0, cs => cs
  | _, [] => []
  | fuel + 1, c :: rest =>
    match (if c = escape then afterSequence? rest else none) with
    | some rest => strip fuel rest
    | none => c :: strip fuel rest

end Styling

/-- A text without styling sequences. -/
def unstyled (s : String) : String :=
  String.ofList (Styling.strip s.toList.length s.toList)

end FungibleLedger.Text
