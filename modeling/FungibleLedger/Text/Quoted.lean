import FungibleLedger.Text.Printable

/-!
# Quoted text

How a text is shown inside a message: between quotes, with a backslash escape for each character
that is not printable.

* `Text.Quoted.mark` : the quote, single unless the text holds a single one and no double one.
* `Text.quoted` : a text between its quotes.
-/

namespace FungibleLedger.Text

namespace Quoted

/-- The lower-case hexadecimal form of a number, padded with zeros to a width. -/
def hex (width n : Nat) : List Char :=
  let digits := Nat.toDigits 16 n
  List.replicate (width - digits.length) '0' ++ digits

/-- The quote that encloses a text: single, unless the text holds a single one and no double one. -/
def mark (codes : List Nat) : Char :=
  if codes.contains '\''.toNat && !codes.contains '"'.toNat then '"' else '\''

/-- One code point between quotes. -/
def escape (quote : Char) (code : Nat) : List Char :=
  if code = quote.toNat ∨ code = '\\'.toNat then ['\\', Char.ofNat code]
  else if code = '\t'.toNat then ['\\', 't']
  else if code = '\n'.toNat then ['\\', 'n']
  else if code = '\r'.toNat then ['\\', 'r']
  else if isPrintable code then [Char.ofNat code]
  else if code ≤ 0xFF then '\\' :: 'x' :: hex 2 code
  else if code ≤ 0xFFFF then '\\' :: 'u' :: hex 4 code
  else '\\' :: 'U' :: hex 8 code

end Quoted

/-- A sequence of code points, which may hold half of a surrogate pair, between quotes. -/
def quotedCodes (codes : List Nat) : String :=
  let quote := Quoted.mark codes
  String.ofList (quote :: codes.flatMap (Quoted.escape quote) ++ [quote])

/-- A text between quotes. -/
def quoted (s : String) : String :=
  quotedCodes (s.toList.map Char.toNat)

end FungibleLedger.Text
