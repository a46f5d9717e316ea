import FungibleLedger.Text.Quoted

/-!
# Whole and broken texts

A text that is written with escapes may hold half of a surrogate pair without the other half. Such
a broken text is no `String` and has no UTF-8 form; it is kept as its code points.

* `AnyText` : a text, whole or broken.
* `AnyText.ofUnits` : the text of a sequence of code units; `ofUnits_map_toNat` says that it is
  whole for the code points of characters.
* `AnyText.Halves` : the first halves in a broken text, at which its encoding stops.
-/

namespace FungibleLedger

/-- A text, or the code points of one that holds half of a surrogate pair. -/
inductive AnyText
  | whole (s : String)
  | broken (codes : List Nat)
deriving DecidableEq

namespace AnyText

instance : Coe String AnyText := ⟨.whole⟩

/-- The text as a `String`, if it is whole. -/
def whole? : AnyText → Option String
  | .whole s => some s
  | .broken _ => none

/-- A text between quotes. -/
def quoted : AnyText → String
  | .whole s => Text.quoted s
  | .broken codes => Text.quotedCodes codes

/-! ## Surrogate pairs -/

/-- Whether a code unit is the first half of a pair. -/
def isHighHalf (code : Nat) : Bool := 0xD800 ≤ code && code < 0xDC00

/-- Whether a code unit is the second half of a pair. -/
def isLowHalf (code : Nat) : Bool := 0xDC00 ≤ code && code < 0xE000

/-- Whether a code unit is either half of a pair. -/
def isHalf (code : Nat) : Bool := isHighHalf code || isLowHalf code

/-- Code units with each surrogate pair joined to one code point. -/
def joinPairs : List Nat → List Nat
  | high :: low :: rest =>
    if isHighHalf high && isLowHalf low then
      (0x10000 + (high - 0xD800) * 0x400 + (low - 0xDC00)) :: joinPairs rest
    else high :: joinPairs (low :: rest)
  | codes => codes

/-- The text of a sequence of code units. -/
def ofUnits (units : List Nat) : AnyText :=
  let codes := joinPairs units
  if codes.any isHalf then .broken codes else .whole (String.ofList (codes.map Char.ofNat))

theorem isHalf_toNat (c : Char) : isHalf c.toNat = false := by
  have h : c.toNat < 0xD800 ∨ 0xE000 ≤ c.toNat := by
    rcases c.valid with h | ⟨h, -⟩
    · exact .inl h
    · exact .inr h
  simp only [isHalf, isHighHalf, isLowHalf, Bool.or_eq_false_iff, Bool.and_eq_false_iff,
    decide_eq_false_iff_not]
  omega

theorem joinPairs_eq_self {codes : List Nat} (h : codes.all (!isHalf ·)) :
    joinPairs codes = codes := by
  fun_induction joinPairs codes with
  | case1 high low rest hpair => simp_all [isHalf]
  | case2 high low rest _ ih => simp_all
  | case3 => rfl

theorem ofUnits_map_toNat (s : String) : ofUnits (s.toList.map Char.toNat) = .whole s := by
  rw [ofUnits, joinPairs_eq_self (by simp [isHalf_toNat])]
  simp [isHalf_toNat, Function.comp_def]

/-! ## Halves without their other half -/

/-- Halves of pairs that follow each other in a text: how many code points come before them, the
first of them, and how many they are. -/
structure Halves where
  start : Nat
  first : Nat
  count : Nat
deriving DecidableEq

/-- The first halves among code points. -/
def Halves.ofCodes (codes : List Nat) : Halves :=
  let halves := codes.dropWhile (!isHalf ·)
  ⟨(codes.takeWhile (!isHalf ·)).length, halves.headD 0, (halves.takeWhile isHalf).length⟩

/-- The wording for halves that cannot be encoded. -/
def Halves.message (h : Halves) : String :=
  let place :=
    if h.count = 1 then
      "character '\\u" ++ String.ofList (Text.Quoted.hex 4 h.first) ++ s!"' in position {h.start}"
    else s!"characters in position {h.start}-{h.start + h.count - 1}"
  s!"'utf-8' codec can't encode {place}: surrogates not allowed"

end AnyText

end FungibleLedger
