import FungibleLedger.Bytes
import FungibleLedger.Text.Quoted

/-!
# Reading UTF-8

`Utf8.decode` reads a byte string as text. What is not UTF-8 is refused with the place and the
kind of its first fault.

* `Utf8.locate` : the first fault of a byte string, found by walking over its well-formed part.
* `Utf8.Fault.message` : the wording of a fault.
-/

namespace FungibleLedger.Utf8

/-- What is wrong at a place that is not UTF-8. -/
inductive Reason
  | startByte
  | continuation
  | truncated
deriving DecidableEq

/-- The first place of a byte string that is not UTF-8: the bytes from `start` on, `length` of
them, of which `byte` is the first. -/
structure Fault where
  byte : UInt8
  start : Nat
  length : Nat
  reason : Reason
deriving DecidableEq

/-- The least and the greatest second byte after a first byte of three or four. -/
def secondRange (b : UInt8) : UInt8 × UInt8 :=
  if b = 0xE0 then (0xA0, 0xBF)
  else if b = 0xED then (0x80, 0x9F)
  else if b = 0xF0 then (0x90, 0xBF)
  else if b = 0xF4 then (0x80, 0x8F)
  else (0x80, 0xBF)

/-- How many bytes follow a first byte, if any character begins with it. -/
def tailLength? (b : UInt8) : Option Nat :=
  if b < 0x80 then some 0
  else if 0xC2 ≤ b ∧ b ≤ 0xDF then some 1
  else if 0xE0 ≤ b ∧ b ≤ 0xEF then some 2
  else if 0xF0 ≤ b ∧ b ≤ 0xF4 then some 3
  else none

/-- The bytes after a first byte, checked one by one: nothing if `wanted` of them continue the
character, and else how many do and why the next does not. -/
def faultyTail (range : UInt8 × UInt8) : (wanted : Nat) → Bytes → Option (Nat × Reason)
  | 0, _ => none
  | _ + 1, [] => some (0, .truncated)
  | wanted + 1, b :: rest =>
    if range.1 ≤ b ∧ b ≤ range.2 then
      (faultyTail (0x80, 0xBF) wanted rest).map fun (n, reason) => (n + 1, reason)
    else some (0, .continuation)

/-- The first fault of a byte string that begins at offset `start`. -/
def locate (start : Nat) : Bytes → Option Fault
  | [] => none
  | b :: rest =>
    match tailLength? b with
    | none => some ⟨b, start, 1, .startByte⟩
    | some wanted =>
      match faultyTail (secondRange b) wanted rest with
      | some (good, reason) => some ⟨b, start, good + 1, reason⟩
      | none => locate (start + wanted + 1) (rest.drop wanted)
termination_by bytes => bytes.length
decreasing_by simp only [List.length_drop, List.length_cons]; omega

/-- The text that a byte string encodes. -/
def decode (bytes : Bytes) : Except Fault String :=
  match String.fromUTF8? ⟨bytes.toArray⟩ with
  | some s => .ok s
  | none => .error ((locate 0 bytes).getD ⟨0, 0, 1, .startByte⟩)

/-- The wording of a reason. -/
def Reason.message : Reason → String
  | .startByte => "invalid start byte"
  | .continuation => "invalid continuation byte"
  | .truncated => "unexpected end of data"

/-- The wording of a fault. -/
def Fault.message (f : Fault) : String :=
  let place :=
    if f.length = 1 then
      s!"byte 0x{String.ofList (Text.Quoted.hex 2 f.byte.toNat)} in position {f.start}"
    else s!"bytes in position {f.start}-{f.start + f.length - 1}"
  s!"'utf-8' codec can't decode {place}: {f.reason.message}"

end FungibleLedger.Utf8
