import FungibleLedger.Json.Reader

/-!
# JSON files

* `Json.ofFile` : the value that the bytes of a file write.
* `Json.FileError` : why there is none.
-/

namespace FungibleLedger.Json

/-- The lines of a text ended alike: each carriage return, with a line feed after it or without,
becomes a line feed. -/
def joinLines : List Char → List Char
  | '\r' :: '\n' :: rest => '\n' :: joinLines rest
  | '\r' :: rest => '\n' :: joinLines rest
  | c :: rest => c :: joinLines rest
  | [] => []

/-- Why a file holds no value. -/
inductive FileError
  | undecodable (fault : Utf8.Fault)
  | invalid (e : ReadError)
deriving DecidableEq

/-- The wording of a file error. -/
def FileError.message : FileError → String
  | .undecodable fault => fault.message
  | .invalid e => e.message

/-- The value that a file writes, with containers that nest to a depth at most. -/
def ofFile (depth : Nat) (bytes : Bytes) : Except FileError Json :=
  match Utf8.decode bytes with
  | .error fault => .error (.undecodable fault)
  | .ok s => (read (.file depth) (joinLines s.toList)).mapError .invalid

end FungibleLedger.Json
