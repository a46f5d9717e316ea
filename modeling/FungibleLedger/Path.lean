/-!
# Paths

A path is a root, if it has one, and the names below it. Empty names and single dots are dropped
when a path is read; double dots are kept.

* `Path.ofString`, `Path.toString` : reading and writing.
* `Path.parent`, `Path.join` : the directory above, and a path below.
* `expandHome` : a text with a leading tilde replaced by a home directory.
-/

namespace FungibleLedger

/-- A path: how many slashes its root has, none, one or two, and its names. -/
structure Path where
  slashes : Nat
  names : List String
deriving DecidableEq

namespace Path

/-- The pieces of a text between slashes; `piece` is the present one, last character first. -/
def pieces (piece : List Char) : List Char → List String
  | [] => [String.ofList piece.reverse]
  | c :: rest =>
    if c = '/' then String.ofList piece.reverse :: pieces [] rest else pieces (c :: piece) rest

/-- The path that a text writes. Exactly two slashes at its start are a root of their own. -/
def ofString (s : String) : Path :=
  let cs := s.toList
  let leading := (cs.takeWhile (· == '/')).length
  ⟨if leading = 2 then 2 else min leading 1,
    (pieces [] cs).filter fun name => name ≠ "" ∧ name ≠ "."⟩

/-- The text of a path; the path without root and names is a dot. -/
def toString (p : Path) : String :=
  if p.slashes = 0 ∧ p.names.isEmpty then "."
  else String.ofList (List.replicate p.slashes '/') ++ "/".intercalate p.names

/-- The wording for a name with a null character. -/
def nullMessage : String := "embedded null byte"

/-- Whether a path has a null character, with which no file can be named. -/
def hasNull (p : Path) : Bool :=
  p.names.any fun name => name.toList.contains '\x00'

/-- The directory above; a root and the empty path are their own. -/
def parent (p : Path) : Path :=
  { p with names := p.names.dropLast }

/-- A path below another, unless it has a root itself. -/
def join (p q : Path) : Path :=
  if q.slashes = 0 then { p with names := p.names ++ q.names } else q

end Path

/-- The home directories of a system: one's own, and those of the users that it knows by name. -/
structure Homes where
  own : String
  users : List (String × String)
deriving DecidableEq

/-- Why a user cannot be looked up. -/
inductive UserFault
  | nullCharacter
deriving DecidableEq

/-- The wording of a fault. -/
def UserFault.message : UserFault → String
  | .nullCharacter => Path.nullMessage

/-- The home directory of a user, where the empty name is one's own. An unknown user has none, and
there is no looking up a name with a null character. -/
def Homes.of (homes : Homes) (name : String) : Except UserFault (Option String) :=
  if name = "" then .ok homes.own
  else if name.toList.contains '\x00' then .error .nullCharacter
  else .ok (homes.users.lookup name)

/-- A text with a tilde and a user's name at its start replaced by a home directory, if the user
has one. -/
def expandHome (homes : Homes) (s : String) : Except UserFault String :=
  match s.toList with
  | '~' :: rest =>
    (homes.of (String.ofList (rest.takeWhile (· ≠ '/')))).map fun
      | none => s
      | some home =>
        let trimmed := (home.toList.reverse.dropWhile (· == '/')).reverse
        match trimmed ++ rest.dropWhile (· ≠ '/') with
        | [] => "/"
        | cs => String.ofList cs
  | _ => .ok s

end FungibleLedger
