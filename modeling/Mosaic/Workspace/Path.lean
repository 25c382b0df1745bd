/-!
# Paths

A path is the text that names a file or a directory, its parts apart by slashes. Empty parts and parts
that are a single point say nothing, except for a point in front; neither the parent nor the name of a
path takes notice of them.
-/

namespace Mosaic

structure Path where
  text : String
deriving DecidableEq, Repr

namespace Path

/-- The parts of a text between slashes, as written; there is at least one. -/
def split : List Char → List (List Char)
  | [] => [[]]
  | c :: cs =>
    if c = '/' then [] :: split cs
    else
      match split cs with
      | [] => [[c]]
      | part :: rest => (c :: part) :: rest

def parts (p : Path) : List (List Char) := split p.text.toList

/-- The part stays where it is. -/
def isIdle (part : List Char) : Bool := part = [] || part = ['.']

/-- A list of parts from the last to the first, without the idle ones in front of it, the first part
kept. -/
def skipIdle : List (List Char) → List (List Char)
  | [] => []
  | [first] => [first]
  | part :: rest => if isIdle part then skipIdle rest else part :: rest

def isAbsolute (p : Path) : Bool := p.text.toList.head? = some '/'

/-- The path of the directory that holds this one; the root and the empty path have none. -/
def parent? (p : Path) : Option Path :=
  match skipIdle p.parts.reverse with
  | [] | [[]] => none
  | [_] => some ⟨""⟩
  | _ :: rest =>
    match skipIdle rest with
    | [[]] => some ⟨"/"⟩
    | kept => some ⟨String.ofList (['/'].intercalate kept.reverse)⟩

/-- The last part, unless it only moves among directories. -/
def name? (p : Path) : Option (List Char) :=
  match skipIdle p.parts.reverse with
  | [] => none
  | part :: _ => if isIdle part || part = ['.', '.'] then none else some part

/-- A name up to its last point, if something stands before that. -/
def stemOf (name : List Char) : List Char :=
  match name.reverse.dropWhile (· ≠ '.') with
  | [] | [_] => name
  | _ :: before => before.reverse

/-- The name without its extension. -/
def stem? (p : Path) : Option String := p.name?.map fun name => String.ofList (stemOf name)

/-- The path `q` as seen from the directory `p`. -/
def join (p q : Path) : Path :=
  if q.isAbsolute then q
  else
    match p.text.toList.getLast? with
    | none | some '/' => ⟨p.text ++ q.text⟩
    | some _ => ⟨p.text ++ "/" ++ q.text⟩

end Path
end Mosaic
