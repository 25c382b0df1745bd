import Mosaic.Workspace.Basic

/-!
# File trees

Files and directories as a value, and the workspace that works on it from a current directory. A place
is the list of names from the root down to it; a path is followed part by part, and stops where a name
is missing or where something is looked for inside a file. Names and paths have a greatest length, and
none holds the null character.
-/

namespace Mosaic

abbrev Place := List String

structure FileTree where
  /-- The directories besides the root. -/
  directories : List Place
  files : List (Place × String)

namespace FileTree

def empty : FileTree := ⟨[], []⟩

def isDirectory (t : FileTree) (place : Place) : Bool := place.isEmpty || t.directories.contains place

def file? (t : FileTree) (place : Place) : Option String := t.files.lookup place

def withDirectory (t : FileTree) (place : Place) : FileTree :=
  { t with directories := place :: t.directories }

def withFile (t : FileTree) (place : Place) (text : String) : FileTree :=
  { t with files := (place, text) :: t.files.filter (·.1 ≠ place) }

/-- The greatest length of a name in bytes. -/
def nameLimit : Nat := 255

/-- The greatest length of a path in bytes. -/
def pathLimit : Nat := 4095

/-- The name is not too long to be given. -/
def fits (name : String) : Bool := name.utf8ByteSize ≤ nameLimit

/-- The path may be followed. -/
def isSound (p : Path) : Bool := p.text.utf8ByteSize ≤ pathLimit && !p.text.toList.contains '\x00'

/-- What a path leads to. -/
inductive Node
  | directory (place : Place)
  | file (text : String)

/-- Where a path starts from, and its parts. -/
def origin (current : Place) (p : Path) : Place := if p.isAbsolute then [] else current

/-- The node that parts lead to from a directory. -/
def follow? (t : FileTree) : (place : Place) → List (List Char) → Option Node
  | place, [] => some (.directory place)
  | place, part :: rest =>
    if Path.isIdle part then t.follow? place rest
    else if part = ['.', '.'] then t.follow? place.dropLast rest
    else
      let next := place ++ [String.ofList part]
      if t.isDirectory next then t.follow? next rest
      else if rest.isEmpty then (t.file? next).map .file
      else none

def node? (t : FileTree) (current : Place) (p : Path) : Option Node :=
  if p.text.isEmpty || !isSound p then none else t.follow? (origin current p) p.parts

/-- The tree with the directories that parts lead through, unless one of them is a file or cannot be
made. -/
def ensure? (t : FileTree) : (place : Place) → List (List Char) → Option FileTree
  | _, [] => some t
  | place, part :: rest =>
    if Path.isIdle part then t.ensure? place rest
    else if part = ['.', '.'] then t.ensure? place.dropLast rest
    else
      let next := place ++ [String.ofList part]
      if t.isDirectory next then t.ensure? next rest
      else if (t.file? next).isSome || !fits (String.ofList part) then none
      else (t.withDirectory next).ensure? next rest

/-- The tree with the directory of a path, and those it lies in. -/
def make? (t : FileTree) (current : Place) (p : Path) : Option FileTree :=
  if isSound p then t.ensure? (origin current p) p.parts else none

/-- The tree with a text under a path whose directory is there; a path that can only name a directory
is refused. -/
def write? (t : FileTree) (current : Place) (p : Path) (text : String) : Option FileTree :=
  match p.parts.getLast?.filter fun _ => isSound p with
  | none => none
  | some name =>
    if Path.isIdle name || name = ['.', '.'] || !fits (String.ofList name) then none
    else
      match t.follow? (origin current p) p.parts.dropLast with
      | some (.directory place) =>
        let next := place ++ [String.ofList name]
        if t.isDirectory next then none else some (t.withFile next text)
      | _ => none

end FileTree

/-- A file tree that is worked on from a current directory, and what has been printed. -/
structure Desk where
  tree : FileTree
  current : Place
  printed : String

namespace Desk

/-- Replaces the tree if there is a new one, and tells whether there was. -/
def commit (tree? : Option FileTree) : StateM Desk Bool :=
  match tree? with
  | some tree => do modify ({ · with tree }); return true
  | none => return false

instance : Workspace (StateM Desk) where
  present p := return ((← get).tree.node? (← get).current p).isSome
  readText? p := do
    match (← get).tree.node? (← get).current p with
    | some (.file text) => return some text
    | _ => return none
  makeDirectories p := do commit ((← get).tree.make? (← get).current p)
  writeText p text := do commit ((← get).tree.write? (← get).current p text)
  print text := modify fun d => { d with printed := d.printed ++ text }

end Desk
end Mosaic
