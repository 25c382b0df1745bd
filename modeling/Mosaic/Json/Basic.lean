/-!
# JSON values

The values that are written as JSON, and their two texts: `Json.compact` without any blank, and
`Json.indented` with two blanks a level and every element on a line of its own. A string escapes the
quotation mark, the backslash and the control characters, nothing else.
-/

namespace Mosaic

inductive Json
  | null
  | bool (value : Bool)
  | int (value : Int)
  | str (value : String)
  | arr (items : List Json)
  | obj (members : List (String × Json))
deriving Inhabited

namespace Json

/-- A character as it stands inside a string. -/
def escape (c : Char) : List Char :=
  if c = '"' then ['\\', '"']
  else if c = '\\' then ['\\', '\\']
  else if c = '\n' then ['\\', 'n']
  else if c = '\r' then ['\\', 'r']
  else if c = '\t' then ['\\', 't']
  else if c = '\x08' then ['\\', 'b']
  else if c = '\x0c' then ['\\', 'f']
  else if c.toNat < 32 then
    ['\\', 'u', '0', '0', Nat.digitChar (c.toNat / 16), Nat.digitChar (c.toNat % 16)]
  else [c]

def quoted (s : String) : List Char := '"' :: s.toList.flatMap escape ++ ['"']

def digits (i : Int) : List Char :=
  if i < 0 then '-' :: Nat.toDigits 10 i.natAbs else Nat.toDigits 10 i.natAbs

mutual

/-- The text without blanks. -/
def compact : Json → List Char
  | null => ['n', 'u', 'l', 'l']
  | bool true => ['t', 'r', 'u', 'e']
  | bool false => ['f', 'a', 'l', 's', 'e']
  | int i => digits i
  | str s => quoted s
  | arr items => '[' :: compactItems items
  | obj members => '{' :: compactMembers members

/-- Elements and the closing bracket. -/
def compactItems : List Json → List Char
  | [] => [']']
  | [item] => item.compact ++ [']']
  | item :: rest => item.compact ++ ',' :: compactItems rest

/-- Members and the closing brace. -/
def compactMembers : List (String × Json) → List Char
  | [] => ['}']
  | [(key, value)] => quoted key ++ ':' :: value.compact ++ ['}']
  | (key, value) :: rest => quoted key ++ ':' :: value.compact ++ ',' :: compactMembers rest

end

/-- A new line at a level. -/
def newLine (level : Nat) : List Char := '\n' :: List.replicate (2 * level) ' '

mutual

/-- The text on lines of their own, begun at a level. -/
def indented (level : Nat) : Json → List Char
  | null => ['n', 'u', 'l', 'l']
  | bool true => ['t', 'r', 'u', 'e']
  | bool false => ['f', 'a', 'l', 's', 'e']
  | int i => digits i
  | str s => quoted s
  | arr [] => ['[', ']']
  | arr (item :: rest) => '[' :: newLine (level + 1) ++ indentedItems level (item :: rest)
  | obj [] => ['{', '}']
  | obj (member :: rest) => '{' :: newLine (level + 1) ++ indentedMembers level (member :: rest)

/-- Elements and the closing bracket. -/
def indentedItems (level : Nat) : List Json → List Char
  | [] => newLine level ++ [']']
  | [item] => item.indented (level + 1) ++ newLine level ++ [']']
  | item :: rest =>
    item.indented (level + 1) ++ ',' :: newLine (level + 1) ++ indentedItems level rest

/-- Members and the closing brace. -/
def indentedMembers (level : Nat) : List (String × Json) → List Char
  | [] => newLine level ++ ['}']
  | [(key, value)] =>
    quoted key ++ ':' :: ' ' :: value.indented (level + 1) ++ newLine level ++ ['}']
  | (key, value) :: rest =>
    quoted key ++ ':' :: ' ' :: value.indented (level + 1) ++ ',' :: newLine (level + 1) ++
      indentedMembers level rest

end

def compactText (j : Json) : String := String.ofList j.compact

def indentedText (j : Json) : String := String.ofList (j.indented 0)

end Json
end Mosaic
