/-!
# Scanning JSON

What a text shows when it is read from left to right as JSON. A scan keeps the members of an object in
order of appearance, repeated ones too, and has two further kinds of value: one that is sound JSON but
that no format here has a use for, and the gap where the text stops being JSON. Whoever reads a scan in
order meets a fault before the gap first, as a reader of the text would.
-/

namespace Mosaic

inductive Scan
  | null
  | bool (value : Bool)
  /-- A number without fraction and exponent. -/
  | int (value : Int)
  | str (value : String)
  /-- Any other number, `-0`, or a string with half a surrogate pair. -/
  | foreign
  | arr (items : List Scan)
  /-- A key with half a surrogate pair is `none`. -/
  | obj (members : List (Option String × Scan))
  /-- Here the text stops being JSON. -/
  | gap
deriving Inhabited

namespace Scan

mutual

/-- There is no gap in the value. -/
def intact : Scan → Bool
  | gap => false
  | arr items => intactItems items
  | obj members => intactMembers members
  | null | bool _ | int _ | str _ | foreign => true

def intactItems : List Scan → Bool
  | [] => true
  | item :: rest => item.intact && intactItems rest

def intactMembers : List (Option String × Scan) → Bool
  | [] => true
  | (_, value) :: rest => value.intact && intactMembers rest

end

/-! ### Blanks and numbers -/

def isBlank (c : Char) : Bool := c = ' ' || c = '\n' || c = '\t' || c = '\r'

def skipBlanks (cs : List Char) : List Char := cs.dropWhile isBlank

/-- Digits in front of a text, at least one, and what follows them. -/
def scanDigits (cs : List Char) : Option (List Char × List Char) :=
  match cs.takeWhile Char.isDigit with
  | [] => none
  | digits => some (digits, cs.dropWhile Char.isDigit)

/-- Whether a fraction comes first, and what follows it; a point needs a digit. -/
def scanFraction : List Char → Option (Bool × List Char)
  | '.' :: cs => (scanDigits cs).map fun (_, rest) => (true, rest)
  | cs => some (false, cs)

def skipSign : List Char → List Char
  | '+' :: cs => cs
  | '-' :: cs => cs
  | cs => cs

/-- Whether an exponent comes first, and what follows it; a letter needs a digit. -/
def scanExponent : List Char → Option (Bool × List Char)
  | c :: cs =>
    if c = 'e' || c = 'E' then (scanDigits (skipSign cs)).map fun (_, rest) => (true, rest)
    else some (false, c :: cs)
  | [] => some (false, [])

/-- A number without its sign: the digits before the point, whether anything comes after them, and the
rest. A zero in front stands alone. -/
def scanUnsigned (cs : List Char) : Option (List Char × Bool × List Char) := do
  let (digits, rest) ← scanDigits cs
  if digits.head? = some '0' ∧ 1 < digits.length then none
  else
    let (fraction, rest) ← scanFraction rest
    let (exponent, rest) ← scanExponent rest
    return (digits, fraction || exponent, rest)

def scanNumber : List Char → Option (Scan × List Char)
  | '-' :: cs => do
    let (digits, more, rest) ← scanUnsigned cs
    let n := Nat.ofDigitChars 10 digits 0
    return (if more || n = 0 then foreign else int (-n), rest)
  | cs => do
    let (digits, more, rest) ← scanUnsigned cs
    return (if more then foreign else int (Nat.ofDigitChars 10 digits 0), rest)

/-! ### Strings -/

def hexDigit? (c : Char) : Option Nat :=
  if '0' ≤ c ∧ c ≤ '9' then some (c.toNat - '0'.toNat)
  else if 'a' ≤ c ∧ c ≤ 'f' then some (c.toNat - 'a'.toNat + 10)
  else if 'A' ≤ c ∧ c ≤ 'F' then some (c.toNat - 'A'.toNat + 10)
  else none

def hexUnit? (a b c d : Char) : Option Nat := do
  return (← hexDigit? a) * 4096 + (← hexDigit? b) * 256 + (← hexDigit? c) * 16 + (← hexDigit? d)

/-- The first half of a surrogate pair. -/
def isHigh (unit : Nat) : Bool := 0xD800 ≤ unit && unit < 0xDC00

/-- The second half of a surrogate pair. -/
def isLow (unit : Nat) : Bool := 0xDC00 ≤ unit && unit < 0xE000

def ofPair (high low : Nat) : Char := Char.ofNat (0x10000 + (high - 0xD800) * 0x400 + (low - 0xDC00))

/-- The character of a short escape. -/
def shortEscape? (c : Char) : Option Char :=
  if c = '"' then some '"'
  else if c = '\\' then some '\\'
  else if c = '/' then some '/'
  else if c = 'b' then some '\x08'
  else if c = 'f' then some '\x0c'
  else if c = 'n' then some '\n'
  else if c = 'r' then some '\r'
  else if c = 't' then some '\t'
  else none

/-- What stands for itself in a string, or a unit of two bytes that is written `\uXXXX`. -/
inductive Piece
  | char (c : Char)
  | unit (n : Nat)

/-- The pieces of a string after its opening quotation mark, and the text after the closing one. -/
def scanPieces : List Char → Option (List Piece × List Char)
  | [] => none
  | '"' :: rest => some ([], rest)
  | '\\' :: 'u' :: a :: b :: c :: d :: rest => do
    let unit ← hexUnit? a b c d
    let (pieces, rest) ← scanPieces rest
    return (.unit unit :: pieces, rest)
  | '\\' :: c :: rest => do
    let c ← shortEscape? c
    let (pieces, rest) ← scanPieces rest
    return (.char c :: pieces, rest)
  | c :: rest =>
    if c.toNat < 32 then none
    else do
      let (pieces, rest) ← scanPieces rest
      return (.char c :: pieces, rest)

/-- The characters of pieces; half a surrogate pair stands for none. -/
def joinPieces : List Piece → Option (List Char)
  | [] => some []
  | .char c :: rest => (joinPieces rest).map (c :: ·)
  | .unit high :: .unit low :: rest =>
    if isHigh high then
      if isLow low then (joinPieces rest).map (ofPair high low :: ·) else none
    else if isLow high then none
    else (joinPieces (.unit low :: rest)).map (Char.ofNat high :: ·)
  | .unit n :: rest =>
    if isHigh n || isLow n then none else (joinPieces rest).map (Char.ofNat n :: ·)

/-- The string after an opening quotation mark, `none` if it holds half a surrogate pair, and the text
after the closing one. -/
def scanString (cs : List Char) : Option (Option String × List Char) :=
  (scanPieces cs).map fun (pieces, rest) => ((joinPieces pieces).map String.ofList, rest)

/-! ### Values -/

/-- What was scanned, and the text after it, which is `none` behind a gap. -/
abbrev Scanned (α : Type) := α × Option (List Char)

def Scanned.ofOption : Option (Scan × List Char) → Scanned Scan
  | some (value, rest) => (value, some rest)
  | none => (gap, none)

def ofString? (s : Option String) : Scan := (s.map str).getD foreign

mutual

/-- The value in front of a text. `fuel` bounds the brackets and separators met on the way; the length
of the text is enough. -/
def scanValue : (fuel : Nat) → List Char → Scanned Scan
  | 0, _ => (gap, none)
  | fuel + 1, cs =>
    match skipBlanks cs with
    | 'n' :: 'u' :: 'l' :: 'l' :: rest => (null, some rest)
    | 't' :: 'r' :: 'u' :: 'e' :: rest => (bool true, some rest)
    | 'f' :: 'a' :: 'l' :: 's' :: 'e' :: rest => (bool false, some rest)
    | '"' :: rest => .ofOption ((scanString rest).map fun (s, rest) => (ofString? s, rest))
    | '[' :: rest =>
      match skipBlanks rest with
      | ']' :: rest => (arr [], some rest)
      | rest => let (items, rest) := scanItems fuel rest; (arr items, rest)
    | '{' :: rest =>
      match skipBlanks rest with
      | '}' :: rest => (obj [], some rest)
      | rest => let (members, rest) := scanMembers fuel rest; (obj members, rest)
    | cs => .ofOption (scanNumber cs)

/-- The elements of an array up to its closing bracket, at least one. -/
def scanItems : (fuel : Nat) → List Char → Scanned (List Scan)
  | 0, _ => ([gap], none)
  | fuel + 1, cs =>
    match scanValue fuel cs with
    | (item, none) => ([item], none)
    | (item, some rest) =>
      match skipBlanks rest with
      | ']' :: rest => ([item], some rest)
      | ',' :: rest => let (items, rest) := scanItems fuel rest; (item :: items, rest)
      | _ => ([item, gap], none)

/-- The members of an object up to its closing brace, at least one. -/
def scanMembers : (fuel : Nat) → List Char → Scanned (List (Option String × Scan))
  | 0, _ => ([(none, gap)], none)
  | fuel + 1, cs =>
    match skipBlanks cs with
    | '"' :: rest =>
      match scanString rest with
      | none => ([(none, gap)], none)
      | some (key, rest) =>
        match skipBlanks rest with
        | ':' :: rest =>
          match scanValue fuel rest with
          | (value, none) => ([(key, value)], none)
          | (value, some rest) =>
            match skipBlanks rest with
            | '}' :: rest => ([(key, value)], some rest)
            | ',' :: rest =>
              let (members, rest) := scanMembers fuel rest
              ((key, value) :: members, rest)
            | _ => ([(key, value), (none, gap)], none)
        | _ => ([(key, gap)], none)
    | _ => ([(none, gap)], none)

end

/-- The value at the front of a text, and what follows it. -/
def ofText (text : String) : Scanned Scan :=
  let cs := text.toList
  scanValue (2 * cs.length + 1) cs

end Scan
end Mosaic
