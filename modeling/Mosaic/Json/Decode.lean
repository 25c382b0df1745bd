import Mosaic.Failure
import Mosaic.Json.Basic
import Mosaic.Json.Scan

/-!
# Reading and writing values

A type with a JSON form gives its values as `Json` and reads them back from a `Scan`, from left to
right, so that the first fault of a text is the one reported. An object is read field by field in order
of appearance; a list of the fields in their own order may stand for it, and whether it is too long
shows after its elements have been read.
-/

namespace Mosaic

/-- Why a value is not read. -/
inductive ReadError
  /-- The text is not JSON, or not of the type wanted. -/
  | malformed
  /-- The rows of a grid are no grid. -/
  | grid (error : GridError)
deriving DecidableEq, Repr

abbrev Decoded (α : Type) := Except ReadError α

class JsonForm (α : Type) where
  toJson : α → Json
  ofScan : Scan → Decoded α

export JsonForm (toJson)

namespace Scan

variable {α σ : Type}

/-! ### Numbers, lists and options -/

def natBelow (bound : Nat) : Scan → Decoded Nat
  | int (.ofNat n) => if n < bound then .ok n else .error .malformed
  | _ => .error .malformed

def intWithin (low high : Int) : Scan → Decoded Int
  | int i => if low ≤ i ∧ i < high then .ok i else .error .malformed
  | _ => .error .malformed

def asString : Scan → Decoded String
  | str s => .ok s
  | _ => .error .malformed

/-- Elements read in order, up to the first fault. -/
def readItems (read : Scan → Decoded α) : List Scan → Decoded (List α)
  | [] => .ok []
  | item :: rest => do
    let a ← read item
    let as ← readItems read rest
    return a :: as

def asList (read : Scan → Decoded α) : Scan → Decoded (List α)
  | arr items => readItems read items
  | _ => .error .malformed

/-- `null` is no value. -/
def asOption (read : Scan → Decoded α) : Scan → Decoded (Option α)
  | null => .ok none
  | value => some <$> read value

/-! ### Records -/

/-- What a field does to a draft of a record; a name that the record does not have gives none. -/
abbrev Fields (σ : Type) := String → Option (Scan → σ → Decoded σ)

/-- A field that must not have been read before. -/
def once (seen : σ → Option α) (read : Scan → Decoded α) (put : α → σ → σ) (value : Scan)
    (draft : σ) : Decoded σ :=
  if (seen draft).isSome then .error .malformed
  else return put (← read value) draft

/-- A draft filled by members in order. What is not a field of the record is skipped. -/
def readMembers (fields : Fields σ) : List (Option String × Scan) → σ → Decoded σ
  | [], draft => .ok draft
  | (none, _) :: _, _ => .error .malformed
  | (some key, value) :: rest, draft =>
    match fields key with
    | some field => do readMembers fields rest (← field value draft)
    | none => if value.intact then readMembers fields rest draft else .error .malformed

/-- The value of a field that may not be missing. -/
def required (value : Option α) : Decoded α :=
  match value with
  | some a => .ok a
  | none => .error .malformed

/-! ### Records as lists -/

/-- The next element of a list, and the elements after it. -/
def element (read : Scan → Decoded α) : List Scan → Decoded (α × List Scan)
  | [] => .error .malformed
  | item :: rest => return (← read item, rest)

/-- An element that may be missing at the end of a list. -/
def elementOr (missing : α) (read : Scan → Decoded α) : List Scan → Decoded (α × List Scan)
  | [] => .ok (missing, [])
  | item :: rest => return (← read item, rest)

/-- A value that is complete once no element is left. -/
def complete (a : α) : List Scan → Decoded α
  | [] => .ok a
  | _ :: _ => .error .malformed

/-! ### Alternatives -/

/-- An alternative of a type by its name, with its data: a name alone, or an object of one member. -/
def alternative : Scan → Decoded (String × Option Scan)
  | str name => .ok (name, none)
  | obj [(some name, data)] => .ok (name, some data)
  | _ => .error .malformed

/-- The data of an alternative that has none. -/
def noData : Option Scan → Decoded Unit
  | none | some null => .ok ()
  | some _ => .error .malformed

/-- The data of an alternative. -/
def data (read : Scan → Decoded α) : Option Scan → Decoded α
  | some value => read value
  | none => .error .malformed

end Scan

/-! ### Texts -/

namespace Json

/-- The value of a text that holds nothing else but blanks. -/
def decode (α : Type) [JsonForm α] (text : String) : Decoded α :=
  let (value, rest) := Scan.ofText text
  match (JsonForm.ofScan value : Decoded α), rest with
  | .error e, _ => .error e
  | .ok a, some rest => if rest.all Scan.isBlank then .ok a else .error .malformed
  | .ok _, none => .error .malformed

end Json
end Mosaic
