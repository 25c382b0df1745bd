import Mosaic.Grid.Basic
import Mosaic.Json.Decode

/-!
# Grids as JSON

A grid is a list of rows, each a list of bytes. Every element is read before the rows are examined.
-/

namespace Mosaic

/-- A byte as a number. -/
instance : JsonForm UInt8 where
  toJson n := .int n.toNat
  ofScan value := UInt8.ofNat <$> value.natBelow 256

instance : JsonForm Int8 where
  toJson n := .int n.toInt
  ofScan value := Int8.ofInt <$> value.intWithin (-128) 128

instance {α : Type} [JsonForm α] : JsonForm (List α) where
  toJson as := .arr (as.map toJson)
  ofScan := Scan.asList JsonForm.ofScan

instance {α : Type} [JsonForm α] : JsonForm (Option α) where
  toJson
    | none => .null
    | some a => toJson a
  ofScan := Scan.asOption JsonForm.ofScan

instance : JsonForm Grid where
  toJson g := toJson g.toRows
  ofScan value := do
    let rows ← (JsonForm.ofScan value : Decoded (List (List Color)))
    match Grid.ofRows rows with
    | .ok g => return g
    | .error e => throw (.grid e)

end Mosaic
