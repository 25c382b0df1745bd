import Mosaic.Candidate

/-!
# Catalogs

A catalog lists for each stage the operations that a search draws from, each with the ordered domain
of its data. An operation without data has one value. The legacy catalog inverts by any color source
and has fewer queries.
-/

namespace Mosaic

inductive CatalogVariant
  | standard
  | legacy
deriving DecidableEq, Repr

namespace CatalogVariant

def text : CatalogVariant → String
  | standard => "standard"
  | legacy => "legacy"

end CatalogVariant

/-- One named operation with the values it may take. -/
structure CatalogEntry (α : Type) where
  name : String
  domain : List α

namespace CatalogEntry

variable {α : Type}

/-- All values of the entries, in order. -/
def values (entries : List (CatalogEntry α)) : List α := entries.flatMap (·.domain)

end CatalogEntry

structure Catalog where
  variant : CatalogVariant
  preprocess : List (CatalogEntry Preprocess)
  transform : List (CatalogEntry Transform)
  query : List (CatalogEntry Query)

namespace Catalog

def preprocessEntries : List (CatalogEntry Preprocess) := [
  ⟨"identity", [.identity]⟩,
  ⟨"crop_inner", [0, 1, 2, 3, 4, 5, 6, 7, 8].map .cropInner⟩,
  ⟨"crop_outer", [0, 1, 2, 3, 4, 5, 6, 7, 8].map .cropOuter⟩]

/-- The phases at which a turning sequence may start. -/
def turningStarts : List Int8 := [-4, -3, -2, -1, 0, 1, 2, 3]

/-- The phases at which a flipping sequence may start. -/
def flippingStarts : List UInt8 := [0, 1]

/-- The transforms that both catalogs have. -/
def commonTransformEntries : List (CatalogEntry Transform) := [
  ⟨"none", [.identity]⟩,
  ⟨"flip", [.flip .rows, .flip .cols]⟩,
  ⟨"rot90", [.rot90 1, .rot90 2, .rot90 3]⟩,
  ⟨"roll", [.roll (-1) .rows, .roll (-1) .cols, .roll 1 .rows, .roll 1 .cols]⟩,
  ⟨"swapaxes", [.swapAxes]⟩,
  ⟨"rotate_loop", turningStarts.map .rotateLoop⟩,
  ⟨"rotate_loop_rows", turningStarts.map .rotateLoopRows⟩,
  ⟨"rotate_loop_cols", turningStarts.map .rotateLoopCols⟩,
  ⟨"flip_loop", flippingStarts.map .flipLoop⟩,
  ⟨"flip_loop_rows", flippingStarts.map .flipLoopRows⟩,
  ⟨"flip_loop_cols", flippingStarts.map .flipLoopCols⟩]

/-- The color sources of the legacy catalog. -/
def colorSources : List ColorSource :=
  [.maxColor, .minColor, .maxColor1d, .countColors, .countSquares] ++
    [1, 2, 3, 4, 5, 6, 7, 8].map .fixed

def transformEntries : CatalogVariant → List (CatalogEntry Transform)
  | .standard => commonTransformEntries ++ [⟨"grid_invert_color", [.invertColor]⟩]
  | .legacy => commonTransformEntries ++ [⟨"invert", colorSources.map .invert⟩]

/-- The entry of a query without data. -/
def queryEntry (q : Query) : CatalogEntry Query := ⟨q.name, [q]⟩

/-- The queries on colors and counts that both catalogs have. -/
def commonQueryEntries : List (CatalogEntry Query) :=
  [.notZero, .maxColor, .minColor, .maxColor1d, .minColor1d, .countColors, .countColorsRow,
    .countColorsCol, .countSquares, .countSquaresRow, .countSquaresCol].map queryEntry ++
  [⟨"query_color", Color.palette.map .color⟩]

def queryEntries : CatalogVariant → List (CatalogEntry Query)
  | .standard =>
    [queryEntry .always, queryEntry .never] ++ commonQueryEntries ++ [
      queryEntry .periodLength0,
      queryEntry .periodLength1,
      ⟨"query_bincount", Color.palette.map .bincount⟩,
      ⟨"query_bincount_sorted", Color.palette.map .bincountSorted⟩,
      queryEntry .symmetry]
  | .legacy => queryEntry .always :: commonQueryEntries

def ofVariant (variant : CatalogVariant) : Catalog where
  variant
  preprocess := preprocessEntries
  transform := transformEntries variant
  query := queryEntries variant

/-- The number of candidates. -/
def candidateCount (c : Catalog) : Nat :=
  (CatalogEntry.values c.preprocess).length * (CatalogEntry.values c.transform).length *
    (CatalogEntry.values c.query).length

end Catalog
end Mosaic
