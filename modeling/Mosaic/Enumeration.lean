import Mosaic.Catalog

/-!
# Enumerations

The candidates of a catalog one after the other, like the figures of a counter: preprocessing varies
slowest and the query fastest, each in the order of its catalog. A place that runs past its last
operation goes back to the first one and carries into the place before it; when the first place runs
past its last operation the enumeration is done. How many candidates were given is counted besides.
-/

namespace Mosaic

structure Enumeration where
  preprocesses : Array Preprocess
  transforms : Array Transform
  queries : Array Query
  /-- The place of the next candidate in `preprocesses`. -/
  atPreprocess : Nat
  atTransform : Nat
  atQuery : Nat
  /-- How many candidates were given. -/
  emitted : Nat
  /-- No candidate is left. -/
  done : Bool

namespace Enumeration

/-- The number of all candidates. -/
def size (e : Enumeration) : Nat := e.preprocesses.size * e.transforms.size * e.queries.size

/-- The number of candidates before the next one, read off the places. -/
def taken (e : Enumeration) : Nat :=
  (e.atPreprocess * e.transforms.size + e.atTransform) * e.queries.size + e.atQuery

/-- The number of candidates not yet given. -/
def remaining (e : Enumeration) : Nat := if e.done then 0 else e.size - e.emitted

/-- Bounds of the number of candidates not yet given. -/
def sizeHint (e : Enumeration) : Nat × Option Nat := (e.remaining, some e.remaining)

/-- The candidate at the places. -/
def candidate? (e : Enumeration) : Option Candidate := do
  let preprocess ← e.preprocesses[e.atPreprocess]?
  let transform ← e.transforms[e.atTransform]?
  let query ← e.queries[e.atQuery]?
  return { preprocess, transform, query }

/-- The places moved on by one candidate. -/
def carry (e : Enumeration) : Enumeration :=
  if e.atQuery + 1 ≠ e.queries.size then { e with atQuery := e.atQuery + 1 }
  else if e.atTransform + 1 ≠ e.transforms.size then
    { e with atQuery := 0, atTransform := e.atTransform + 1 }
  else
    { e with
      atQuery := 0, atTransform := 0, atPreprocess := e.atPreprocess + 1
      done := e.done || e.atPreprocess + 1 == e.preprocesses.size }

/-- The enumeration moved on by one candidate. -/
def advance (e : Enumeration) : Enumeration := { e.carry with emitted := e.emitted + 1 }

/-- The next candidate, and the enumeration after it. -/
def next? (e : Enumeration) : Option (Candidate × Enumeration) :=
  if e.done then none else e.candidate?.map fun c => (c, e.advance)

/-- The enumeration with `n` more candidates taken, or all of them. -/
def drop (e : Enumeration) : Nat → Enumeration
  | 0 => e
  | n + 1 =>
    match e.next? with
    | none => e
    | some (_, rest) => rest.drop n

/-- The next `n` candidates, or as many as there are, and the enumeration after them. -/
def take (e : Enumeration) : Nat → List Candidate × Enumeration
  | 0 => ([], e)
  | n + 1 =>
    match e.next? with
    | none => ([], e)
    | some (c, rest) =>
      let (cs, rest) := rest.take n
      (c :: cs, rest)

end Enumeration

/-- All candidates of a catalog, none of them given. -/
def Catalog.enumeration (c : Catalog) : Enumeration :=
  let preprocesses := (CatalogEntry.values c.preprocess).toArray
  let transforms := (CatalogEntry.values c.transform).toArray
  let queries := (CatalogEntry.values c.query).toArray
  { preprocesses, transforms, queries
    atPreprocess := 0
    atTransform := 0
    atQuery := 0
    emitted := 0
    done := preprocesses.isEmpty || transforms.isEmpty || queries.isEmpty }

end Mosaic
