import Mosaic.Stage.Preprocess
import Mosaic.Stage.Query
import Mosaic.Stage.Transform

/-!
# Candidates

A candidate is one operation from each stage. Candidates are ordered by preprocessing, then by
transform, then by query, and each of these by the position of the operation among its kind, then by
its data.
-/

namespace Mosaic

structure Candidate where
  preprocess : Preprocess
  transform : Transform
  query : Query
deriving DecidableEq, Repr

namespace Candidate

def text (c : Candidate) : String :=
  s!"{c.preprocess.text} | {c.transform.text} | {c.query.text}"

instance : Ord Candidate :=
  ⟨fun c d => (compare c.preprocess d.preprocess).then
    ((compare c.transform d.transform).then (compare c.query d.query))⟩

end Candidate
end Mosaic
