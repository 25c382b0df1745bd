import Mosaic.Candidate
import Mosaic.Register

/-!
# Solutions

The candidates found for tasks, by the ids of the tasks.
-/

namespace Mosaic

abbrev Solutions := Register Candidate

end Mosaic
