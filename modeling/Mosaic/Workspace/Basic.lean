import Mosaic.Workspace.Path

/-!
# Workspaces

The operations on files and on the printed text that commands are made of.
-/

namespace Mosaic

class Workspace (m : Type → Type) where
  /-- Whether there is a file or a directory. -/
  present : Path → m Bool
  /-- The text of a file, if it can be read. -/
  readText? : Path → m (Option String)
  /-- Makes a directory and those it lies in, as far as they are missing; tells whether that worked. -/
  makeDirectories : Path → m Bool
  /-- Makes or replaces a file; tells whether that worked. -/
  writeText : Path → String → m Bool
  print : String → m Unit

end Mosaic
