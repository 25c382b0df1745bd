import Mosaic.Command.Run

/-!
# The program

The commands on the real files. A failure ends the program with status 1, a command line that cannot
be carried out with status 2. No clock is read: a time limit is reached only if it is zero.
-/

namespace Mosaic

/-- Whether an action goes through. -/
def succeeds (action : IO Unit) : IO Bool := do
  try
    action
    return true
  catch _ => return false

instance : Workspace IO where
  present p := succeeds (discard (IO.FS.realPath p.text))
  readText? p := do
    try return some (← IO.FS.readFile p.text) catch _ => return none
  makeDirectories p :=
    if p.text.isEmpty then return true else succeeds (IO.FS.createDirAll p.text)
  writeText p text := succeeds (IO.FS.writeFile p.text text)
  print := IO.print

/-- The user's directory for caches, if there is one. -/
def cacheDirectory? : IO (Option Path) := do
  let home := (← IO.getEnv "HOME").filter (!·.isEmpty)
  let given := (← IO.getEnv "XDG_CACHE_HOME").map Path.mk
  return given.filter (·.isAbsolute) <|> home.map fun dir => Path.join ⟨dir⟩ ⟨".cache"⟩

def usage : String :=
  "usage: [-v] [--catalog standard|legacy] [--max-candidates N] [--time-limit SECONDS]\n" ++
  "       [--cache-file FILE] [--no-persist] COMMAND\n" ++
  "commands: detect TASK...\n" ++
  "          solve TASK... [-o FILE | --submit]\n" ++
  "          catalog\n"

end Mosaic

open Mosaic in
def main (words : List String) : IO UInt32 := do
  match Arguments.parse words with
  | .error .displayHelp | .error .displayVersion => IO.print usage; return 0
  | .error _ => IO.eprint usage; return 2
  | .ok args =>
    let assigned ← Settings.variableNames.mapM fun name => return (name, ← IO.getEnv name)
    let env name := (assigned.lookup name).join
    let cacheFile := (← cacheDirectory?).map Settings.cacheFileIn
    let settings := (Settings.detect env cacheFile).withArguments args
    match ← (Command.run (m := IO) settings .never args.command).run with
    | .ok () => return 0
    | .error failure => IO.eprintln s!"error: {failure.message}"; return 1
