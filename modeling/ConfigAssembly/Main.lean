import ConfigAssembly.CommandLine.Run

/-!
# The program

Runs the command line on the files of the disk. Files are read when they are asked for: a run that
misses a file is made again with that file at hand, so the run itself stays a function of what it is
given.
-/

namespace ConfigAssembly.CommandLine

/-- Help for the user. -/
def usageText : String :=
  "usage: nodebuild [-h] [--version] -c CONFIG [-m MODULES] [--set KEY=VALUE]\n" ++
  "                 [--log-level LEVEL] [--strict]\n"

/-- Runs a command line, reading the files that it asks for. -/
partial def runOnDisk (w : World) (argv : List String) (tried : List String) : IO Run := do
  let run := run w argv
  match run.ending with
  | .failed (.load (.notFound path _)) =>
    if tried.contains path then pure run
    else
      try
        let text := Text.received (← IO.FS.readFile path)
        runOnDisk { w with files := w.files.add path text } argv (path :: tried)
      catch _ => pure run
  | _ => pure run

/-- A variable of the environment, written with an equals sign. -/
def assignment? (cs : List Char) : Option (String × String) :=
  if cs.contains '=' then
    some (String.ofList (cs.takeWhile (· != '=')), String.ofList ((cs.dropWhile (· != '=')).tail))
  else none

/-- The environment of the program, as far as it can be read. -/
def environment : IO (Assoc String String) := do
  try
    let text ← IO.FS.readFile "/proc/self/environ"
    pure ((Text.pieces (· == '\x00') (Text.received text).toList).filterMap assignment?)
  catch _ => pure []

/-- Runs a command line, prints what it reports, and gives its exit code. -/
def program (args : List String) : IO UInt32 := do
  let current := (FullPath.names (← IO.currentDir).toString).filter (!·.isEmpty)
  let run ← runOnDisk ⟨⟨current, [], []⟩, [], ← environment⟩ (args.map Text.received) []
  for r in run.report.log do
    IO.println (Text.sent r.message)
  for m in run.report.warnings do
    IO.eprintln (Text.sent m)
  IO.print run.ending.output
  match run.ending with
  | .help => IO.print usageText
  | .misuse => IO.eprint usageText
  | .failed e => IO.eprintln (Text.sent e.message)
  | _ => pure ()
  pure (UInt32.ofNat (run.ending.exitCode?.getD 1))

end ConfigAssembly.CommandLine

/-- Runs the command line. -/
def main (args : List String) : IO UInt32 := ConfigAssembly.CommandLine.program args
