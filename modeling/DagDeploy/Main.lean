import DagDeploy.Program

/-! The program on the files of the system. Log lines go to the standard error output, except those
about single tasks. -/

namespace DagDeploy.Main

open CommandLine (Refusal)

def usage : String :=
  "Usage: dagdeploy [-n COUNT] [-S SECONDS] [-t FILE] IN_YAML SOL_YAML OUTDIR\n\n"
    ++ "Converts the model of a set of dags and the placement of its tasks into one runtime\n"
    ++ "descriptor per dag.\n\n"
    ++ "  -n, --num-iters COUNT      executions of each dag (10)\n"
    ++ "  -S, --min-seconds SECONDS  the least time to execute for (0)\n"
    ++ "  -t, --tables FILE          catalogue of task kinds and kernels\n"
    ++ "  -h, --help                 this text\n"
    ++ "  -V, --version              the version"

def version : String := "dagdeploy 1.0"

def printLine (line : LogLine) : IO Unit :=
  if line.level = .debug then pure () else IO.eprintln line.render

def succeeds (action : IO Unit) : IO Bool := do
  try
    action
    return true
  catch _ => return false

def contents? (path : String) : IO (Option ByteArray) := do
  try
    return some (← IO.FS.readBinFile path)
  catch _ => return none

def makeFolder (path : String) : IO (Except Obstacle Unit) := do
  try
    IO.FS.createDir path
    return .ok ()
  catch
    | .noFileOrDirectory .. => return .error .missing
    | _ => return .error .blocked

/-- Nothing has the empty path. -/
def contains (path : String) : IO Bool := do
  if path.isEmpty then return false else ((← IO.currentDir) / path).pathExists

def isFolder (path : String) : IO Bool := do
  if path.isEmpty then return false else ((← IO.currentDir) / path).isDir

instance : Storage (ExceptT Failure IO) where
  contents? path := contents? path
  contains path := contains path
  isFolder path := isFolder path
  makeFolder path := makeFolder path
  writeFile path contents := succeeds (IO.FS.writeBinFile path contents)
  report logged := ExceptT.mk do
    logged.lines.forM printLine
    return logged.outcome

def refuse (refusal : Refusal) : IO UInt32 := do
  match refusal with
  | .displayHelp => IO.println usage
  | .displayVersion => IO.println version
  | _ => IO.eprintln s!"error: {refusal.name}\n\n{usage}"
  return refusal.exitCode.toUInt32

end DagDeploy.Main

open DagDeploy in
def main (arguments : List String) : IO UInt32 := do
  match CommandLine.parse arguments with
  | .error refusal => Main.refuse refusal
  | .ok accepted =>
    match ← (run accepted : ExceptT Failure IO Nat).run with
    | .ok count =>
      IO.eprintln s!"INFO Generated {count} rt-dag files in {accepted.folder}"
      return 0
    | .error failure =>
      IO.eprintln s!"ERROR {failure.message}"
      return failure.exitCode.toUInt32
