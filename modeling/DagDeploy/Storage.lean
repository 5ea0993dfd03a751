import DagDeploy.Logged
import DagDeploy.Path
import DagDeploy.Yaml.Reader
import DagDeploy.Yaml.Shape

/-! What the program needs of a storage of files: it reads whole files, makes folders, and replaces
files. Each request answers whether it was done; what follows from that is the same everywhere. -/

namespace DagDeploy

class Storage (m : Type → Type) where
  /-- Nothing, where there is no file that can be read. -/
  contents? : String → m (Option ByteArray)
  contains : String → m Bool
  isFolder : String → m Bool
  /-- A new folder, in a folder that exists. -/
  makeFolder : String → m (Except Obstacle Unit)
  writeFile : String → ByteArray → m Bool
  /-- Writes the lines of the log, and stops where the outcome is a failure. -/
  report {α : Type} : Logged α → m α

namespace Storage

variable {m : Type → Type} [Monad m] [Storage m] {α : Type}

/-- A request that fails when it was not done. -/
def require (request : m Bool) (failure : Failure) : m Unit := do
  let done ← request
  report (if done then pure () else .fail failure)

def say (line : LogLine) : m Unit := report (.say line)

/-- A folder that is new or was there before. -/
def ensureFolder (path : String) : m Bool := do
  match ← makeFolder path with
  | .ok () => return true
  | .error _ => isFolder path

/-- A folder, made after those of the folders around it that are missing; these come nearest first. -/
def ensureWithin : List String → String → m Bool
  | [], path => ensureFolder path
  | around :: further, path => do
    match ← makeFolder path with
    | .ok () => return true
    | .error .blocked => isFolder path
    | .error .missing =>
      let present ← ensureWithin further around
      if present then ensureFolder path else return false

/-- The empty path stands for the folder that is there anyway. -/
def makeFolders (path : String) : m Bool :=
  if path.isEmpty then return true else ensureWithin (Path.ancestors path) path

end Storage

/-- The value in the contents of a document. -/
def decode {α : Type} (format : Yaml.Format α) (path : String)
    (contents : Option ByteArray) : Except Failure α :=
  match contents.bind String.fromUTF8? with
  | none => .error (.unreadable path)
  | some text =>
    match (Yaml.Document.read text).bind format.value? with
    | none => .error (.malformed path)
    | some value => .ok value

def load {m : Type → Type} [Monad m] [Storage m] {α : Type} (format : Yaml.Format α)
    (path : String) : m α := do
  Storage.report (.ofExcept (decode format path (← Storage.contents? path)))

end DagDeploy
