import DagDeploy.Disk
import DagDeploy.Storage

/-! A disk as a storage. What was done before a failure remains done. -/

namespace DagDeploy

def Storing (α : Type) : Type := Disk → Disk × Logged α

namespace Storing

variable {α β : Type}

def bind (first : Storing α) (next : α → Storing β) : Storing β := fun disk =>
  let (disk, report) := first disk
  match report.outcome with
  | .error failure => (disk, ⟨report.lines, .error failure⟩)
  | .ok value =>
    let (disk, further) := next value disk
    (disk, ⟨report.lines ++ further.lines, further.outcome⟩)

instance : Monad Storing where
  pure value := fun disk => (disk, pure value)
  bind := bind

def ask (question : Disk → α) : Storing α := fun disk => (disk, pure (question disk))

def makeFolder (path : String) : Storing (Except Obstacle Unit) := fun disk =>
  match disk.makeFolder path with
  | .ok grown => (grown, pure (.ok ()))
  | .error obstacle => (disk, pure (.error obstacle))

def writeFile (path : String) (contents : ByteArray) : Storing Bool := fun disk =>
  match disk.writeFile path contents with
  | some changed => (changed, pure true)
  | none => (disk, pure false)

instance : Storage Storing where
  contents? path := ask (·.fileAt? path)
  contains path := ask (·.contains path)
  isFolder path := ask (·.hasFolder path)
  makeFolder := makeFolder
  writeFile := writeFile
  report logged := fun disk => (disk, logged)

end Storing

end DagDeploy
