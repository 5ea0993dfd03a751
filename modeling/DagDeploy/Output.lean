import DagDeploy.Document.Descriptor
import DagDeploy.Storage

/-! Writing descriptors: one file per dag, named after it, in a folder that is made when it does not
exist. A file in place of the folder shows only when the first descriptor is written. -/

namespace DagDeploy

variable {m : Type → Type} [Monad m] [Storage m]

def makeFolder (folder : String) : m Unit := do
  Storage.require (Storage.makeFolders folder) (.unwritable folder)
  Storage.say (.createdFolder folder)

/-- The path of a new file in a folder that is made first. -/
def newFile (folder name : String) : m String := do
  let present ← Storage.contains folder
  if present then pure () else makeFolder folder
  return Path.join folder (name ++ ".yaml")

namespace Descriptor

def dump (folder : String) (descriptor : Descriptor) : m String := do
  let path ← newFile folder descriptor.name
  Storage.require (Storage.writeFile path descriptor.write.toUTF8) (.unwritable path)
  Storage.say (.wroteFile path)
  return path

/-- In the order of the list, up to the first failure. -/
def dumpAll (folder : String) : List Descriptor → m (List String)
  | [] => return []
  | descriptor :: rest => do
    let path ← descriptor.dump folder
    let paths ← dumpAll folder rest
    return path :: paths

end Descriptor

end DagDeploy
