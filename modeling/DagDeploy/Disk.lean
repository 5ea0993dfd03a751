import DagDeploy.FileTree
import DagDeploy.Path

/-! A tree of files with the folder in which the program works. A path starts from that folder, or
from the root of the tree if it starts with a slash. Every part of it but the last must lead to a
folder. New folders and files need a folder around them. -/

namespace DagDeploy

structure Disk where
  tree : FileTree
  home : List String
  home_isFolder : tree.isFolderAt home

namespace Disk

/-- A disk with nothing outside of the folder to work in. -/
def around (children : List (String × FileTree)) : Disk where
  tree := .folder [("home", .folder children)]
  home := ["home"]
  home_isFolder := rfl

/-- What the folder to work in holds at a place. -/
def view (disk : Disk) (place : List String) : Option (Option ByteArray) :=
  disk.tree.view (disk.home ++ place)

/-- All places in the folder to work in, with the contents of the files. -/
def listing (disk : Disk) : List (List String × Option ByteArray) :=
  ((disk.tree.at? disk.home).map (FileTree.listing [])).getD []

def origin (disk : Disk) (path : String) : List String :=
  if Path.isAbsolute path then [] else disk.home

/-- From a place on. The folder around the root is the root itself. -/
def follow (disk : Disk) : List String → List String → Except Obstacle (List String)
  | place, [] => .ok place
  | place, part :: rest =>
    if !disk.tree.isFolderAt place then .error .blocked
    else if Path.stays part then follow disk place rest
    else if Path.rises part then follow disk place.dropLast rest
    else if !Path.isName part then .error .blocked
    else if (disk.tree.view (place ++ [part])).isSome then follow disk (place ++ [part]) rest
    else .error .missing

/-- Nothing has the empty path. -/
def find? (disk : Disk) (path : String) : Option (Option ByteArray) :=
  if path.isEmpty || !Path.isValid path then none
  else
    match disk.follow (disk.origin path) (Path.parts path) with
    | .ok place => disk.tree.view place
    | .error _ => none

def contains (disk : Disk) (path : String) : Bool := (disk.find? path).isSome

def hasFolder (disk : Disk) (path : String) : Bool := (disk.find? path).any Option.isNone

def fileAt? (disk : Disk) (path : String) : Option ByteArray := (disk.find? path).bind id

/-- The place that the last of the parts names, in a folder to which the others lead; the parts come
in reverse. -/
def site (disk : Disk) (origin : List String) : List String → Except Obstacle (List String)
  | [] => .error .blocked
  | name :: front =>
    match disk.follow origin front.reverse with
    | .ok place =>
      if disk.tree.isFolderAt place && Path.isName name then .ok (place ++ [name])
      else .error .blocked
    | .error obstacle => .error obstacle

/-- Puts something at a place where no folder is, and where there is a folder around. -/
def plant (disk : Disk) (child : FileTree) (place : List String) : Option Disk :=
  if taken : disk.tree.isFolderAt place then none
  else
    match planted : FileTree.plant child place disk.tree with
    | none => none
    | some grown => some ⟨grown, disk.home, by
        have apart : ¬ place <+: disk.home := fun ⟨rest, joined⟩ =>
          taken (FileTree.isFolderAt_of_append (joined ▸ disk.home_isFolder))
        simpa [FileTree.isFolderAt, FileTree.view_plant planted, apart] using
          disk.home_isFolder⟩

/-- A new folder, whose path may end in slashes. -/
def makeFolder (disk : Disk) (path : String) : Except Obstacle Disk :=
  if !Path.isValid path then .error .blocked
  else
    match disk.site (disk.origin path) ((Path.parts path).reverse.dropWhile String.isEmpty) with
    | .ok place =>
      match disk.tree.view place, disk.plant .empty place with
      | none, some grown => .ok grown
      | _, _ => .error .blocked
    | .error obstacle => .error obstacle

/-- A file that is new, or has new contents. -/
def writeFile (disk : Disk) (path : String) (contents : ByteArray) : Option Disk :=
  if !Path.isValid path then none
  else
    match disk.site (disk.origin path) (Path.parts path).reverse with
    | .ok place => disk.plant (.file contents) place
    | .error _ => none

end Disk

end DagDeploy
