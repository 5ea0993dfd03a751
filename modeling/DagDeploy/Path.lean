/-! Paths as texts. The parts of a path are divided by slashes; an empty part or a single dot stays
where it is, two dots rise to the folder around, and a name leads on. -/

namespace DagDeploy

/-- Why a path leads nowhere: a name on it is not known, or something is in the way. -/
inductive Obstacle where
  | missing
  | blocked
  deriving DecidableEq, Repr

namespace Path

def splitSlashes : List Char → List (List Char)
  | [] => [[]]
  | c :: rest =>
    if c = '/' then [] :: splitSlashes rest
    else
      match splitSlashes rest with
      | [] => [[c]]
      | name :: names => (c :: name) :: names

def parts (path : String) : List String := (splitSlashes path.toList).map String.ofList

def ofParts (parts : List String) : String := "/".intercalate parts

def isAbsolute (path : String) : Bool := path.toList.head? == some '/'

def stays (part : String) : Bool := part.isEmpty || part == "."

def rises (part : String) : Bool := part == ".."

/-- The most bytes of a name. -/
def longestName : Nat := 255

/-- The most bytes of a path. -/
def longestPath : Nat := 4095

/-- Whether a part is a name that something can have. -/
def isName (part : String) : Bool :=
  !stays part && !rises part && part.utf8ByteSize ≤ longestName

/-- A zero character would end a path, so none may be within. -/
def isValid (path : String) : Bool :=
  path.utf8ByteSize ≤ longestPath && !path.toList.contains '\x00'

/-- From the parts of a path in reverse, the path and those of the folders around it, each in
reverse, nearest first. -/
def ascending : List String → List (List String)
  | [] => []
  | part :: rest => if stays part then ascending rest else (part :: rest) :: ascending rest

/-- The folders around that a path names, nearest first. -/
def ancestors (path : String) : List String :=
  (ascending (parts path).reverse).tail.map fun reversed => ofParts reversed.reverse

/-- A name that starts with a slash stands for itself. -/
def join (folder name : String) : String :=
  if isAbsolute name || folder.isEmpty then name
  else if folder.toList.getLast? == some '/' then folder ++ name
  else folder ++ "/" ++ name

end Path

end DagDeploy
