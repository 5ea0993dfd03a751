import DagDeploy.Placement

/-! Boards, told by their names, with their numbering of CPUs. Accelerators number their units on
their own, from zero. -/

namespace DagDeploy

inductive Platform where
  | odroid
  | zcu102
  | xavierAgx
  deriving DecidableEq, Repr

namespace Platform

/-- Whether `part` is a contiguous part of a text. -/
def occurs (part : List Char) : List Char → Bool
  | [] => part.isEmpty
  | c :: rest => part.isPrefixOf (c :: rest) || occurs part rest

def mentions (name part : String) : Bool := occurs part.toList name.toList

/-- The first board whose name is part of the given one, such as `odroid-xu4`. -/
def ofName (name : String) : Except Failure Platform :=
  if mentions name "odroid" then .ok .odroid
  else if mentions name "zcu102" then .ok .zcu102
  else if mentions name "xavier-agx" then .ok .xavierAgx
  else .error (.unknownPlatform name)

def isAccelerator (platform : Platform) (island : Island) : Bool :=
  match platform with
  | .odroid | .zcu102 => island.capacity.above .one
  | .xavierAgx => island.units.length == 1

/-- The cores of the little cluster come before those of the big one. -/
def littleCores : Nat := 4

def cpuOf (platform : Platform) (island : Island) (unitIndex : Nat) : Nat :=
  if platform.isAccelerator island then unitIndex
  else
    match platform with
    | .odroid => if island.capacity.atLeast .one then littleCores + unitIndex else unitIndex
    | .zcu102 | .xavierAgx => unitIndex

def kindOf (platform : Platform) (island : Island) : TaskKind :=
  if platform.isAccelerator island then .fred else .cpu

end Platform

end DagDeploy
