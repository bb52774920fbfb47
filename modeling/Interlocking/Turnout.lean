import Interlocking.Variable.Table

/-!
# Turnouts

A turnout has three sides, listed as points, closed branch and thrown branch. Its
position tells which branch the points lead to. A fixed turnout never changes its
position, so it leads through in one way only; a movable one is driven by a motor.
-/

namespace Interlocking

/-- The number of a side in its layout. -/
structure SideId where
  index : Nat
  deriving DecidableEq, Repr, Inhabited

/-- The branch to which the points lead. -/
inductive Position where
  | closed
  | thrown
  deriving DecidableEq, Repr

namespace Position

/-- The value of a position bit: 0 for closed, 1 for thrown. -/
def bit : Position → Bool
  | .closed => false
  | .thrown => true

/-- The position that a bit stands for. -/
def ofBit (bit : Bool) : Position := if bit then .thrown else .closed

@[simp] theorem ofBit_bit (position : Position) : ofBit position.bit = position := by
  cases position <;> rfl

@[simp] theorem bit_ofBit (value : Bool) : (ofBit value).bit = value := by
  cases value <;> rfl

end Position

/-- The bits through which a turnout is driven. -/
structure Motor where
  /-- The position asked for by operators and schedules. -/
  command : Var
  /-- The position to which the motor was driven last. -/
  current : Var
  deriving DecidableEq, Repr

/-- What makes a turnout stand as it does. -/
inductive Blades where
  | fixed (position : Position)
  | movable
  deriving DecidableEq, Repr

namespace Blades

/-- Place of the points in a turnout's list of sides. -/
def points : Nat := 0

/-- Place of a branch in a turnout's list of sides. -/
def branch : Position → Nat
  | .closed => 1
  | .thrown => 2

/-- One side of a list that is expected to be long enough. -/
def side (sides : List SideId) (place : Nat) : Except Failure SideId :=
  match sides[place]? with
  | some side => .ok side
  | none => .error (.breach .missingSide)

/-- The side on which a train leaves that entered at `entry`.

A branch leads to the points unless it is the dead one. The points of a fixed turnout
lead to its live branch; those of a movable one depend on how it stands. Sides are
looked at only when they are needed for the answer. -/
def exit? (blades : Blades) (sides : List SideId) (entry : SideId) :
    Except Failure (Option SideId) :=
  match blades with
  | .fixed position => do
      let live ← side sides (branch position)
      let points ← side sides points
      if entry = points then return some live
      else if entry = live then return some points
      else return none
  | .movable => do
      let closed ← side sides (branch .closed)
      if entry = closed then
        return some (← side sides points)
      let thrown ← side sides (branch .thrown)
      if entry = thrown then
        return some (← side sides points)
      return none

end Blades

end Interlocking
