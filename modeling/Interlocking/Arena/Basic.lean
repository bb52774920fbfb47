import Interlocking.Layout.Detection

/-!
# Arenas

An arena is the form in which a layout is stored. One record serves the elements of all kinds:
sides and passages are lists, and bits that only some kinds have are optional. The record does not
say which of them are there, so every access to it may fail.

An access fails in one of two ways. A missing bit is a defect that names the element and the bit.
A place outside a list is a breach.
-/

namespace Interlocking

/-- What a straight element is. -/
inductive TrackKind where
  /-- Shorter than any train. -/
  | short
  /-- Longer than any train. -/
  | long
  /-- Watched by a detector. -/
  | detector (sensor : Var)
  /-- Watched by a bouncing sensor, which has to be stable for `window` passes. -/
  | filtered (raw : Var) (window : UInt8)
  /-- A signal: the bit that asks for a proceed aspect, and the aspect itself. -/
  | signal (request aspect : Var)
  deriving DecidableEq, Repr

namespace TrackKind

/-- Whether the occupancy bit is measured. -/
def hasDetector : TrackKind → Bool
  | .detector _ | .filtered .. => true
  | .short | .long | .signal .. => false

/-- Whether the occupancy is concluded from the next element. -/
def simulated : TrackKind → Bool
  | .short | .long => true
  | .detector _ | .filtered .. | .signal .. => false

end TrackKind

/-- What makes a turnout stand as it does. -/
inductive DriveKind where
  | fixed (position : Position)
  | movable (motor : Motor)
  deriving DecidableEq, Repr

/-- The geometry that a kind of turnout has. -/
def DriveKind.blades : DriveKind → Blades
  | .fixed position => .fixed position
  | .movable _ => .movable

/-- What an element is. -/
inductive ElementKind where
  | straight (track : TrackKind)
  | turnout (drive : DriveKind)
  /-- Where routes begin and end. -/
  | endpoint
  deriving DecidableEq, Repr

/-- The part that an element takes in the search for a detector. -/
def ElementKind.sight : ElementKind → Sight
  | .straight .long => .distant
  | .straight track => if track.hasDetector then .measured else .through
  | .turnout _ => .through
  | .endpoint => .blind

/-- The bits of an element, apart from those of its sides. -/
structure Parts where
  /-- A train is on the element: measured, or concluded from the next element. -/
  occupancy : Var
  /-- The train was seen in the next element. -/
  seen : Option Var := none
  /-- The shadow of a filter, or the mark of a signal that its route was used. -/
  helper : Option Var := none
  /-- The ways through the element. -/
  passages : List Passage := []
  /-- The position of a turnout. -/
  position : Option Var := none
  /-- Whether any passage of a turnout is in use. -/
  anyRoute : Option Var := none
  deriving DecidableEq, Repr

/-- An element of track. -/
structure Element extends Parts where
  name : String
  kind : ElementKind
  /-- The sides `a` and `b`, or the points and the branches of a turnout. -/
  sides : List SideId
  deriving DecidableEq, Repr

namespace Element

/-- The defect of an element without a bit. -/
def missing (element : Element) (bit : String) : Failure :=
  .defect (.missingVariable element.name bit)

/-- The latch for a train seen in the next element. -/
def seenLatch (element : Element) : Except Failure Var :=
  match element.seen with
  | some var => .ok var
  | none => .error (element.missing "tmp_seen_train_in_next")

/-- The additional bit of a filter or a signal. -/
def helperBit (element : Element) : Except Failure Var :=
  match element.helper with
  | some var => .ok var
  | none => .error (element.missing "helper")

/-- The side at a place. -/
def side (element : Element) (place : Nat) : Except Failure SideId :=
  Blades.side element.sides place

/-- The passage at a place. -/
def passage (element : Element) (place : Nat) : Except Failure Passage :=
  match element.passages[place]? with
  | some passage => .ok passage
  | none => .error (.breach .missingPassage)

/-- The passage from one side to another. -/
def passageBetween? (element : Element) (entry exit : SideId) : Option Passage :=
  element.passages.find? (fun passage => passage.entry = entry ∧ passage.exit = exit)

end Element

/-- Elements of track, their sides and the variables they use. -/
structure Arena where
  table : Table
  sides : Array Side := #[]
  elements : Array Element := #[]
  /-- The names that elements have. -/
  names : List String := []
  /-- The usual window of a filtered sensor. -/
  debounceCycles : UInt8
  deriving DecidableEq, Repr

/-- An action that changes an arena. What it did before a failure stays done. -/
abbrev Assembly := EStateM Failure Arena

namespace Arena

/-- An arena without elements. -/
def empty (config : Config) : Arena where
  table := {
    name := config.board.name.text
    eventBase := config.allocator.eventBase
    size := config.allocator.blockSize }
  debounceCycles := config.detector.debounceCycles

/-- The longest window of a filtered sensor, the usual one included. -/
def maxDebounceCycles (arena : Arena) : UInt8 :=
  arena.elements.foldl
    (fun longest element =>
      match element.kind with
      | .straight (.filtered _ window) => max longest window
      | _ => longest)
    arena.debounceCycles

/-- A side by its number. -/
def side (arena : Arena) (id : SideId) : Except Failure Side :=
  match arena.sides[id.index]? with
  | some side => .ok side
  | none => .error (.breach .noSuchSide)

/-- An element by its number. -/
def element (arena : Arena) (id : PieceId) : Except Failure Element :=
  match arena.elements[id.index]? with
  | some element => .ok element
  | none => .error (.defect (.unknownPiece id.index))

/-- The element to which a side belongs. -/
def owner (arena : Arena) (id : SideId) : Except Failure Element := do
  let side ← arena.side id
  match arena.elements[side.owner.index]? with
  | some element => return element
  | none => throw (.breach .noSuchSide)

/-- The first element with a name. -/
def find? (arena : Arena) (name : String) : Option PieceId :=
  (arena.elements.findIdx? (fun element => element.name = name)).map PieceId.mk

/-- The side to which a side is joined. -/
def mate (arena : Arena) (id : SideId) : Except Failure (Option SideId) :=
  (arena.side id).map (·.mate)

/-- The mate of a side that must have one. -/
def requireMate (arena : Arena) (id : SideId) : Except Failure SideId := do
  let side ← arena.side id
  match side.mate with
  | some mate => return mate
  | none =>
      let element ← arena.owner id
      throw (.defect (.unbound element.name side.label))

/-- The occupancy bit of the element joined at a side. -/
def neighbourOccupancy (arena : Arena) (id : SideId) : Except Failure (Option Var) := do
  match ← arena.mate id with
  | none => return none
  | some mate => return some (← arena.owner mate).occupancy

/-- A side of an element that is expected to be straight. -/
def straightSide (arena : Arena) (id : PieceId) (place : Nat) : Except Failure SideId := do
  let element ← arena.element id
  match element.kind with
  | .straight _ => element.side place
  | _ => throw (.defect (.notStraight element.name))

/-- A side of an element that is expected to be a turnout. -/
def turnoutSide (arena : Arena) (id : PieceId) (place : Nat) : Except Failure SideId := do
  let element ← arena.element id
  match element.kind with
  | .turnout _ => element.side place
  | _ => throw (.defect (.notTurnout element.name))

/-- The first side of any element, which is the only one of an endpoint. -/
def firstSide (arena : Arena) (id : PieceId) : Except Failure SideId := do
  (← arena.element id).side 0

/-- The side on which a train leaves that entered at `entry`, as far as the arena alone
decides it. -/
def otherSide (arena : Arena) (entry : SideId) : Except Failure (Option SideId) := do
  let element ← arena.owner entry
  match element.kind with
  | .straight _ =>
      if (← element.side 0) = entry then return some (← element.side 1)
      else return some (← element.side 0)
  | .turnout drive => drive.blades.exit? element.sides entry
  | .endpoint => return none

/-! ## Detectors -/

/-- The side at which a train enters the next element. -/
def onward (arena : Arena) (entry : SideId) : Except Failure (Option SideId) := do
  match ← arena.otherSide entry with
  | some exit => arena.mate exit
  | none => return none

/-- What can be seen from the sides of an arena. -/
def outlook (arena : Arena) : Outlook := fun entry => do
  let side ← arena.side entry
  let element ← arena.owner entry
  return {
    piece := element.name
    label := side.label
    sight := element.kind.sight
    occupancy := element.occupancy
    onward := arena.onward entry }

/-- The number of elements that a search may visit. -/
def searchBudget (arena : Arena) : Nat := arena.elements.size + 1

/-- The nearest detector within one train length. -/
def closeDetector (arena : Arena) (entry : SideId) : Except Failure (Option Var) :=
  arena.outlook.closeWithin arena.searchBudget entry

/-- The nearest detector beyond one train length. -/
def farDetector (arena : Arena) (entry : SideId) : Except Failure (Option Var) :=
  arena.outlook.farWithin arena.searchBudget entry

/-- The nearest detector of all, without which there is a defect. -/
def nextDetector (arena : Arena) (entry : SideId) : Except Failure Var :=
  arena.outlook.nextWithin arena.searchBudget entry

/-- Checks that an element, if it is a signal, has a detector. -/
def validateElement (arena : Arena) (element : Element) : Except Failure Unit :=
  match element.kind with
  | .straight (.signal ..) => do
      let _ ← arena.nextDetector (← element.side 1)
      return ()
  | _ => return ()

/-- Checks that every signal has a detector, in the order of the elements. -/
def validate (arena : Arena) : Except Failure Unit :=
  arena.elements.toList.forM arena.validateElement

end Arena

end Interlocking
