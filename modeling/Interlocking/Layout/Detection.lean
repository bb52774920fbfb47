import Interlocking.Layout.Basic

/-!
# Finding detectors

Seen from a side, the nearest detector is the first measured piece on the walk that
starts with the side's own piece and goes on to whatever is joined on the other side.
It is *close* if no piece longer than a train comes before it, and *far* if it lies
beyond such a piece, or beyond a first detector.

A layout may contain loops, so the walk visits at most one piece more than there are. What
the walk needs to know of a layout is what can be seen from each of its sides.
-/

namespace Interlocking

/-- How a piece takes part in the search for a detector. -/
inductive Sight where
  /-- Its own occupancy is measured. -/
  | measured
  /-- It ends the range of one train length. -/
  | distant
  /-- It asks the piece on its other side. -/
  | through
  /-- Nothing lies beyond it. -/
  | blind
  deriving DecidableEq, Repr

/-- What a search comes to at a side. -/
structure Prospect where
  /-- The name of the side's own piece. -/
  piece : String
  /-- The label of the side. -/
  label : String
  sight : Sight
  occupancy : Var
  /-- The side at which a train enters the next piece. -/
  onward : Except Failure (Option SideId)

/-- What can be seen from each side. -/
abbrev Outlook := SideId → Except Failure Prospect

namespace Outlook

/-- The report of a search that visited too many pieces. -/
def cycleAt {α : Type} (outlook : Outlook) (entry : SideId) : Except Failure α := do
  let prospect ← outlook entry
  throw (.defect (.lookupCycle prospect.piece))

/-- The close detector seen from `entry`, visiting at most `budget` pieces. -/
def closeWithin (outlook : Outlook) : Nat → SideId → Except Failure (Option Var)
  | 0, entry => outlook.cycleAt entry
  | budget + 1, entry => do
      let prospect ← outlook entry
      match prospect.sight with
      | .measured => return some prospect.occupancy
      | .distant => return none
      | .blind => return none
      | .through =>
          match ← prospect.onward with
          | some next => outlook.closeWithin budget next
          | none => return none

/-- The far detector seen from `entry`, visiting at most `budget` pieces. -/
def farWithin (outlook : Outlook) : Nat → SideId → Except Failure (Option Var)
  | 0, entry => outlook.cycleAt entry
  | budget + 1, entry => do
      let prospect ← outlook entry
      match prospect.sight with
      | .blind => return none
      | .through =>
          match ← prospect.onward with
          | some next => outlook.farWithin budget next
          | none => return none
      | .measured | .distant =>
          match ← prospect.onward with
          | none => return none
          | some next =>
              match ← outlook.closeWithin budget next with
              | some detector => return some detector
              | none => outlook.farWithin budget next

/-- The close detector, or else the far one; to have neither is a defect. -/
def nextWithin (outlook : Outlook) (budget : Nat) (entry : SideId) : Except Failure Var := do
  match ← outlook.closeWithin budget entry with
  | some detector => return detector
  | none =>
      match ← outlook.farWithin budget entry with
      | some detector => return detector
      | none =>
          let prospect ← outlook entry
          throw (.defect (.noDetector prospect.piece prospect.label))

end Outlook

namespace Layout

/-- The side at which a train enters the next piece. -/
def onward (layout : Layout) (entry : SideId) : Except Failure (Option SideId) := do
  match ← layout.otherSide entry with
  | some exit => return layout.mate? exit
  | none => return none

/-- The part that a piece takes in a search. -/
def sight (piece : Piece) : Sight :=
  match piece.body with
  | .straight { kind := .detector _, .. } => .measured
  | .straight { kind := .filtered .., .. } => .measured
  | .straight { kind := .long, .. } => .distant
  | .straight { kind := .short, .. } => .through
  | .straight { kind := .signal .., .. } => .through
  | .turnout _ => .through
  | .endpoint _ => .blind

/-- What can be seen from the sides of a layout. -/
def outlook (layout : Layout) : Outlook := fun entry => do
  let side ← layout.side entry
  let piece ← layout.owner entry
  return {
    piece := piece.name
    label := side.label
    sight := sight piece
    occupancy := piece.occupancy
    onward := layout.onward entry }

/-- The number of pieces that a search may visit. -/
def searchBudget (layout : Layout) : Nat := layout.pieces.size + 1

/-- The nearest detector within one train length. -/
def closeDetector (layout : Layout) (entry : SideId) : Except Failure (Option Var) :=
  layout.outlook.closeWithin layout.searchBudget entry

/-- The nearest detector beyond one train length. -/
def farDetector (layout : Layout) (entry : SideId) : Except Failure (Option Var) :=
  layout.outlook.farWithin layout.searchBudget entry

/-- The nearest detector of all, without which there is a defect. -/
def nextDetector (layout : Layout) (entry : SideId) : Except Failure Var :=
  layout.outlook.nextWithin layout.searchBudget entry

/-- Checks that a piece, if it is a signal, has a detector. -/
def validatePiece (layout : Layout) (piece : Piece) : Except Failure Unit :=
  match piece.body with
  | .straight { kind := .signal .., b, .. } => do
      let _ ← layout.nextDetector b
      return ()
  | _ => return ()

/-- Checks that every signal has a detector, in the order of the pieces. -/
def validate (layout : Layout) : Except Failure Unit :=
  layout.pieces.toList.forM layout.validatePiece

end Layout

end Interlocking
