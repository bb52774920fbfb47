import Interlocking.Layout.Pieces

/-!
# Joining sides

Two sides are joined by making each the mate of the other. A side has at most one mate,
and no side is its own. A *run* of track has an entry side and an exit side and can be
joined end to end with other runs.
-/

namespace Interlocking

/-- A stretch of track from side `a` of its first piece to side `b` of its last. -/
structure Run where
  first : PieceId
  last : PieceId
  deriving DecidableEq, Repr

namespace Run

/-- The run that is a single piece. -/
def ofPiece (piece : PieceId) : Run := ⟨piece, piece⟩

/-- Where a train enters the run. -/
def entry (run : Run) (layout : Layout) : Except Failure SideId := layout.sideA run.first

/-- Where a train leaves the run. -/
def exit (run : Run) (layout : Layout) : Except Failure SideId := layout.sideB run.last

end Run

namespace Layout

/-- Checks that `id`, one of the two sides to be joined, exists and can get a mate. -/
def checkFree (layout : Layout) (a b id : SideId) : Except Failure Unit := do
  let side ← layout.side id
  if a = b ∨ side.mate.isSome then
    let piece ← layout.owner id
    throw (.defect (.alreadyBound piece.name side.label))

/-- Gives a side a mate. -/
def setMate (layout : Layout) (id mate : SideId) : Layout :=
  { layout with sides := layout.sides.modify id.index ({ · with mate := some mate }) }

/-- Joins two sides. The first is checked first. -/
def join (a b : SideId) : Build Unit := fun layout =>
  match layout.checkFree a b a, layout.checkFree a b b with
  | .error failure, _ => .error failure layout
  | _, .error failure => .error failure layout
  | .ok _, .ok _ => .ok () ((layout.setMate a b).setMate b a)

/-- Joins pairs of sides one after another; pairs before a failing one stay joined. -/
def joinPairs : List (SideId × SideId) → Build Unit
  | [] => pure ()
  | (a, b) :: pairs => do
      join a b
      joinPairs pairs

/-- Runs a question about the current layout. -/
def ask {α : Type} (question : Layout → Except Failure α) : Build α := fun layout =>
  match question layout with
  | .ok answer => .ok answer layout
  | .error failure => .error failure layout

/-- Joins the exit of each run to the entry of the next; pairs before a failing one stay
joined. -/
def joinRuns : List Run → Build Unit
  | first :: second :: runs => do
      let exit ← ask first.exit
      let entry ← ask second.entry
      join exit entry
      joinRuns (second :: runs)
  | _ => pure ()

end Layout

end Interlocking
