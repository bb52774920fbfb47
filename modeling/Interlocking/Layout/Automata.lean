import Interlocking.Reservation.Straight
import Interlocking.Reservation.Turnout

/-!
# The automata of a layout

Every piece of a layout becomes one automaton, in the order of the pieces. A piece holds all bits
of its own kind, and what is joined to one of its sides is looked up in the layout.
-/

namespace Interlocking

/-- The automaton of a piece. -/
def Piece.automaton (piece : Piece) (layout : Layout) : Automaton :=
  match piece.body with
  | .straight straight => (straight.book layout piece.name piece.occupancy).build
  | .turnout turnout => (turnout.book layout piece.name piece.occupancy).build
  | .endpoint side => (endpointBook layout piece.name side).build

/-- The automata of all pieces. -/
def Layout.automata (layout : Layout) : List Automaton :=
  layout.pieces.toList.map (·.automaton layout)

end Interlocking
