import Interlocking.Turnout
import Interlocking.Config
import Interlocking.Variable.Scope

/-!
# Layouts

A layout is a set of pieces of track and the sides at which they can be joined. Every
side carries the four bits of the reservation handshake and may have one *mate*, the
side of another piece to which it is joined.

A piece knows the ways a train can pass through it. Each *passage* has a route bit, set
while the passage is reserved, and a pending bit, set while the reservation is being
negotiated with the next piece.
-/

namespace Interlocking

/-- The number of a piece in its layout. -/
structure PieceId where
  index : Nat
  deriving DecidableEq, Repr, Inhabited

/-- The handshake bits of a side. The side's own piece writes `request` and `released`;
the piece joined to it answers with `granted` and `denied`. -/
structure Handshake where
  /-- A route out through the side is wanted. -/
  request : Var
  /-- The neighbour has reserved the route. -/
  granted : Var
  /-- The neighbour has refused the route. -/
  denied : Var
  /-- A granted route is not needed any more. -/
  released : Var
  deriving DecidableEq, Repr

/-- One side of a piece. -/
structure Side where
  /-- The name by which the piece knows the side. -/
  label : String
  owner : PieceId
  bits : Handshake
  /-- The side to which this one is joined. -/
  mate : Option SideId := none
  deriving DecidableEq, Repr

/-- One way through a piece. -/
structure Passage where
  entry : SideId
  exit : SideId
  /-- The passage is reserved. -/
  route : Var
  /-- The reservation is being negotiated. -/
  pending : Var
  /-- How the turnout must stand, if that can change. -/
  position : Option Position := none
  deriving DecidableEq, Repr

/-- What a straight piece is, with the bits that only its kind needs. -/
inductive StraightKind where
  /-- Shorter than any train. -/
  | short
  /-- Longer than any train. -/
  | long
  /-- Watched by a detector. -/
  | detector (sensor : Var)
  /-- Watched by a bouncing sensor: the raw bit, the number of passes for which it has
  to be stable, and the bit that holds its last value. -/
  | filtered (raw : Var) (window : UInt8) (shadow : Var)
  /-- A signal: the bit that asks for a proceed aspect, the aspect itself, and the bit
  that holds it back until the request was withdrawn. -/
  | signal (request aspect used : Var)
  deriving DecidableEq, Repr

/-- The two ways along a straight piece. -/
structure Lane where
  /-- The train was seen in the next piece. -/
  seen : Var
  ab : Passage
  ba : Passage
  deriving DecidableEq, Repr

/-- A piece with the sides `a` and `b`. -/
structure Straight extends Lane where
  kind : StraightKind
  a : SideId
  b : SideId
  deriving DecidableEq, Repr

/-- What drives a turnout, with the bits that only a movable one needs. -/
inductive TurnoutKind where
  | fixed (position : Position)
  /-- Driven by a motor: the bit that holds the position, and the bit that holds
  whether any passage is reserved or negotiated. -/
  | movable (motor : Motor) (position anyRoute : Var)
  deriving DecidableEq, Repr

/-- The geometry that a kind of turnout has. -/
def TurnoutKind.blades : TurnoutKind → Blades
  | .fixed position => .fixed position
  | .movable .. => .movable

/-- A piece with the sides `points`, `closed` and `thrown`. -/
structure Turnout where
  kind : TurnoutKind
  points : SideId
  closed : SideId
  thrown : SideId
  /-- The train was seen in the next piece. -/
  seen : Var
  passages : List Passage
  deriving DecidableEq, Repr

/-- The sides in the order in which `Blades` counts them. -/
def Turnout.sides (turnout : Turnout) : List SideId :=
  [turnout.points, turnout.closed, turnout.thrown]

/-- The shape of a piece. -/
inductive Body where
  | straight (straight : Straight)
  | turnout (turnout : Turnout)
  /-- Where routes begin and end, with a single side. -/
  | endpoint (side : SideId)
  deriving DecidableEq, Repr

/-- A piece of track. -/
structure Piece where
  name : String
  /-- A train is on the piece: measured, or concluded from the next piece. -/
  occupancy : Var
  body : Body
  deriving DecidableEq, Repr

namespace Piece

/-- The sides of a piece in order. -/
def sides (piece : Piece) : List SideId :=
  match piece.body with
  | .straight straight => [straight.a, straight.b]
  | .turnout turnout => turnout.sides
  | .endpoint side => [side]

/-- The ways through a piece. -/
def passages (piece : Piece) : List Passage :=
  match piece.body with
  | .straight straight => [straight.ab, straight.ba]
  | .turnout turnout => turnout.passages
  | .endpoint _ => []

/-- The latch for a train seen in the next piece. -/
def seen? (piece : Piece) : Option Var :=
  match piece.body with
  | .straight straight => some straight.seen
  | .turnout turnout => some turnout.seen
  | .endpoint _ => none

/-- The additional bit of a filter or a signal. -/
def helper? (piece : Piece) : Option Var :=
  match piece.body with
  | .straight { kind := .filtered _ _ shadow, .. } => some shadow
  | .straight { kind := .signal _ _ used, .. } => some used
  | _ => none

/-- The position bit of a movable turnout. -/
def position? (piece : Piece) : Option Var :=
  match piece.body with
  | .turnout { kind := .movable _ position _, .. } => some position
  | _ => none

/-- The bit of a movable turnout that holds whether any passage is in use. -/
def anyRoute? (piece : Piece) : Option Var :=
  match piece.body with
  | .turnout { kind := .movable _ _ anyRoute, .. } => some anyRoute
  | _ => none

/-- Whether the occupancy bit is measured. -/
def hasDetector (piece : Piece) : Bool :=
  match piece.body with
  | .straight { kind := .detector _, .. } => true
  | .straight { kind := .filtered .., .. } => true
  | _ => false

/-- The route bits of all passages. -/
def routes (piece : Piece) : List Var := piece.passages.map (·.route)

end Piece

/-- Pieces of track, their sides and the variables they use. -/
structure Layout where
  table : Table
  sides : Array Side := #[]
  pieces : Array Piece := #[]
  /-- The names that pieces have. -/
  names : List String := []
  /-- The usual window of a filtered sensor. -/
  debounceCycles : UInt8
  deriving DecidableEq, Repr

/-- An action that changes a layout. What it did before a failure stays done. -/
abbrev Build := EStateM Failure Layout

namespace Layout

/-- A layout without pieces. -/
def empty (config : Config) : Layout where
  table := {
    name := config.board.name.text
    eventBase := config.allocator.eventBase
    size := config.allocator.blockSize }
  debounceCycles := config.detector.debounceCycles

/-- The longest window of a filtered sensor, the usual one included. -/
def maxDebounceCycles (layout : Layout) : UInt8 :=
  layout.pieces.foldl
    (fun longest piece =>
      match piece.body with
      | .straight { kind := .filtered _ window _, .. } => max longest window
      | _ => longest)
    layout.debounceCycles

/-- A side by its number. -/
def side? (layout : Layout) (id : SideId) : Option Side := layout.sides[id.index]?

/-- A side that is known to exist. -/
def side (layout : Layout) (id : SideId) : Except Failure Side :=
  match layout.side? id with
  | some side => .ok side
  | none => .error (.breach .noSuchSide)

/-- A piece by its number. -/
def piece? (layout : Layout) (id : PieceId) : Option Piece := layout.pieces[id.index]?

/-- A piece that is expected to exist. -/
def piece (layout : Layout) (id : PieceId) : Except Failure Piece :=
  match layout.piece? id with
  | some piece => .ok piece
  | none => .error (.defect (.unknownPiece id.index))

/-- The piece to which a side belongs. -/
def owner? (layout : Layout) (id : SideId) : Option Piece :=
  layout.side? id >>= fun side => layout.piece? side.owner

/-- The piece to which a side belongs that is known to exist. -/
def owner (layout : Layout) (id : SideId) : Except Failure Piece :=
  match layout.owner? id with
  | some piece => .ok piece
  | none => .error (.breach .noSuchSide)

/-- The side to which a side is joined. -/
def mate? (layout : Layout) (id : SideId) : Option SideId :=
  layout.side? id >>= Side.mate

/-- The occupancy bit of the piece joined at a side. -/
def neighbourOccupancy? (layout : Layout) (id : SideId) : Option Var :=
  layout.mate? id >>= layout.owner? |>.map (·.occupancy)

/-- A piece that is expected to be straight. -/
def straight (layout : Layout) (id : PieceId) : Except Failure Straight := do
  let piece ← layout.piece id
  match piece.body with
  | .straight straight => return straight
  | _ => throw (.defect (.notStraight piece.name))

/-- Side `a` of a straight piece. -/
def sideA (layout : Layout) (id : PieceId) : Except Failure SideId :=
  (layout.straight id).map (·.a)

/-- Side `b` of a straight piece. -/
def sideB (layout : Layout) (id : PieceId) : Except Failure SideId :=
  (layout.straight id).map (·.b)

/-- The side on which a train leaves that entered at `entry`, as far as the layout alone
decides it. -/
def otherSide (layout : Layout) (entry : SideId) : Except Failure (Option SideId) := do
  let piece ← layout.owner entry
  match piece.body with
  | .straight straight => return some (if straight.a = entry then straight.b else straight.a)
  | .turnout turnout => turnout.kind.blades.exit? turnout.sides entry
  | .endpoint _ => return none

end Layout

end Interlocking
