import Interlocking.Layout.Basic

/-!
# Adding pieces

A piece takes its addresses from a scope of its own, named like the piece. Its sides
come first, each in a nested scope, and the bits that belong to the whole piece follow.
The piece becomes part of the layout only if all of its bits could be named; the
addresses of a piece that could not be added stay used up.
-/

namespace Interlocking

/-- Addresses set aside for a side. -/
def Side.bitCount : UInt32 := 8

/-- Addresses set aside for a straight piece. -/
def Straight.bitCount : UInt32 := 32

/-- Addresses set aside for a turnout. -/
def Turnout.bitCount : UInt32 := 48

/-- Addresses set aside for an endpoint. -/
def Piece.endpointBitCount : UInt32 := 16

/-- A new side without a mate. -/
def Side.allocate (label : String) (owner : PieceId) : Scoped Side :=
  Scope.within label Side.bitCount do
    let request ← Scope.allocate "out_try_set_route"
    let granted ← Scope.allocate "in_route_set_success"
    let denied ← Scope.allocate "in_route_set_failure"
    let released ← Scope.allocate "out_route_released"
    return { label, owner, bits := { request, granted, denied, released } }

/-- A new passage whose bits are named with a label. -/
def Passage.allocate (label : String) (entry exit : SideId) (position : Option Position) :
    Scoped Passage := do
  let route ← Scope.allocate ("route_set_" ++ label)
  let pending ← Scope.allocate ("route_pending_" ++ label)
  return { entry, exit, route, pending, position }

/-- What an addition has prepared: the new sides in order, the occupancy bit and the
body of the piece. -/
structure Draft where
  sides : List Side
  occupancy : Var
  body : Body
  deriving DecidableEq, Repr

/-- Prepares a straight piece whose first side has the number `first`. The actions give
the occupancy bit and the kind, and allocate what these need. -/
def Straight.draft (occupancy : Scoped Var) (kind : Scoped StraightKind)
    (id : PieceId) (first : Nat) : Scoped Draft := do
  let a : SideId := ⟨first⟩
  let b : SideId := ⟨first + 1⟩
  let sideA ← Side.allocate "a" id
  let sideB ← Side.allocate "b" id
  let occupancy ← occupancy
  let seen ← Scope.allocate "tmp_seen_train_in_next"
  let kind ← kind
  let ab ← Passage.allocate "ab" a b none
  let ba ← Passage.allocate "ba" b a none
  return {
    sides := [sideA, sideB]
    occupancy
    body := .straight { kind, a, b, seen, ab, ba } }

/-- Prepares a turnout whose first side has the number `first`. -/
def Turnout.draft (passages : List (Scoped Passage)) (kind : Scoped TurnoutKind)
    (id : PieceId) (first : Nat) : Scoped Draft := do
  let points ← Side.allocate "points" id
  let closed ← Side.allocate "closed" id
  let thrown ← Side.allocate "thrown" id
  let occupancy ← Scope.allocate "simulated_occ"
  let seen ← Scope.allocate "tmp_seen_train_in_next"
  let passages ← passages.mapM (fun passage => passage)
  let kind ← kind
  return {
    sides := [points, closed, thrown]
    occupancy
    body := .turnout {
      kind
      points := ⟨first⟩
      closed := ⟨first + 1⟩
      thrown := ⟨first + 2⟩
      seen
      passages } }

/-- Prepares an endpoint whose side has the number `first`. -/
def Piece.endpointDraft (id : PieceId) (first : Nat) : Scoped Draft := do
  let side ← Side.allocate "side" id
  let occupancy ← Scope.allocate "occ"
  return { sides := [side], occupancy, body := .endpoint ⟨first⟩ }

namespace Layout

/-- Runs an action on the variable table of a layout. -/
def onTable {α : Type} (action : EStateM Failure Table α) : Build α := fun layout =>
  match action layout.table with
  | .ok result table => .ok result { layout with table }
  | .error failure table => .error failure { layout with table }

/-- Names a variable that is driven from outside or by the layout's author. -/
def external (name : String) : Build Var := onTable (Table.allocate name)

/-- Adds a piece under a name that no other piece has. -/
def addPiece (name : String) (count : UInt32) (draft : PieceId → Nat → Scoped Draft) :
    Build PieceId := fun layout =>
  if name ∈ layout.names then
    .error (.defect (.duplicateName name)) layout
  else
    let id : PieceId := ⟨layout.pieces.size⟩
    match Table.within name count (draft id layout.sides.size) layout.table with
    | .error failure table => .error failure { layout with table }
    | .ok draft table =>
        .ok id { layout with
          table
          sides := layout.sides ++ draft.sides
          pieces := layout.pieces.push { name, occupancy := draft.occupancy, body := draft.body }
          names := name :: layout.names }

/-- Adds a straight piece. -/
def addStraight (name : String) (occupancy : Scoped Var) (kind : Scoped StraightKind) :
    Build PieceId :=
  addPiece name Straight.bitCount (Straight.draft occupancy kind)

/-- Adds a piece shorter than any train. -/
def addShort (name : String) : Build PieceId :=
  addStraight name (Scope.allocate "simulated_occ") (pure .short)

/-- Adds a piece longer than any train. -/
def addLong (name : String) : Build PieceId :=
  addStraight name (Scope.allocate "simulated_occ") (pure .long)

/-- Adds a piece whose occupancy is the given bit. -/
def addDetector (name : String) (sensor : Var) : Build PieceId :=
  addStraight name (pure sensor) (pure (.detector sensor))

/-- Adds a piece whose occupancy follows a raw bit that was stable for `window` passes. -/
def addFiltered (name : String) (raw : Var) (window : UInt8) : Build PieceId :=
  addStraight name (Scope.allocate "simulated_occ") do
    let shadow ← Scope.allocate "tmp_debounce"
    return .filtered raw window shadow

/-- Adds a signal for trains that pass from side `a` to side `b`. -/
def addSignal (name : String) (request aspect : Var) : Build PieceId :=
  addStraight name (Scope.allocate "simulated_occ") do
    let used ← Scope.allocate "tmp_route_used"
    return .signal request aspect used

/-- Adds a piece at which routes begin and end. -/
def addEndpoint (name : String) : Build PieceId :=
  addPiece name Piece.endpointBitCount Piece.endpointDraft

/-- Adds a turnout that never moves; it has passages through its live branch only. -/
def addFixedTurnout (name : String) (position : Position) : Build PieceId :=
  addPiece name Turnout.bitCount fun id first =>
    let points : SideId := ⟨first + Blades.points⟩
    let live : SideId := ⟨first + Blades.branch position⟩
    let passages :=
      match position with
      | .closed =>
          [Passage.allocate "PC" points live none, Passage.allocate "CP" live points none]
      | .thrown =>
          [Passage.allocate "PT" points live none, Passage.allocate "TP" live points none]
    Turnout.draft passages (pure (.fixed position)) id first

/-- Adds a turnout that a motor drives. -/
def addMovableTurnout (name : String) (motor : Motor) : Build PieceId :=
  addPiece name Turnout.bitCount fun id first =>
    let points : SideId := ⟨first + Blades.points⟩
    let closed : SideId := ⟨first + Blades.branch .closed⟩
    let thrown : SideId := ⟨first + Blades.branch .thrown⟩
    let passages := [
      Passage.allocate "PC" points closed (some .closed),
      Passage.allocate "PT" points thrown (some .thrown),
      Passage.allocate "CP" closed points (some .closed),
      Passage.allocate "TP" thrown points (some .thrown)]
    Turnout.draft passages
      (do
        let position ← Scope.allocate "turnout_state"
        let anyRoute ← Scope.allocate "any_route_set"
        return .movable motor position anyRoute)
      id first

end Layout

end Interlocking
