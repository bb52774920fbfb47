import Interlocking.Arena.Basic
import Interlocking.Layout.Joining

/-!
# Adding and joining elements

An element is added in two steps. First its sides are named, in the order of their labels; then
the element fills in the bits that its kind needs, for which it is told the numbers of its sides.
The element becomes part of the arena only if both steps succeed.
-/

namespace Interlocking

namespace Parts

/-- The bits of a straight element. Those of some kinds have an occupancy from outside or an
additional bit under a name of its own. -/
def straight (occupancy : Option Var) (helper : Option String) (sides : List SideId) :
    Scoped Parts := do
  let occupancy ← occupancy.elim (Scope.allocate "simulated_occ") pure
  let seen ← Scope.allocate "tmp_seen_train_in_next"
  let helper ← helper.mapM Scope.allocate
  let a ← MonadExcept.ofExcept (Blades.side sides 0)
  let b ← MonadExcept.ofExcept (Blades.side sides 1)
  let ab ← Passage.allocate "ab" a b none
  let ba ← Passage.allocate "ba" b a none
  return { occupancy, seen := some seen, helper, passages := [ab, ba] }

/-- The bits of an endpoint. -/
def endpoint : Scoped Parts := do
  return { occupancy := ← Scope.allocate "occ" }

end Parts

/-- A passage that turnouts may have: its label, the places of its entry and exit among the
sides, and how the turnout must stand for it. -/
structure PassagePlan where
  label : String
  entry : Nat
  exit : Nat
  position : Position
  deriving DecidableEq, Repr

namespace PassagePlan

/-- The passages of a movable turnout. -/
def all : List PassagePlan := [
  ⟨"PC", Blades.points, Blades.branch .closed, .closed⟩,
  ⟨"PT", Blades.points, Blades.branch .thrown, .thrown⟩,
  ⟨"CP", Blades.branch .closed, Blades.points, .closed⟩,
  ⟨"TP", Blades.branch .thrown, Blades.points, .thrown⟩]

/-- Names the bits of the passage; only a movable turnout has to check its position. -/
def allocate (plan : PassagePlan) (drive : DriveKind) (sides : List SideId) : Scoped Passage := do
  let entry ← MonadExcept.ofExcept (Blades.side sides plan.entry)
  let exit ← MonadExcept.ofExcept (Blades.side sides plan.exit)
  let position :=
    match drive with
    | .fixed _ => none
    | .movable _ => some plan.position
  Passage.allocate plan.label entry exit position

end PassagePlan

/-- The passages that a turnout has. -/
def DriveKind.plans : DriveKind → List PassagePlan
  | .fixed position => PassagePlan.all.filter (·.position = position)
  | .movable _ => PassagePlan.all

/-- The bits of a turnout. -/
def Parts.turnout (drive : DriveKind) (sides : List SideId) : Scoped Parts := do
  let occupancy ← Scope.allocate "simulated_occ"
  let seen ← Scope.allocate "tmp_seen_train_in_next"
  let passages ← drive.plans.mapM (·.allocate drive sides)
  match drive with
  | .fixed _ => return { occupancy, seen := some seen, passages }
  | .movable _ =>
      let position ← Scope.allocate "turnout_state"
      let anyRoute ← Scope.allocate "any_route_set"
      return {
        occupancy, seen := some seen, passages, position := some position
        anyRoute := some anyRoute }

namespace Arena

/-- Runs an action on the variable table of an arena. -/
def onTable {α : Type} (action : EStateM Failure Table α) : Assembly α := fun arena =>
  match action arena.table with
  | .ok result table => .ok result { arena with table }
  | .error failure table => .error failure { arena with table }

/-- Names a variable that is driven from outside or by the author. -/
def external (name : String) : Assembly Var := onTable (Table.allocate name)

/-- Names the sides of element `id`, of which the first has the number `first`, and fills in its
bits. -/
def prepare (labels : List String) (fill : List SideId → Scoped Parts) (id : PieceId)
    (first : Nat) : Scoped (List Side × List SideId × Parts) := do
  let sides ← labels.mapM (Side.allocate · id)
  let numbers := (List.range sides.length).map fun place => SideId.mk (first + place)
  let parts ← fill numbers
  return (sides, numbers, parts)

/-- Adds an element under a name that no other element has. -/
def insertElement (name : String) (kind : ElementKind) (count : UInt32) (labels : List String)
    (fill : List SideId → Scoped Parts) : Assembly PieceId := fun arena =>
  if name ∈ arena.names then
    .error (.defect (.duplicateName name)) arena
  else
    let id : PieceId := ⟨arena.elements.size⟩
    match Table.within name count (prepare labels fill id arena.sides.size) arena.table with
    | .error failure table => .error failure { arena with table }
    | .ok (sides, numbers, parts) table =>
        .ok id { arena with
          table
          sides := arena.sides ++ sides
          elements := arena.elements.push { toParts := parts, name, kind, sides := numbers }
          names := name :: arena.names }

/-- Adds a straight element. -/
def addStraight (name : String) (track : TrackKind) : Assembly PieceId :=
  let (occupancy, helper) : Option Var × Option String :=
    match track with
    | .short | .long => (none, none)
    | .detector sensor => (some sensor, none)
    | .filtered .. => (none, some "tmp_debounce")
    | .signal .. => (none, some "tmp_route_used")
  insertElement name (.straight track) Straight.bitCount ["a", "b"]
    (Parts.straight occupancy helper)

/-- Adds an element shorter than any train. -/
def addShort (name : String) : Assembly PieceId := addStraight name .short

/-- Adds an element longer than any train. -/
def addLong (name : String) : Assembly PieceId := addStraight name .long

/-- Adds an element whose occupancy is the given bit. -/
def addDetector (name : String) (sensor : Var) : Assembly PieceId :=
  addStraight name (.detector sensor)

/-- Adds an element whose occupancy follows a raw bit that was stable for `window` passes. -/
def addFiltered (name : String) (raw : Var) (window : UInt8) : Assembly PieceId :=
  addStraight name (.filtered raw window)

/-- Adds a signal for trains that pass from side `a` to side `b`. -/
def addSignal (name : String) (request aspect : Var) : Assembly PieceId :=
  addStraight name (.signal request aspect)

/-- Adds an element at which routes begin and end. -/
def addEndpoint (name : String) : Assembly PieceId :=
  insertElement name .endpoint Piece.endpointBitCount ["side"] fun _ => Parts.endpoint

/-- Adds a turnout. -/
def addTurnout (name : String) (drive : DriveKind) : Assembly PieceId :=
  insertElement name (.turnout drive) Turnout.bitCount ["points", "closed", "thrown"]
    (Parts.turnout drive)

/-- Adds a turnout that never moves. -/
def addFixedTurnout (name : String) (position : Position) : Assembly PieceId :=
  addTurnout name (.fixed position)

/-- Adds a turnout that a motor drives. -/
def addMovableTurnout (name : String) (motor : Motor) : Assembly PieceId :=
  addTurnout name (.movable motor)

/-! ## Joining -/

/-- Checks that `id`, one of the two sides to be joined, exists and can get a mate. -/
def checkFree (arena : Arena) (a b id : SideId) : Except Failure Unit := do
  let side ← arena.side id
  if a = b ∨ side.mate.isSome then
    let element ← arena.owner id
    throw (.defect (.alreadyBound element.name side.label))

/-- Gives a side a mate. -/
def setMate (arena : Arena) (id mate : SideId) : Arena :=
  { arena with sides := arena.sides.modify id.index ({ · with mate := some mate }) }

/-- Joins two sides. The first is checked first. -/
def join (a b : SideId) : Assembly Unit := fun arena =>
  match arena.checkFree a b a, arena.checkFree a b b with
  | .error failure, _ => .error failure arena
  | _, .error failure => .error failure arena
  | .ok _, .ok _ => .ok () ((arena.setMate a b).setMate b a)

/-- Joins pairs of sides one after another; pairs before a failing one stay joined. -/
def joinPairs : List (SideId × SideId) → Assembly Unit
  | [] => pure ()
  | (a, b) :: pairs => do
      join a b
      joinPairs pairs

/-- Runs a question about the current arena. -/
def ask {α : Type} (question : Arena → Except Failure α) : Assembly α := fun arena =>
  match question arena with
  | .ok answer => .ok answer arena
  | .error failure => .error failure arena

/-- Where a train enters a run. -/
def entryOf (arena : Arena) (run : Run) : Except Failure SideId := arena.straightSide run.first 0

/-- Where a train leaves a run. -/
def exitOf (arena : Arena) (run : Run) : Except Failure SideId := arena.straightSide run.last 1

/-- Joins the exit of each run to the entry of the next; pairs before a failing one stay
joined. -/
def joinRuns : List Run → Assembly Unit
  | first :: second :: runs => do
      let exit ← ask (·.exitOf first)
      let entry ← ask (·.entryOf second)
      join exit entry
      joinRuns (second :: runs)
  | _ => pure ()

end Arena

end Interlocking
