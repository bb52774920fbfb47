import Interlocking.Arena.Elements
import Interlocking.Schedule.Rules

/-!
# Segments and timetables

A segment is what is stored of a block: the numbers of its elements and its outer bits. A timetable
is what is stored of a schedule. It knows blocks by their names only and looks up what it needs of
a block whenever it writes a rule, so a name that it does not know is a breach.
-/

namespace Interlocking

/-- An approach, a body and a signal in sequence. -/
structure Segment where
  name : String
  approach : PieceId
  body : PieceId
  signalPiece : PieceId
  /-- The body is occupied. -/
  detector : Var
  /-- Somebody wants the signal to show proceed. -/
  requestGreen : Var
  /-- The aspect of the signal. -/
  signal : Var
  deriving DecidableEq, Repr

namespace Segment

/-- The segment as a run of track. -/
def run (segment : Segment) : Run := ⟨segment.approach, segment.signalPiece⟩

/-- The bit that the first passage of an element is reserved. -/
def firstRoute (arena : Arena) (id : PieceId) : Except Failure Var := do
  return (← (← arena.element id).passage 0).route

/-- The approach is reserved for a train that enters. -/
def routeIn (segment : Segment) (arena : Arena) : Except Failure Var :=
  firstRoute arena segment.approach

/-- The way out past the signal is reserved. -/
def routeOut (segment : Segment) (arena : Arena) : Except Failure Var :=
  firstRoute arena segment.signalPiece

/-- Adds the signal of a segment and joins its elements. -/
def finish (name : String) (approach body : PieceId) (detector : Var) : Assembly Segment := do
  let requestGreen ← Arena.external (qualify name "request_green")
  let signal ← Arena.external (qualify name "signal")
  let signalPiece ← Arena.addSignal (qualify name "signal_piece") requestGreen signal
  Arena.joinRuns [.ofPiece approach, .ofPiece body, .ofPiece signalPiece]
  return { name, approach, body, signalPiece, detector, requestGreen, signal }

/-- Makes a segment that is watched by an external detector bit. -/
def make (name : String) : Assembly Segment := do
  let detector ← Arena.external (qualify name "detector")
  let approach ← Arena.addLong (qualify name "approach")
  let body ← Arena.addDetector (qualify name "body") detector
  finish name approach body detector

/-- Makes a segment whose occupancy is filtered from a raw sensor bit over the usual window. -/
def makeFiltered (name : String) : Assembly Segment := do
  let raw ← Arena.external (qualify name "raw")
  let approach ← Arena.addLong (qualify name "approach")
  let window := (← get).debounceCycles
  let body ← Arena.addFiltered (qualify name "body") raw window
  let element ← Arena.ask (·.element body)
  finish name approach body element.occupancy

end Segment

/-- What a timetable knows of a block. -/
structure Location where
  /-- The train is in the block. -/
  here : Var
  /-- The train is being routed into the block. -/
  coming : Var
  /-- A restart forgets the train if the block is found empty. -/
  sensitive : Bool := false
  detector : Var
  requestGreen : Var
  routeOut : Var
  deriving DecidableEq, Repr

/-- A block under its name, as the rules see it. -/
def Location.berth (location : Location) (block : String) : Berth where
  block
  here := location.here
  coming := location.coming
  detector := location.detector
  requestGreen := location.requestGreen
  routeOut := location.routeOut

/-- A move from one block to another, which are given by their names. -/
structure Leg where
  source : String
  target : String
  /-- The move is under way. -/
  active : Var
  /-- What must hold before the train leaves. -/
  guards : List (Var × Bool) := []
  /-- The permission that the move needs. -/
  client : Option Client := none
  /-- How turnouts must stand before the train leaves. -/
  turnouts : List (Motor × Position) := []
  deriving DecidableEq, Repr

/-- The plan of one train. -/
structure Timetable where
  name : String
  /-- The train may run. -/
  go : Var
  /-- The known blocks in ascending order of their names. -/
  locations : List (String × Location) := []
  legs : List Leg := []
  /-- The names of the blocks where the train stays for good. -/
  stops : List String := []
  deriving DecidableEq, Repr

/-- An action that changes a timetable and the arena on which it runs. -/
abbrev Charting := EStateM Failure (Timetable × Arena)

namespace Timetable

/-- A timetable without moves. -/
def make (name : String) : Assembly Timetable := do
  let go ← Arena.external (qualify name "go")
  return { name, go }

/-- What the timetable knows of a block. -/
def location? (timetable : Timetable) (block : String) : Option Location :=
  (timetable.locations.find? (fun entry => entry.1 = block)).map (·.2)

/-- Adds a location behind all locations of smaller names. -/
def insertLocation (block : String) (location : Location) :
    List (String × Location) → List (String × Location)
  | [] => [(block, location)]
  | first :: rest =>
      if first.1 < block then first :: insertLocation block location rest
      else (block, location) :: first :: rest

/-- Runs an action on the arena alone. -/
def onArena {α : Type} (action : Assembly α) : Charting α := fun (timetable, arena) =>
  match action arena with
  | .ok result arena => .ok result (timetable, arena)
  | .error failure arena => .error failure (timetable, arena)

/-- Changes the timetable alone. -/
def adjust (change : Timetable → Timetable) : Charting Unit :=
  modify fun (timetable, arena) => (change timetable, arena)

/-- Makes a block known to the timetable if it was not. -/
def enter (segment : Segment) : Charting Unit := do
  let (timetable, _) ← get
  match timetable.location? segment.name with
  | some _ => return ()
  | none =>
      let path := qualify timetable.name segment.name
      let here ← onArena (Arena.external (qualify path "permaloc"))
      let coming ← onArena (Arena.external (qualify path "routingloc"))
      let routeOut ← onArena (Arena.ask segment.routeOut)
      let location : Location := {
        here, coming
        detector := segment.detector
        requestGreen := segment.requestGreen
        routeOut }
      adjust fun timetable =>
        { timetable with
          locations := insertLocation segment.name location timetable.locations }

/-- Adds a move and gives the bit that tells whether it is under way. -/
def addLeg (source target : Segment) (guards : List (Var × Bool)) (client : Option Client)
    (turnouts : List (Motor × Position)) : Charting Var := do
  enter source
  enter target
  let (timetable, _) ← get
  let label := "active_" ++ toString timetable.legs.length
  let active ← onArena (Arena.external (qualify timetable.name label))
  let leg : Leg := {
    source := source.name, target := target.name, active, guards, client, turnouts }
  adjust fun timetable => { timetable with legs := timetable.legs ++ [leg] }
  return active

/-- Lets the train stay for good once it is in a block. -/
def stopAt (segment : Segment) : Charting Unit := do
  enter segment
  adjust fun timetable => { timetable with stops := timetable.stops ++ [segment.name] }

/-- Sets whether a restart forgets a train in a block that is found empty. -/
def setSensitive (segment : Segment) (sensitive : Bool) : Charting Unit := do
  enter segment
  adjust fun timetable =>
    { timetable with
      locations := timetable.locations.map fun (block, location) =>
        if block = segment.name then (block, { location with sensitive }) else (block, location) }

/-- What the rules need of a block that the timetable should know. -/
def berth (timetable : Timetable) (block : String) : Except Failure Berth :=
  match timetable.location? block with
  | some location => .ok (location.berth block)
  | none => .error (.breach .unknownBlock)

/-- The move that a leg stands for. -/
def move (timetable : Timetable) (leg : Leg) : Except Failure Move := do
  return {
    source := ← timetable.berth leg.source
    target := ← timetable.berth leg.target
    active := leg.active
    guards := leg.guards
    client := leg.client
    turnouts := leg.turnouts }

/-- The timetable with all its blocks looked up. -/
def schedule (timetable : Timetable) : Except Failure Schedule := do
  let stops ← timetable.stops.mapM timetable.berth
  let moves ← timetable.legs.mapM timetable.move
  return {
    name := timetable.name
    go := timetable.go
    berths := timetable.locations.map fun (block, location) => location.berth block
    moves
    stops
    sensitive := (timetable.locations.filter (·.2.sensitive)).map (·.1) }

/-- The automaton of a timetable. -/
def build (timetable : Timetable) (arena : Arena) : Except Failure Automaton := do
  let schedule ← timetable.schedule
  return schedule.automaton (Schedule.windowAfter arena.maxDebounceCycles)

end Timetable

end Interlocking
