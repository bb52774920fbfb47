import Interlocking.Arbiter
import Interlocking.Block

/-!
# Schedules

A schedule takes one train through a set of moves from block to block. For each block
that it knows it keeps two bits: `here` says that the train is in the block and is meant
to survive a restart, `coming` marks the block to which the train is being routed.
-/

namespace Interlocking

/-- A block as a schedule sees it. -/
structure Berth where
  /-- The name of the block. -/
  block : String
  /-- The train is in the block. -/
  here : Var
  /-- The train is being routed into the block. -/
  coming : Var
  detector : Var
  requestGreen : Var
  routeOut : Var
  deriving DecidableEq, Repr

/-- A move from one block to another. -/
structure Move where
  source : Berth
  target : Berth
  /-- The move is under way. -/
  active : Var
  /-- What must hold before the train leaves. -/
  guards : List (Var × Bool) := []
  /-- The permission that the move needs. -/
  client : Option Client := none
  /-- How turnouts must stand before the train leaves. -/
  turnouts : List (Motor × Position) := []
  deriving DecidableEq, Repr

/-- The plan of one train. -/
structure Schedule where
  name : String
  /-- The train may run. -/
  go : Var
  /-- The known blocks in ascending order of their names. -/
  berths : List Berth := []
  moves : List Move := []
  /-- Where the train stays for good. -/
  stops : List Berth := []
  /-- The names of the blocks in which a restart forgets the train if they are found
  empty. -/
  sensitive : List String := []
  deriving DecidableEq, Repr

namespace Schedule

/-- A schedule without moves. -/
def make (name : String) : Build Schedule := do
  let go ← Layout.external (qualify name "go")
  return { name, go }

/-- What the schedule knows of a block. -/
def berth? (schedule : Schedule) (block : String) : Option Berth :=
  schedule.berths.find? (fun berth => berth.block = block)

/-- Whether a restart forgets the train in a block that is found empty. -/
def isSensitive (schedule : Schedule) (berth : Berth) : Bool :=
  schedule.sensitive.contains berth.block

/-- Adds a berth behind all berths of smaller names. -/
def insertBerth (berth : Berth) : List Berth → List Berth
  | [] => [berth]
  | first :: rest =>
      if first.block < berth.block then first :: insertBerth berth rest
      else berth :: first :: rest

/-- An action that changes a schedule and the layout on which it runs. -/
abbrev Planning := EStateM Failure (Schedule × Layout)

/-- Runs an action on the layout alone. -/
def onLayout {α : Type} (action : Build α) : Planning α := fun (schedule, layout) =>
  match action layout with
  | .ok result layout => .ok result (schedule, layout)
  | .error failure layout => .error failure (schedule, layout)

/-- Changes the schedule alone. -/
def adjust (change : Schedule → Schedule) : Planning Unit :=
  modify fun (schedule, layout) => (change schedule, layout)

/-- The berth of a block, which becomes known to the schedule if it was not. -/
def enter (block : Block) : Planning Berth := do
  let (schedule, _) ← get
  match schedule.berth? block.name with
  | some berth => return berth
  | none =>
      let path := qualify schedule.name block.name
      let here ← onLayout (Layout.external (qualify path "permaloc"))
      let coming ← onLayout (Layout.external (qualify path "routingloc"))
      let berth : Berth := {
        block := block.name, here, coming
        detector := block.detector
        requestGreen := block.requestGreen
        routeOut := block.routeOut }
      adjust fun schedule => { schedule with berths := insertBerth berth schedule.berths }
      return berth

/-- Adds a move and gives the bit that tells whether it is under way. -/
def addMove (source target : Block) (guards : List (Var × Bool)) (client : Option Client)
    (turnouts : List (Motor × Position)) : Planning Var := do
  let source ← enter source
  let target ← enter target
  let (schedule, _) ← get
  let label := "active_" ++ toString schedule.moves.length
  let active ← onLayout (Layout.external (qualify schedule.name label))
  let move : Move := { source, target, active, guards, client, turnouts }
  adjust fun schedule => { schedule with moves := schedule.moves ++ [move] }
  return active

/-- Lets the train stay for good once it is in a block. -/
def stopAt (block : Block) : Planning Unit := do
  let berth ← enter block
  adjust fun schedule => { schedule with stops := schedule.stops ++ [berth] }

/-- Sets whether a restart forgets a train in a block that is found empty. -/
def setSensitive (block : Block) (sensitive : Bool) : Planning Unit := do
  let _ ← enter block
  adjust fun schedule =>
    let others := schedule.sensitive.filter (· ≠ block.name)
    { schedule with sensitive := if sensitive then block.name :: others else others }

end Schedule

end Interlocking
