import Interlocking.Schedule.Basic

/-!
# The rules of a schedule

One move runs at a time, and its `active` bit selects its rules. The state register
goes through the stages of the move:

`recovering → base → waiting → ready → (permission → recheck →) turnouts →
requestGreen → greenWait → startTrain → moving → stopTrain → done → base`

The stages in parentheses exist only for a move that needs a permission. `recovering`
lasts one filter window after power-on, so that what the train's bits say is compared
with detectors that have settled.
-/

namespace Interlocking.Schedule

/-- A stage of the plan, besides the power-on state and the resting state. -/
inductive Stage where
  /-- No move is possible yet. -/
  | waiting
  /-- A move was picked. -/
  | ready
  /-- The permission was asked for. -/
  | permission
  /-- The permission is there, and the guards are looked at again. -/
  | recheck
  /-- The turnouts are being set. -/
  | turnouts
  /-- The signal is about to be asked for proceed. -/
  | requestGreen
  /-- The route out of the block is being reserved. -/
  | greenWait
  /-- The train is about to be released. -/
  | startTrain
  /-- The train runs to its target. -/
  | moving
  /-- The train has arrived, or stays for good. -/
  | stopTrain
  /-- The move is being cleaned up. -/
  | done
  /-- The occupancy is settling after a restart. -/
  | recovering
  deriving DecidableEq, Repr

/-- The value of the state register at a stage. -/
def Stage.state : Stage → State
  | .waiting => ⟨2⟩
  | .ready => ⟨3⟩
  | .permission => ⟨4⟩
  | .recheck => ⟨5⟩
  | .turnouts => ⟨6⟩
  | .requestGreen => ⟨7⟩
  | .greenWait => ⟨8⟩
  | .startTrain => ⟨9⟩
  | .moving => ⟨10⟩
  | .stopTrain => ⟨11⟩
  | .done => ⟨12⟩
  | .recovering => ⟨13⟩

/-- The conditions that a list of bits and values stands for. -/
def holding (bits : List (Var × Bool)) : List Condition :=
  bits.map fun (var, value) => .bit var value

/-- The active move is at a stage. -/
def during (move : Move) (stage : Stage) : List Condition :=
  [.inState stage.state, .on move.active]

/-- Goes to a stage. -/
def advance (stage : Stage) : Action := .goto stage.state

/-- Picks the move when the train is in its source and the guards hold. -/
def pickRule (move : Move) : Rule where
  conditions := [.inState Stage.waiting.state, .on move.source.here] ++ holding move.guards
  actions := [.raise move.active, .raise move.target.coming, advance .ready]

/-- Asks for the permission of the move, if it needs one, and drops the move again when a
guard has failed in the meantime. -/
def permissionRules (move : Move) : Option Client → List Rule
  | none => [
      { conditions := during move .ready, actions := [advance .turnouts] }]
  | some client => [
      { conditions := during move .ready
        actions := [.raise client.request, advance .permission] },
      { conditions := during move .permission ++ [.on client.granted]
        actions := [advance .recheck] },
      { conditions := during move .recheck ++ holding move.guards
        actions := [advance .turnouts] }] ++
      move.guards.map fun (var, value) => {
        conditions := during move .recheck ++ [.bit var (!value)]
        actions := [.clear client.request, .clear move.target.coming, .clear move.active,
          advance .waiting] }

/-- Commands the turnouts of the move and waits until their motors report back. -/
def turnoutRules (move : Move) : List Rule :=
  let commands := move.turnouts.map fun (motor, position) => Action.set motor.command position.bit
  let reports := move.turnouts.map fun (motor, position) => (motor.current, position.bit)
  let proceed : Rule :=
    { conditions := during move .turnouts ++ holding reports
      actions := [advance .requestGreen] }
  if move.turnouts = [] then [proceed]
  else [{ conditions := during move .turnouts, actions := commands }, proceed]

/-- What releasing the train says to the arbiter. -/
def permissionUsed : Option Client → List Action
  | none => []
  | some client => [.raise client.taken, .clear client.request]

/-- Takes the train from the signal of its source to the detector of its target. -/
def travelRules (schedule : Schedule) (move : Move) : List Rule := [
  { conditions := during move .requestGreen
    actions := [.raise move.source.requestGreen, advance .greenWait] },
  { conditions := during move .greenWait ++ [.on move.source.routeOut]
    actions := [advance .startTrain] },
  { conditions := during move .startTrain
    actions := [.raise schedule.go, .raise move.target.here, .clear move.source.here] ++
      permissionUsed move.client ++ [advance .moving] },
  { conditions := during move .moving ++ [.on move.target.detector]
    actions := [.clear schedule.go, advance .stopTrain] },
  { conditions := during move .stopTrain ++ [.off move.source.routeOut]
    actions := [.clear move.source.requestGreen, advance .done] },
  { conditions := during move .done
    actions := [.clear move.active, .clear move.target.coming, .goto .base] }]

/-- All rules of a move. -/
def moveRules (schedule : Schedule) (move : Move) : List Rule :=
  pickRule move :: (permissionRules move move.client ++ turnoutRules move ++
    travelRules schedule move)

/-- Keeps the train for good in a block where it stops. -/
def stopRule (schedule : Schedule) (stop : Berth) : Rule where
  conditions := [.inState .base, .on stop.here]
  actions := [.clear schedule.go, advance .stopTrain]

/-- The sources of the moves, each once, in the order of its first move. -/
def sources (schedule : Schedule) : List Berth :=
  schedule.moves.foldl
    (fun sources move =>
      if sources.any (fun berth => berth.block = move.source.block) then sources
      else sources ++ [move.source])
    []

/-- Starts to look for a move in a block from which there is one. -/
def waitRule (source : Berth) : Rule where
  conditions := [.inState .base, .on source.here]
  actions := [advance .waiting]

/-- The rules of the plan itself. -/
def planRules (schedule : Schedule) : List Rule :=
  schedule.stops.map schedule.stopRule ++ schedule.sources.map waitRule ++
    schedule.moves.flatMap schedule.moveRules

/-- Forgets a train that a sensitive block does not show after a restart, unless the
train is still being routed into the block. -/
def forgetRules (schedule : Schedule) : List Rule :=
  (schedule.berths.filter schedule.isSensitive).map fun berth => {
    conditions := [.inState Stage.recovering.state, .timerExpired,
      .on berth.here, .off berth.coming, .off berth.detector]
    actions := [.clear berth.here] }

/-- Clears what a restart left over and waits for `window` passes before the plan starts. -/
def restartRules (schedule : Schedule) (window : UInt8) : List Rule :=
  schedule.forgetRules ++ [
    { conditions := [.inState Stage.recovering.state, .timerExpired]
      actions := schedule.berths.map (fun berth => .clear berth.coming) ++ [.goto .base] },
    { conditions := [.inState .initial]
      actions := .clear schedule.go :: (schedule.moves.map (fun move => .clear move.active) ++
        [.loadTimer window, advance .recovering]) }]

/-- One pass more than the slowest filter, as far as a timer can count. -/
def windowAfter (slowest : UInt8) : UInt8 := UInt8.ofNat (min 255 (slowest.toNat + 1))

/-- How long a schedule waits after a restart. -/
def recoveryWindow (layout : Layout) : UInt8 := windowAfter layout.maxDebounceCycles

/-- The automaton of a schedule that waits for `window` passes after a restart. -/
def automaton (schedule : Schedule) (window : UInt8) : Automaton :=
  let book : RuleBook := { name := schedule.name }
  ((book.contribute .schedule schedule.planRules).contribute .init
    (schedule.restartRules window)).build

/-- The automaton of a schedule on a layout. -/
def build (schedule : Schedule) (layout : Layout) : Automaton :=
  schedule.automaton (recoveryWindow layout)

end Interlocking.Schedule
