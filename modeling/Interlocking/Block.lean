import Interlocking.Layout.Joining

/-!
# Blocks

A block is the unit on which trains are scheduled: an approach longer than a train, a
body with a detector where the train stops, and a signal that protects the exit. The
three pieces are joined in this order when the block is made.
-/

namespace Interlocking

/-- An approach, a body and a signal in sequence. -/
structure Block where
  name : String
  approach : PieceId
  body : PieceId
  signalPiece : PieceId
  /-- The body is occupied. -/
  detector : Var
  /-- Somebody wants the signal to show proceed. -/
  requestGreen : Var
  /-- The aspect of the signal. -/
  signal : Var
  /-- The approach is reserved for a train that enters. -/
  routeIn : Var
  /-- The way out past the signal is reserved. -/
  routeOut : Var
  deriving DecidableEq, Repr

namespace Block

/-- Adds the signal of a block and joins its pieces. -/
def finish (name : String) (approach body : PieceId) (detector : Var) : Build Block := do
  let requestGreen ← Layout.external (qualify name "request_green")
  let signal ← Layout.external (qualify name "signal")
  let signalPiece ← Layout.addSignal (qualify name "signal_piece") requestGreen signal
  Layout.joinRuns [.ofPiece approach, .ofPiece body, .ofPiece signalPiece]
  let entrance ← Layout.ask (·.straight approach)
  let exit ← Layout.ask (·.straight signalPiece)
  return {
    name, approach, body, signalPiece, detector, requestGreen, signal
    routeIn := entrance.ab.route
    routeOut := exit.ab.route }

/-- Makes a block that is watched by an external detector bit. -/
def make (name : String) : Build Block := do
  let detector ← Layout.external (qualify name "detector")
  let approach ← Layout.addLong (qualify name "approach")
  let body ← Layout.addDetector (qualify name "body") detector
  finish name approach body detector

/-- Makes a block whose occupancy is filtered from a raw sensor bit over the layout's
usual window. -/
def makeFiltered (name : String) : Build Block := do
  let raw ← Layout.external (qualify name "raw")
  let approach ← Layout.addLong (qualify name "approach")
  let window := (← get).debounceCycles
  let body ← Layout.addFiltered (qualify name "body") raw window
  let piece ← Layout.ask (·.piece body)
  finish name approach body piece.occupancy

end Block

end Interlocking
