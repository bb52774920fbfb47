import Interlocking.Automaton
import Interlocking.Layout.Basic

/-!
# Reserving a passage

The rules by which a piece reserves one of its passages. They follow a handshake with
the two neighbours of the passage:

1. the neighbour at the entry raises its request;
2. the piece refuses, because it is occupied, because another of its passages is in use
   or because its turnout stands wrong, or it marks the passage as pending and passes
   the request on through the exit;
3. the answer from the exit is handed back: a grant sets the route, a refusal drops the
   pending mark;
4. when the train has passed, or when the request was withdrawn before a train came,
   the route is given up and the neighbour at the exit is told.

The refusals stand before the acceptance, and an acceptance marks its passage at once,
so that the rules of the other passages that follow in the same pass already see it.
-/

namespace Interlocking

/-- What the reservation rules need to know of a piece. -/
structure Site where
  occupancy : Var
  /-- The train was seen in the next piece. -/
  seen : Var
  /-- Whether the occupancy is concluded from the next piece and not measured. -/
  simulated : Bool
  /-- The position bit, if the piece is a turnout that can move. -/
  position : Option Var
  passages : List Passage
  deriving DecidableEq, Repr

/-- An exit that leads somewhere: the bits of the exit's own side and the occupancy of
the piece behind it. -/
structure Outlet where
  bits : Handshake
  occupancy : Var
  deriving DecidableEq, Repr

namespace Layout

/-- The bits with which the neighbour at a side asks for a passage that enters there. -/
def inlet? (layout : Layout) (entry : SideId) : Option Handshake :=
  layout.mate? entry >>= layout.side? |>.map (·.bits)

/-- The outlet at a side that is joined to another. -/
def outlet? (layout : Layout) (exit : SideId) : Option Outlet := do
  let side ← layout.side? exit
  let occupancy ← layout.neighbourOccupancy? exit
  return { bits := side.bits, occupancy }

end Layout

/-- Takes an answer back once its request was withdrawn or its route was released. -/
def answerResetRules (inlet : Handshake) : List Rule := [
  { conditions := [.on inlet.released, .on inlet.granted]
    actions := [.clear inlet.granted] },
  { conditions := [.off inlet.request, .on inlet.granted]
    actions := [.clear inlet.granted] },
  { conditions := [.off inlet.request, .on inlet.denied]
    actions := [.clear inlet.denied] }]

/-- Stops announcing a release once the grant from the exit is gone. -/
def releaseDoneRules : Option Outlet → List Rule
  | none => []
  | some outlet => [
      { conditions := [.on outlet.bits.released, .off outlet.bits.granted]
        actions := [.clear outlet.bits.released] }]

namespace Site

/-- Notes that the train has reached the piece behind the exit of a reserved passage,
which is also when a simulated piece counts as occupied. -/
def seenRule (site : Site) (passage : Passage) (next : Var) : Rule where
  conditions := [.on passage.route, .on next, .off site.seen]
  actions := .raise site.seen :: (if site.simulated then [.raise site.occupancy] else [])

/-- Looks out for the train behind all exits that lead somewhere. -/
def seenRules (site : Site) (layout : Layout) : List Rule :=
  site.passages.filterMap fun passage =>
    (layout.neighbourOccupancy? passage.exit).map (site.seenRule passage)

/-- Forgets the train once no passage is reserved. -/
def clearRules (site : Site) : List Rule :=
  let idle := site.passages.map fun passage => Condition.off passage.route
  { conditions := idle ++ [.on site.seen], actions := [.clear site.seen] } ::
    (if site.simulated then
      [{ conditions := idle ++ [.on site.occupancy], actions := [.clear site.occupancy] }]
    else [])

/-- The passages other than the one at `index`. -/
def rivals (site : Site) (index : Nat) : List Passage := site.passages.eraseIdx index

/-- The bits that are set while a rival of the passage at `index` is in use. -/
def conflicts (site : Site) (index : Nat) : List Var :=
  (site.rivals index).flatMap fun rival => [rival.route, rival.pending]

/-- Whether another passage starts where the passage at `index` starts. -/
def sharesEntry (site : Site) (index : Nat) (passage : Passage) : Bool :=
  (site.rivals index).any fun rival => rival.entry = passage.entry

/-- The position bit and the value that a passage needs it to have. -/
def required? (site : Site) (passage : Passage) : Option (Var × Bool) := do
  let position ← passage.position
  let var ← site.position
  return (var, position.bit)

/-- The position that selects the passage at `index` among those with the same entry. -/
def selector (site : Site) (index : Nat) (passage : Passage) : List Condition :=
  match site.sharesEntry index passage, site.required? passage with
  | true, some (var, value) => [.bit var value]
  | _, _ => []

/-- The position without which the passage at `index` has to be refused. -/
def demand? (site : Site) (index : Nat) (passage : Passage) : Option (Var × Bool) :=
  if site.sharesEntry index passage then none else site.required? passage

/-- A request for the passage at `index` is there and was not dealt with yet. -/
def asked (site : Site) (index : Nat) (passage : Passage) (inlet : Handshake) :
    List Condition :=
  [Condition.on inlet.request, .off inlet.granted, .off inlet.denied,
    .off passage.pending, .off passage.route] ++ site.selector index passage

/-- Refuses a request while the piece is occupied, a rival is in use or the turnout
stands wrong. -/
def denyRules (site : Site) (index : Nat) (passage : Passage) (inlet : Handshake) :
    List Rule :=
  let deny (reason : Condition) : Rule :=
    { conditions := site.asked index passage inlet ++ [reason]
      actions := [.raise inlet.denied] }
  deny (.on site.occupancy) ::
    ((site.conflicts index).map (fun bit => deny (.on bit)) ++
      match site.demand? index passage with
      | some (var, value) => [deny (.bit var (!value))]
      | none => [])

/-- A request can be accepted. -/
def acceptable (site : Site) (index : Nat) (passage : Passage) (inlet : Handshake) :
    List Condition :=
  site.asked index passage inlet ++ [Condition.off site.occupancy] ++
    (site.conflicts index).map Condition.off ++
    match site.demand? index passage with
    | some (var, value) => [Condition.bit var value]
    | none => []

/-- Accepts a request: at the end of the track the route is set at once, elsewhere the
request is passed on and the answer handed back. -/
def acceptRules (site : Site) (index : Nat) (passage : Passage) (inlet : Handshake) :
    Option Outlet → List Rule
  | none => [
      { conditions := site.acceptable index passage inlet
        actions := [.raise passage.route, .raise inlet.granted] }]
  | some { bits := out, .. } => [
      { conditions := site.acceptable index passage inlet ++
          [.off out.request, .off out.granted, .off out.denied]
        actions := [.raise passage.pending, .raise out.request] },
      { conditions := [.on passage.pending, .on out.request, .on out.granted]
        actions := [.raise passage.route, .clear passage.pending, .raise inlet.granted] },
      { conditions := [.on passage.pending, .on out.request, .on out.denied]
        actions := [.clear passage.pending, .clear out.request, .raise inlet.denied] }]

/-- What giving a route up consists of. -/
def releaseActions (site : Site) (passage : Passage) (outlet : Option Outlet) :
    List Action :=
  [Action.clear passage.route, .clear site.seen] ++
    (if site.simulated then [Action.clear site.occupancy] else []) ++
    match outlet with
    | some { bits := out, .. } => [Action.clear out.request, .raise out.released]
    | none => []

/-- Gives a route up after the train has passed: a measured piece has become free, and
the train has left the piece behind a simulated one. -/
def passedRules (site : Site) (passage : Passage) (outlet : Option Outlet) : List Rule :=
  let release (freed : Var) : Rule :=
    { conditions := [.on passage.route, .on site.seen, .off freed]
      actions := site.releaseActions passage outlet }
  if site.simulated then
    match outlet with
    | some { occupancy := next, .. } => [release next]
    | none => []
  else [release site.occupancy]

/-- Gives a route up that was withdrawn before a train came. -/
def withdrawnRule (site : Site) (passage : Passage) (inlet : Handshake)
    (outlet : Option Outlet) : Rule where
  conditions := [.on passage.route, .off site.seen, .off site.occupancy, .off inlet.request]
  actions := site.releaseActions passage outlet

/-- All rules of the passage at `index`, given the neighbours at its ends. -/
def handshakeRules (site : Site) (index : Nat) (passage : Passage) (inlet : Handshake)
    (outlet : Option Outlet) : List Rule :=
  site.denyRules index passage inlet ++
    site.acceptRules index passage inlet outlet ++
    answerResetRules inlet ++
    site.passedRules passage outlet ++
    [site.withdrawnRule passage inlet outlet] ++
    releaseDoneRules outlet

/-- All rules of the passage at `index`; a passage whose entry is not joined to anything
can never be asked for and has none. -/
def passageRules (site : Site) (layout : Layout) (index : Nat) : List Rule :=
  match site.passages[index]? with
  | none => []
  | some passage =>
      match layout.inlet? passage.entry with
      | none => []
      | some inlet =>
          site.handshakeRules index passage inlet (layout.outlet? passage.exit)

/-- Enters what every piece with passages needs before its reservations. -/
def contributeTracking (site : Site) (layout : Layout) (book : RuleBook) : RuleBook :=
  (book.contribute .detectorProxy (site.seenRules layout)).contribute .clear site.clearRules

/-- Enters the reservation rules of all passages in order. -/
def contributePassages (site : Site) (layout : Layout) (book : RuleBook) : RuleBook :=
  (List.range site.passages.length).foldl
    (fun book index => book.contribute .route (site.passageRules layout index)) book

end Site

end Interlocking
