import Interlocking.Arena.Basic
import Interlocking.Layout.Automata

/-!
# The automata of an arena

Every element becomes one automaton, in the order of the elements. The rules are written from the
records of the element and of what is joined to it. A bit that is missing stops the work with a
defect, and so does a place outside a list with a breach.
-/

namespace Interlocking

namespace Arena

/-- The bits with which the neighbour at a side asks for a passage that enters there. -/
def inlet (arena : Arena) (entry : SideId) : Except Failure (Option Handshake) := do
  match ← arena.mate entry with
  | none => return none
  | some mate => return some (← arena.side mate).bits

/-- The outlet at a side, if it is joined to another. -/
def outlet (arena : Arena) (exit : SideId) : Except Failure (Option Outlet) := do
  let side ← arena.side exit
  return (← arena.neighbourOccupancy exit).map fun occupancy => { bits := side.bits, occupancy }

end Arena

namespace Site

/-- Looks out for the train behind all exits that lead somewhere. -/
def seenRulesIn (site : Site) (arena : Arena) : Except Failure (List Rule) := do
  let rules ← site.passages.mapM fun passage => do
    return (← arena.neighbourOccupancy passage.exit).map (site.seenRule passage)
  return rules.reduceOption

/-- All rules of the passage at `index`; a passage whose entry is not joined to anything
can never be asked for and has none. -/
def passageRulesIn (site : Site) (arena : Arena) (index : Nat) : Except Failure (List Rule) := do
  match site.passages[index]? with
  | none => throw (.breach .missingPassage)
  | some passage =>
      match ← arena.inlet passage.entry with
      | none => return []
      | some inlet =>
          return site.handshakeRules index passage inlet (← arena.outlet passage.exit)

/-- Enters what every element with passages needs before its reservations. -/
def contributeTrackingIn (site : Site) (arena : Arena) (book : RuleBook) :
    Except Failure RuleBook := do
  return (book.contribute .detectorProxy (← site.seenRulesIn arena)).contribute .clear
    site.clearRules

/-- Enters the reservation rules of all passages in order. -/
def contributePassagesIn (site : Site) (arena : Arena) (book : RuleBook) :
    Except Failure RuleBook :=
  (List.range site.passages.length).foldlM
    (fun book index => return book.contribute .route (← site.passageRulesIn arena index)) book

end Site

namespace Element

/-- The element as the reservation rules see it. -/
def site (element : Element) (simulated : Bool) : Except Failure Site := do
  return {
    occupancy := element.occupancy
    seen := ← element.seenLatch
    simulated
    position := element.position
    passages := element.passages }

/-- The two ways along a straight element. -/
def lane (element : Element) : Except Failure Lane := do
  let ab ← element.passage 0
  let ba ← element.passage 1
  return { seen := ← element.seenLatch, ab, ba }

/-- The rules of a signal. -/
def signalBook (element : Element) (arena : Arena) (request aspect : Var) :
    Except Failure RuleBook := do
  let copied := (← arena.neighbourOccupancy (← element.side 0)).elim []
    fun approaching => copyRules approaching element.occupancy
  let book : RuleBook := { name := element.name }
  let book := book.contribute .occupancy copied
  let site ← element.site false
  let book ← site.contributeTrackingIn arena book
  let lane ← element.lane
  let terminus := (← arena.inlet lane.ab.entry).elim [] lane.terminusRules
  let book := book.contribute .route terminus
  let used ← element.helperBit
  let outlet ← arena.outlet lane.ab.exit
  let book := book.contribute .route (lane.signalRouteRules element.occupancy request used outlet)
  let book := book.contribute .route (← site.passageRulesIn arena 1)
  let next ← arena.neighbourOccupancy (← element.side 1)
  return book.contribute .aggregate (lane.aspectRules request aspect next)

/-- The rules of a straight element that is not a signal. -/
def trackBook (element : Element) (arena : Arena) (simulated : Bool) (filter : List Rule) :
    Except Failure RuleBook := do
  let book : RuleBook := { name := element.name }
  let book := book.contribute .occupancy filter
  let site ← element.site simulated
  site.contributePassagesIn arena (← site.contributeTrackingIn arena book)

/-- The rules of a straight element. -/
def straightBook (element : Element) (arena : Arena) (track : TrackKind) :
    Except Failure RuleBook := do
  match track with
  | .signal request aspect => element.signalBook arena request aspect
  | .filtered raw window =>
      let shadow ← element.helperBit
      element.trackBook arena track.simulated (filterRules element.occupancy raw window shadow)
  | .short | .long | .detector _ => element.trackBook arena track.simulated []

/-- A bit without which an element is no movable turnout. -/
def driveBit (element : Element) (bit : Option Var) : Except Failure Var :=
  match bit with
  | some var => .ok var
  | none => .error (.defect (.notTurnout element.name))

/-- The branch to which a fixed turnout never leads. -/
def deadSide (element : Element) : Position → Except Failure SideId
  | .closed => element.side (Blades.branch .thrown)
  | .thrown => element.side (Blades.branch .closed)

/-- The rules of a turnout. -/
def turnoutBook (element : Element) (arena : Arena) (drive : DriveKind) :
    Except Failure RuleBook := do
  let site ← element.site true
  let tracking ← site.contributeTrackingIn arena { name := element.name }
  let book ← site.contributePassagesIn arena tracking
  match drive with
  | .fixed position =>
      let inlet ← arena.inlet (← element.deadSide position)
      return book.contribute .route (inlet.elim [] Turnout.deadBranchRules)
  | .movable motor =>
      let position ← element.driveBit element.position
      let anyRoute ← element.driveBit element.anyRoute
      let summary := Turnout.anyRouteRules element.passages anyRoute
      return (book.contribute .aggregate summary).contribute .copyState
        (Turnout.motorRules motor position anyRoute)

/-- The rules of an endpoint. -/
def endpointBook (element : Element) (arena : Arena) : Except Failure RuleBook := do
  let book : RuleBook := { name := element.name }
  let side ← element.side 0
  match ← arena.inlet side with
  | none => return book
  | some inlet =>
      return book.contribute .route (endpointRules (← arena.side side).bits inlet)

/-- The automaton of an element. -/
def automaton (element : Element) (arena : Arena) : Except Failure Automaton := do
  let book ← match element.kind with
    | .straight track => element.straightBook arena track
    | .turnout drive => element.turnoutBook arena drive
    | .endpoint => element.endpointBook arena
  return book.build

end Element

/-- The automata of all elements. -/
def Arena.automata (arena : Arena) : Except Failure (List Automaton) :=
  arena.elements.toList.mapM (·.automaton arena)

end Interlocking
