import Interlocking.Reservation.Passage

/-!
# Turnouts

A request that enters a movable turnout at the points is for the passage that its
position selects; one that enters at a branch to which the turnout is not set is
refused. The commanded position is taken over only while no passage is in use. A fixed
turnout refuses every request at its dead branch.
-/

namespace Interlocking.Turnout

/-- The turnout as the reservation rules see it. -/
def site (turnout : Turnout) (occupancy : Var) : Site where
  occupancy
  seen := turnout.seen
  simulated := true
  position :=
    match turnout.kind with
    | .movable _ position _ => some position
    | .fixed _ => none
  passages := turnout.passages

/-- The bits that are set while some passage is in use: the routes, then the pending
marks. -/
def held (passages : List Passage) : List Var :=
  passages.map (·.route) ++ passages.map (·.pending)

/-- Makes `anyRoute` tell whether any passage is in use. -/
def anyRouteRules (passages : List Passage) (anyRoute : Var) : List Rule :=
  (held passages).map (fun bit =>
    { conditions := [.on bit, .off anyRoute], actions := [.raise anyRoute] }) ++
    [ { conditions := (held passages).map Condition.off ++ [.on anyRoute]
        actions := [.clear anyRoute] }]

/-- Refuses every request that arrives at the dead branch. -/
def deadBranchRules (inlet : Handshake) : List Rule :=
  { conditions := [.on inlet.request, .off inlet.granted, .off inlet.denied]
    actions := [.raise inlet.denied] } :: answerResetRules inlet

/-- Takes the commanded position over while no passage is in use, and drives the motor. -/
def motorRules (motor : Motor) (position anyRoute : Var) : List Rule := [
  { conditions := [.off anyRoute, .on motor.command, .off position]
    actions := [.raise position] },
  { conditions := [.off anyRoute, .off motor.command, .on position]
    actions := [.clear position] },
  { conditions := [.on position, .off motor.current]
    actions := [.raise motor.current] },
  { conditions := [.off position, .on motor.current]
    actions := [.clear motor.current] }]

/-- The branch to which a fixed turnout never leads. -/
def deadSide (turnout : Turnout) : Position → SideId
  | .closed => turnout.thrown
  | .thrown => turnout.closed

/-- The rules of a turnout. -/
def book (turnout : Turnout) (layout : Layout) (name : String) (occupancy : Var) :
    RuleBook :=
  let site := turnout.site occupancy
  let tracking := site.contributeTracking layout { name }
  let book := site.contributePassages layout tracking
  match turnout.kind with
  | .fixed position =>
      book.contribute .route
        ((layout.inlet? (turnout.deadSide position)).elim [] deadBranchRules)
  | .movable motor position anyRoute =>
      (book.contribute .aggregate (anyRouteRules turnout.passages anyRoute)).contribute .copyState
        (motorRules motor position anyRoute)

end Interlocking.Turnout
