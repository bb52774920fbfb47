import Interlocking.Reservation.Passage

/-!
# Straight pieces, signals and endpoints

All straight pieces reserve their passages in the same way, with one exception. A
signal does not wait to be asked for its passage from `a` to `b`: it asks for the route
itself when somebody wants it to show proceed, and it answers requests that arrive at
its side `a` without passing them on. An endpoint answers requests and makes none, since
its own request bit is driven from outside.
-/

namespace Interlocking

/-- Makes one bit follow another. -/
def copyRules (source target : Var) : List Rule := [
  { conditions := [.on source, .off target], actions := [.raise target] },
  { conditions := [.off source, .on target], actions := [.clear target] }]

/-- Makes the occupancy follow a raw bit that was stable for a window: every change of
the raw bit starts the timer anew, and only an expired timer lets the change through. -/
def filterRules (occupancy raw : Var) (window : UInt8) (shadow : Var) : List Rule := [
  { conditions := [.on raw, .off shadow]
    actions := [.raise shadow, .loadTimer window] },
  { conditions := [.off raw, .on shadow]
    actions := [.clear shadow, .loadTimer window] },
  { conditions := [.on shadow, .off occupancy, .timerExpired]
    actions := [.raise occupancy] },
  { conditions := [.off shadow, .on occupancy, .timerExpired]
    actions := [.clear occupancy] }]

namespace Straight

/-- Whether the occupancy is concluded from the next piece. -/
def simulated (straight : Straight) : Bool :=
  match straight.kind with
  | .short | .long => true
  | _ => false

/-- The straight piece as the reservation rules see it. -/
def site (straight : Straight) (occupancy : Var) : Site where
  occupancy
  seen := straight.seen
  simulated := straight.simulated
  position := none
  passages := [straight.ab, straight.ba]

end Straight

namespace Lane

/-- Answers a request that arrives at side `a` of a signal: the route ends here, unless
the opposite passage is in use. -/
def terminusRules (lane : Lane) (inlet : Handshake) : List Rule :=
  let asked : List Condition := [.on inlet.request, .off inlet.granted, .off inlet.denied]
  [ { conditions := asked ++ [.on lane.ba.route], actions := [.raise inlet.denied] },
    { conditions := asked ++ [.on lane.ba.pending], actions := [.raise inlet.denied] },
    { conditions := asked ++ [.off lane.ba.route, .off lane.ba.pending]
      actions := [.raise inlet.granted] }] ++
    answerResetRules inlet

/-- A signal may ask for the route behind it. -/
def originAllowed (lane : Lane) (request used : Var) : List Condition :=
  [.on request, .off lane.ab.route, .off lane.ab.pending, .off used,
    .off lane.ba.route, .off lane.ba.pending]

/-- Asks for the route behind a signal; after a refusal the signal tries again. -/
def originRules (lane : Lane) (request used : Var) : Option Outlet → List Rule
  | none => [
      { conditions := lane.originAllowed request used
        actions := [.raise lane.ab.route] }]
  | some { bits := out, .. } => [
      { conditions := lane.originAllowed request used ++
          [.off out.request, .off out.granted, .off out.denied]
        actions := [.raise lane.ab.pending, .raise out.request] },
      { conditions := [.on lane.ab.pending, .on out.request, .on out.granted]
        actions := [.raise lane.ab.route, .clear lane.ab.pending] },
      { conditions := [.on lane.ab.pending, .on out.request, .on out.denied]
        actions := [.clear lane.ab.pending, .clear out.request] }]

/-- What giving the route behind a signal up consists of. -/
def originRelease (lane : Lane) (outlet : Option Outlet) : List Action :=
  [Action.clear lane.ab.route, .clear lane.seen] ++
    match outlet with
    | some { bits := out, .. } => [Action.clear out.request, .raise out.released]
    | none => []

/-- The passage from `a` to `b` of a signal: asks for the route, gives it up after the
train has passed or when the request was withdrawn before, and then waits for the
request to be withdrawn before it asks again. -/
def signalRouteRules (lane : Lane) (occupancy request used : Var)
    (outlet : Option Outlet) : List Rule :=
  lane.originRules request used outlet ++
    [ { conditions := [.on lane.ab.route, .on lane.seen, .off occupancy]
        actions := .raise used :: lane.originRelease outlet },
      { conditions := [.on lane.ab.route, .off lane.seen, .off request]
        actions := lane.originRelease outlet },
      { conditions := [.on used, .off request]
        actions := [.clear used] }] ++
    releaseDoneRules outlet

/-- Shows proceed while it is wanted, the route is set and the piece behind is free. -/
def aspectRules (lane : Lane) (request aspect : Var) (next : Option Var) :
    List Rule :=
  let free := next.toList.map Condition.off
  [ { conditions := [.on request, .on lane.ab.route] ++ free ++ [.off aspect]
      actions := [.raise aspect] },
    { conditions := [.off request, .on aspect], actions := [.clear aspect] },
    { conditions := [.off lane.ab.route, .on aspect], actions := [.clear aspect] }] ++
    next.toList.map fun next =>
      { conditions := [.on next, .on aspect], actions := [.clear aspect] }

end Lane

namespace Straight

/-- The rules of a signal. -/
def signalBook (straight : Straight) (layout : Layout) (name : String)
    (occupancy request aspect used : Var) : RuleBook :=
  let site := straight.site occupancy
  let copied := (layout.neighbourOccupancy? straight.a).elim []
    fun approaching => copyRules approaching occupancy
  let terminus := (layout.inlet? straight.ab.entry).elim [] straight.terminusRules
  let outlet := layout.outlet? straight.ab.exit
  let book : RuleBook := { name }
  let book := book.contribute .occupancy copied
  let book := site.contributeTracking layout book
  let book := book.contribute .route terminus
  let book := book.contribute .route (straight.signalRouteRules occupancy request used outlet)
  let book := book.contribute .route (site.passageRules layout 1)
  book.contribute .aggregate
    (straight.aspectRules request aspect (layout.neighbourOccupancy? straight.b))

/-- The rules of a straight piece that is not a signal. -/
def trackBook (straight : Straight) (layout : Layout) (name : String) (occupancy : Var)
    (filter : List Rule) : RuleBook :=
  let site := straight.site occupancy
  let book : RuleBook := { name }
  let book := book.contribute .occupancy filter
  site.contributePassages layout (site.contributeTracking layout book)

/-- The rules of a straight piece. -/
def book (straight : Straight) (layout : Layout) (name : String) (occupancy : Var) :
    RuleBook :=
  match straight.kind with
  | .signal request aspect used =>
      straight.signalBook layout name occupancy request aspect used
  | .filtered raw window shadow =>
      straight.trackBook layout name occupancy (filterRules occupancy raw window shadow)
  | .short | .long | .detector _ => straight.trackBook layout name occupancy []

end Straight

/-- Answers every request that arrives at an endpoint: it is granted unless the endpoint
itself asks for a route in the opposite direction. -/
def endpointRules (own inlet : Handshake) : List Rule :=
  let asked : List Condition := [.on inlet.request, .off inlet.granted, .off inlet.denied]
  [ { conditions := asked ++ [.on own.request], actions := [.raise inlet.denied] },
    { conditions := asked ++ [.off own.request], actions := [.raise inlet.granted] }] ++
    answerResetRules inlet

/-- The rules of an endpoint. -/
def endpointBook (layout : Layout) (name : String) (side : SideId) : RuleBook :=
  let book : RuleBook := { name }
  match layout.side? side, layout.inlet? side with
  | some own, some inlet => book.contribute .route (endpointRules own.bits inlet)
  | _, _ => book

end Interlocking
