/-!
# Failures

Two things can go wrong when a layout is described or run. A *defect* is a mistake in
the description that the library detects and names in words. A *breach* is a request
outside the library's domain, such as an identifier that was never handed out or an
address past the machine word; it carries no words, because nothing sensible can be
said about the layout in that case.
-/

namespace Interlocking

/-- A mistake in a layout description, with what is needed to report it. -/
inductive Defect where
  /-- A scope has fewer addresses left than were requested. -/
  | overrun (scope caller : String) (requested remaining : UInt32)
  /-- A configured name exceeds its capacity in bytes. -/
  | nameTooLong (name : String) (limit : Nat)
  /-- Two variables, two pieces or two automata share a name. -/
  | duplicateName (name : String)
  /-- No piece of the layout has this number. -/
  | unknownPiece (index : Nat)
  /-- A side that must have a neighbour has none. -/
  | unbound (piece side : String)
  /-- A side was joined a second time, or to itself. -/
  | alreadyBound (piece side : String)
  /-- A piece without an `a` and a `b` side was used as a run of track. -/
  | notStraight (piece : String)
  /-- A piece without branches was asked for one. -/
  | notTurnout (piece : String)
  /-- No detector can be reached from a side. -/
  | noDetector (piece side : String)
  /-- The search for a detector went around a loop. -/
  | lookupCycle (piece : String)
  /-- An automaton needs more states than its register can tell apart. -/
  | stateOverflow (automaton : String)
  /-- The rules of a piece need a bit that the piece does not have. -/
  | missingVariable (piece bit : String)
  /-- A permission server has nobody to serve. -/
  | noClients (server : String)
  deriving DecidableEq, Repr

/-- The words in which a defect is reported. -/
def Defect.message : Defect → String
  | .overrun scope caller requested remaining =>
      s!"allocator '{scope}' overrun reserving {requested} entries for '{caller}' ({remaining} left)"
  | .nameTooLong name limit => s!"name '{name}' is longer than {limit} bytes"
  | .duplicateName name => s!"duplicate identifier '{name}'"
  | .unknownPiece index => s!"unknown element #{index}"
  | .unbound piece side => s!"interface '{piece}.{side}' is not bound"
  | .alreadyBound piece side => s!"interface '{piece}.{side}' is already bound or self-bound"
  | .notStraight piece =>
      s!"element '{piece}' is not a straight piece and cannot be sequence-bound"
  | .notTurnout piece => s!"element '{piece}' is not a turnout"
  | .noDetector piece side => s!"no occupancy detector reachable from '{piece}.{side}'"
  | .lookupCycle piece => s!"detector lookup from '{piece}' delegates in a cycle"
  | .stateOverflow automaton => s!"automaton '{automaton}' ran out of local states"
  | .missingVariable piece bit => s!"element '{piece}' has no '{bit}' bit"
  | .noClients server => s!"flip-flop '{server}' has no clients"

/-- A request outside the library's domain. -/
inductive Breach where
  /-- A variable that the table never named. -/
  | noSuchVariable
  /-- A side that the layout does not have. -/
  | noSuchSide
  /-- A list of sides that is shorter than its piece needs. -/
  | missingSide
  /-- A list of passages that is shorter than its piece needs. -/
  | missingPassage
  /-- A block that a schedule refers to without knowing it. -/
  | unknownBlock
  /-- A variable past the end of a machine's memory. -/
  | outsideMemory
  /-- An automaton that the machine does not run. -/
  | noSuchAutomaton
  /-- The end of a reservation lies past the last possible address. -/
  | addressOverflow
  /-- An event identifier past the last possible one. -/
  | eventOverflow
  deriving DecidableEq, Repr

/-- Why an operation did not succeed. -/
inductive Failure where
  | defect (defect : Defect)
  | breach (breach : Breach)
  deriving DecidableEq, Repr

end Interlocking
