import Interlocking.Variable.Table

/-!
# Rules

A rule is a list of conditions and a list of actions. When all conditions hold the
actions are carried out in order. Besides the shared variables, a rule may look at and
change two things that belong to its automaton alone: a state register and a timer that
counts down to zero.
-/

namespace Interlocking

/-- A value of an automaton's state register. -/
structure State where
  code : UInt8
  deriving DecidableEq, Repr, Inhabited

namespace State

/-- The state at power-on. -/
def initial : State := ⟨0⟩

/-- The state in which an automaton rests once it has started. -/
def base : State := ⟨1⟩

/-- The state as it is shown to people. -/
def label (state : State) : String := "S" ++ toString state.code.toNat

end State

/-- Something that a rule requires. -/
inductive Condition where
  /-- A variable has the given value. -/
  | bit (var : Var) (value : Bool)
  /-- The state register holds this state. -/
  | inState (state : State)
  /-- The state register holds another state. -/
  | notInState (state : State)
  /-- The timer has reached zero. -/
  | timerExpired
  deriving DecidableEq, Repr

namespace Condition

/-- The variable is 1. -/
abbrev on (var : Var) : Condition := .bit var true

/-- The variable is 0. -/
abbrev off (var : Var) : Condition := .bit var false

/-- The variable that a condition looks at. -/
def var? : Condition → Option Var
  | .bit var _ => some var
  | _ => none

end Condition

/-- Something that a rule does. -/
inductive Action where
  /-- Gives a variable a value. -/
  | set (var : Var) (value : Bool)
  /-- Moves the state register. -/
  | goto (state : State)
  /-- Starts the timer with a number of cycles. -/
  | loadTimer (cycles : UInt8)
  deriving DecidableEq, Repr

namespace Action

/-- Makes the variable 1. -/
abbrev raise (var : Var) : Action := .set var true

/-- Makes the variable 0. -/
abbrev clear (var : Var) : Action := .set var false

/-- The variable that an action writes. -/
def var? : Action → Option Var
  | .set var _ => some var
  | _ => none

end Action

/-- Conditions that guard a list of actions. -/
structure Rule where
  conditions : List Condition := []
  actions : List Action := []
  deriving DecidableEq, Repr

namespace Rule

/-- Adds a condition behind the others. -/
def require (rule : Rule) (condition : Condition) : Rule :=
  { rule with conditions := rule.conditions ++ [condition] }

/-- Adds an action behind the others. -/
def perform (rule : Rule) (action : Action) : Rule :=
  { rule with actions := rule.actions ++ [action] }

/-- The variables that the conditions look at, in order and with repetitions. -/
def reads (rule : Rule) : List Var := rule.conditions.filterMap Condition.var?

/-- The variables that the actions write, in order and with repetitions. -/
def writes (rule : Rule) : List Var := rule.actions.filterMap Action.var?

end Rule

end Interlocking
