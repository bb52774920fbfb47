import Interlocking.Automaton
import Interlocking.Json.Value

/-!
# The JSON form of automata

Each type has a function to its JSON value and a function back, and the way there and
back leads to the same thing. A condition or an action is an object with one member,
named for what it is; the condition on the timer has nothing to say and may be a bare
string.
-/

namespace Interlocking

open Json (Value)

/-- A variable is written as its address. -/
def Var.toJson (var : Var) : Value := .natural var.address.toNat

/-- A variable from its address. -/
def Var.ofJson? (value : Value) : Option Var := value.word?.map Var.mk

@[simp] theorem Var.ofJson?_toJson (var : Var) : Var.ofJson? var.toJson = some var := by
  simp [Var.ofJson?, Var.toJson]

/-- A state is written as its code. -/
def State.toJson (state : State) : Value := .natural state.code.toNat

/-- A state from its code. -/
def State.ofJson? (value : Value) : Option State := value.byte?.map State.mk

@[simp] theorem State.ofJson?_toJson (state : State) :
    State.ofJson? state.toJson = some state := by
  simp [State.ofJson?, State.toJson]

/-- A variable and the value asked of it or given to it, as a list of two. -/
def bitToJson (var : Var) (value : Bool) : Value := .array [var.toJson, .bool value]

/-- A variable and a value from a list of exactly two. -/
def bitOfJson? : Value → Option (Var × Bool)
  | .array [var, value] => do
      let var ← Var.ofJson? var
      let value ← value.bool?
      return (var, value)
  | _ => none

@[simp] theorem bitOfJson?_bitToJson (var : Var) (value : Bool) :
    bitOfJson? (bitToJson var value) = some (var, value) := by
  simp [bitOfJson?, bitToJson, Value.bool?]

/-- Items that are read back one by one are read back as a list. -/
theorem mapM_map_eq_some {α : Type} {write : α → Value} {read : Value → Option α}
    (back : ∀ item, read (write item) = some item) (items : List α) :
    (items.map write).mapM read = some items := by
  induction items with
  | nil => rfl
  | cons item items ih => simp [back, ih]

namespace Condition

/-- A condition as an object with one member, or as a string. -/
def toJson : Condition → Value
  | .bit var value => .object [("var", bitToJson var value)]
  | .inState state => .object [("state", state.toJson)]
  | .notInState state => .object [("not_state", state.toJson)]
  | .timerExpired => .string "timer_expired"

/-- A condition from its JSON form. -/
def ofJson? : Value → Option Condition
  | .object [(name, value)] =>
      if name = "var" then (bitOfJson? value).map fun (var, value) => .bit var value
      else if name = "state" then (State.ofJson? value).map .inState
      else if name = "not_state" then (State.ofJson? value).map .notInState
      else if name = "timer_expired" then
        match value with
        | .null => some .timerExpired
        | _ => none
      else none
  | .string name => if name = "timer_expired" then some .timerExpired else none
  | _ => none

@[simp] theorem ofJson?_toJson (condition : Condition) :
    ofJson? condition.toJson = some condition := by
  cases condition <;> simp [ofJson?, toJson]

end Condition

namespace Action

/-- An action as an object with one member. -/
def toJson : Action → Value
  | .set var value => .object [("set", bitToJson var value)]
  | .goto state => .object [("state", state.toJson)]
  | .loadTimer cycles => .object [("load_timer", .natural cycles.toNat)]

/-- An action from its JSON form. -/
def ofJson? : Value → Option Action
  | .object [(name, value)] =>
      if name = "set" then (bitOfJson? value).map fun (var, value) => .set var value
      else if name = "state" then (State.ofJson? value).map .goto
      else if name = "load_timer" then value.byte?.map .loadTimer
      else none
  | _ => none

@[simp] theorem ofJson?_toJson (action : Action) :
    ofJson? action.toJson = some action := by
  cases action <;> simp [ofJson?, toJson]

end Action

namespace Rule

/-- A rule as a record of its conditions and its actions. -/
def toJson (rule : Rule) : Value :=
  .object [
    ("conditions", .array (rule.conditions.map Condition.toJson)),
    ("actions", .array (rule.actions.map Action.toJson))]

/-- A rule from its JSON form, which needs both fields. -/
def ofJson? (value : Value) : Option Rule :=
  match value.record? ["conditions", "actions"] with
  | some [some conditions, some actions] => do
      let conditions ← conditions.items? >>= List.mapM Condition.ofJson?
      let actions ← actions.items? >>= List.mapM Action.ofJson?
      return { conditions, actions }
  | _ => none

@[simp] theorem ofJson?_toJson (rule : Rule) : ofJson? rule.toJson = some rule := by
  have conditions := mapM_map_eq_some Condition.ofJson?_toJson rule.conditions
  have actions := mapM_map_eq_some Action.ofJson?_toJson rule.actions
  simp [ofJson?, toJson, Value.record?, Value.member?, Value.items?, conditions, actions]

end Rule

namespace Automaton

/-- An automaton as a record of its name and its rules. -/
def toJson (automaton : Automaton) : Value :=
  .object [
    ("name", .string automaton.name),
    ("rules", .array (automaton.rules.map Rule.toJson))]

/-- An automaton from its JSON form, which needs both fields. -/
def ofJson? (value : Value) : Option Automaton :=
  match value.record? ["name", "rules"] with
  | some [some name, some rules] => do
      let name ← name.text?
      let rules ← rules.items? >>= List.mapM Rule.ofJson?
      return { name, rules }
  | _ => none

@[simp] theorem ofJson?_toJson (automaton : Automaton) :
    ofJson? automaton.toJson = some automaton := by
  have rules := mapM_map_eq_some Rule.ofJson?_toJson automaton.rules
  simp [ofJson?, toJson, Value.record?, Value.member?, Value.items?, Value.text?, rules]

end Automaton

end Interlocking
