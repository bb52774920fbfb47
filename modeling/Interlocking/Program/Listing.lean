import Interlocking.Program.Basic

/-!
# Listings

A program as text for people: the name of each automaton, and below it one line for each
rule.
-/

namespace Interlocking

/-- A bit value as a digit. -/
def digit (value : Bool) : String := if value then "1" else "0"

/-- A condition in words. -/
def Condition.describe (table : Table) : Condition → String
  | .bit var value => table.nameOf var ++ " == " ++ digit value
  | .inState state => "state == " ++ state.label
  | .notInState state => "state != " ++ state.label
  | .timerExpired => "timer == 0"

/-- An action in words. -/
def Action.describe (table : Table) : Action → String
  | .set var value => table.nameOf var ++ " := " ++ digit value
  | .goto state => "state := " ++ state.label
  | .loadTimer cycles => "timer := " ++ toString cycles.toNat

/-- A rule as one line. A rule without conditions always applies; one without actions
leaves the end of its line empty. -/
def Rule.describe (table : Table) (rule : Rule) : String :=
  let conditions :=
    match rule.conditions with
    | [] => ["TRUE"]
    | conditions => conditions.map (·.describe table)
  let actions := rule.actions.map fun action => " " ++ action.describe table
  "  IF " ++ " AND ".intercalate conditions ++ " THEN" ++ ";".intercalate actions ++ "\n"

/-- An automaton as a heading and a line for each rule. -/
def Automaton.describe (table : Table) (automaton : Automaton) : String :=
  "automaton " ++ automaton.name ++ "\n" ++
    String.join (automaton.rules.map (·.describe table))

/-- A program as a text that ends with the number of named variables. -/
def Program.listing (program : Program) : String :=
  String.join (program.automata.map (·.describe program.table)) ++
    "# " ++ toString program.table.entries.size ++ " variables\n"

end Interlocking
