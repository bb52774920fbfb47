import Interlocking.Automaton.Format
import Interlocking.Json.Writer
import Interlocking.Program.Basic

/-!
# The JSON form of programs

A program is exported as its named variables with their events and its automata.
-/

namespace Interlocking

open Json (Value)

/-- A named variable with its events. -/
def Variable.toJson (entry : Variable) : Value :=
  .object [
    ("id", entry.var.toJson),
    ("name", .string entry.name),
    ("event_on", .natural entry.on.toNat),
    ("event_off", .natural entry.off.toNat)]

/-- A program's variables and automata. -/
def Program.toJson (program : Program) : Value :=
  .object [
    ("variables", .array (program.table.entries.toList.map Variable.toJson)),
    ("automata", .array (program.automata.map Automaton.toJson))]

/-- The text in which a program is exported. -/
def Program.toJsonText (program : Program) : String := program.toJson.toPrettyText

end Interlocking
