import Interlocking.Layout.Automata
import Interlocking.Layout.Detection
import Interlocking.Schedule.Rules

/-!
# Programs

A program is what a layout is compiled to: one automaton for each piece, followed by the
automata of further sources, and the variable table to which they refer. A layout in
which a signal has no detector, or in which two automata would have the same name, is
not compiled.
-/

namespace Interlocking

/-- Where an automaton besides those of the pieces comes from. -/
inductive Source where
  | permission (arbiter : Arbiter)
  | train (schedule : Schedule)
  | custom (book : RuleBook)
  deriving DecidableEq, Repr

namespace Source

/-- The automaton. -/
def build (layout : Layout) : Source → Except Failure Automaton
  | .permission arbiter => arbiter.build
  | .train schedule => .ok (schedule.build layout)
  | .custom book => .ok book.build

end Source

/-- Automata in the order of their turns, and their variables. -/
structure Program where
  table : Table
  automata : List Automaton
  deriving DecidableEq, Repr

namespace Program

/-- The first name that also stands earlier in the list, where `earlier` came before. -/
def firstRepeated? (earlier : List String) : List String → Option String
  | [] => none
  | name :: names =>
      if name ∈ earlier then some name else firstRepeated? (name :: earlier) names

/-- Automata of different names are put together. -/
def link (table : Table) (automata : List Automaton) : Except Failure Program :=
  match firstRepeated? [] (automata.map (·.name)) with
  | some name => throw (.defect (.duplicateName name))
  | none => return { table, automata }

/-- Compiles a layout together with further sources. -/
def compile (layout : Layout) (sources : List Source) : Except Failure Program := do
  layout.validate
  let extra ← sources.mapM (Source.build layout)
  link layout.table (layout.automata ++ extra)

/-- The automaton with a name. -/
def automaton? (program : Program) (name : String) : Option Automaton :=
  program.automata.find? (fun automaton => automaton.name = name)

/-- The number of rules of all automata. -/
def ruleCount (program : Program) : Nat :=
  program.automata.foldl (fun count automaton => count + automaton.rules.length) 0

end Program

end Interlocking
