import Interlocking.Arena.Automata
import Interlocking.Arena.Timetable
import Interlocking.Program.Basic

/-!
# Compiling an arena

An arena is compiled together with further supplies of automata: it is checked, the automata of its
elements are written, and those of the supplies follow.
-/

namespace Interlocking

/-- Where an automaton besides those of the elements comes from. -/
inductive Supply where
  | permission (arbiter : Arbiter)
  | train (timetable : Timetable)
  | custom (book : RuleBook)
  deriving DecidableEq, Repr

namespace Supply

/-- The name of the automaton. -/
def name : Supply → String
  | .permission arbiter => arbiter.name
  | .train timetable => timetable.name
  | .custom book => book.name

/-- The automaton. -/
def build (arena : Arena) : Supply → Except Failure Automaton
  | .permission arbiter => arbiter.build
  | .train timetable => timetable.build arena
  | .custom book => .ok book.build

end Supply

/-- Compiles an arena together with further supplies. -/
def Arena.compile (arena : Arena) (supplies : List Supply) : Except Failure Program := do
  arena.validate
  let automata ← arena.automata
  let extra ← supplies.mapM (Supply.build arena)
  Program.link arena.table (automata ++ extra)

end Interlocking
