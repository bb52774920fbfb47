import Interlocking.Rule

/-!
# Automata

An automaton is a name and a body of rules that run from top to bottom. Its body is put
together in a `RuleBook`, from groups of rules that are each meant for one phase. The
phases give the order: occupancy is settled before the reservations look at it, and the
values that sum up the reservations come after them. Within a phase the groups keep the
order in which they were entered.
-/

namespace Interlocking

/-- The part of a pass in which a group of rules runs. -/
inductive Phase where
  /-- Occupancy from detectors and filters. -/
  | occupancy
  /-- Notes on the neighbours' occupancy. -/
  | detectorProxy
  /-- Removal of stale occupancy. -/
  | clear
  /-- Reservation of routes. -/
  | route
  /-- Values that sum up the reservations. -/
  | aggregate
  /-- Schedules and permission servers. -/
  | schedule
  /-- Exchange of turnout positions with the motors. -/
  | copyState
  /-- Leaving the power-on state. -/
  | init
  deriving DecidableEq, Repr

namespace Phase

/-- The place of a phase in a pass. -/
def rank : Phase → Nat
  | .occupancy => 0
  | .detectorProxy => 1
  | .clear => 2
  | .route => 3
  | .aggregate => 4
  | .schedule => 5
  | .copyState => 6
  | .init => 7

/-- All phases in the order in which they run. -/
def all : List Phase :=
  [.occupancy, .detectorProxy, .clear, .route, .aggregate, .schedule, .copyState, .init]

/-- The phase at a place. -/
def ofRank? (rank : Nat) : Option Phase := all[rank]?

@[simp] theorem ofRank?_rank (phase : Phase) : ofRank? phase.rank = some phase := by
  cases phase <;> rfl

end Phase

/-- A named body of rules. -/
structure Automaton where
  name : String
  rules : List Rule
  deriving DecidableEq, Repr

/-- The groups of rules entered for one automaton. -/
structure RuleBook where
  name : String
  groups : List (Phase × List Rule) := []
  deriving DecidableEq, Repr

namespace RuleBook

/-- Enters a group of rules; an empty group leaves no trace. -/
def contribute (book : RuleBook) (phase : Phase) (rules : List Rule) : RuleBook :=
  if rules = [] then book else { book with groups := book.groups ++ [(phase, rules)] }

/-- Enters one rule. -/
def push (book : RuleBook) (phase : Phase) (rule : Rule) : RuleBook :=
  { book with groups := book.groups ++ [(phase, [rule])] }

/-- The number of rules entered. -/
def size (book : RuleBook) : Nat :=
  book.groups.foldl (fun count group => count + group.2.length) 0

/-- Whether no rule was entered. -/
def isEmpty (book : RuleBook) : Bool := book.size == 0

/-- The rule with which every automaton leaves the power-on state. -/
def startRule : Rule := { conditions := [.inState .initial], actions := [.goto .base] }

/-- Puts a group in front of all groups that do not run before it. -/
def insertGroup (group : Phase × List Rule) :
    List (Phase × List Rule) → List (Phase × List Rule)
  | [] => [group]
  | first :: rest =>
      if group.1.rank ≤ first.1.rank then group :: first :: rest
      else first :: insertGroup group rest

/-- The groups in the order of their phases, groups of one phase in the given order. -/
def sortGroups (groups : List (Phase × List Rule)) : List (Phase × List Rule) :=
  groups.foldr insertGroup []

/-- The automaton with the rules entered and the start rule. -/
def build (book : RuleBook) : Automaton where
  name := book.name
  rules := (sortGroups (book.groups ++ [(.init, [startRule])])).flatMap (·.2)

end RuleBook

end Interlocking
