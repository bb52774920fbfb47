import Interlocking.Config
import Interlocking.Program.Basic

/-!
# Machines

A machine runs a program. It holds one bit for each address of the program's table, and
a state register and a timer for each automaton. In a cycle every automaton takes one
turn; in its turn its rules run from top to bottom, and what one rule writes the next
rules and automata see.

Rules may mention addresses that the table had not reserved when the program was
compiled. Such an address has no bit, and a turn in which one is looked at or written
does not succeed.
-/

namespace Interlocking

/-- The bits of a machine by address. -/
structure Memory where
  bits : Array Bool
  deriving DecidableEq, Repr

namespace Memory

/-- Memory with every bit 0. -/
def zeros (span : Nat) : Memory := ⟨Array.replicate span false⟩

/-- The value of a variable. -/
def read (memory : Memory) (var : Var) : Except Failure Bool :=
  match memory.bits[var.index]? with
  | some value => .ok value
  | none => .error (.breach .outsideMemory)

/-- The memory in which a variable has a new value. -/
def write (memory : Memory) (var : Var) (value : Bool) : Except Failure Memory :=
  if var.index < memory.bits.size then .ok ⟨memory.bits.setIfInBounds var.index value⟩
  else .error (.breach .outsideMemory)

end Memory

/-- What a turn works on: the shared memory, the automaton's own register and timer, and
whether the turn has changed a bit or the register or let the timer run down. Starting the timer
does not count: a turn that does nothing else passes for one that has changed nothing. -/
structure Turn where
  memory : Memory
  state : State
  timer : UInt8
  changed : Bool := false
  deriving DecidableEq, Repr

/-- Whether a condition holds. -/
def Condition.holds (turn : Turn) : Condition → Except Failure Bool
  | .bit var value => return (← turn.memory.read var) == value
  | .inState state => return turn.state = state
  | .notInState state => return turn.state ≠ state
  | .timerExpired => return turn.timer = 0

/-- Carries an action out. -/
def Action.perform (turn : Turn) : Action → Except Failure Turn
  | .set var value => do
      let old ← turn.memory.read var
      if old = value then return turn
      else return { turn with memory := ← turn.memory.write var value, changed := true }
  | .goto state =>
      if turn.state = state then return turn
      else return { turn with state, changed := true }
  | .loadTimer cycles => return { turn with timer := cycles }

namespace Rule

/-- Whether all conditions hold; those behind one that fails are not looked at. -/
def enabled (turn : Turn) : List Condition → Except Failure Bool
  | [] => return true
  | condition :: conditions => do
      if ← condition.holds turn then enabled turn conditions else return false

/-- Carries the actions of a rule out if its conditions hold. -/
def run (turn : Turn) (rule : Rule) : Except Failure Turn := do
  if ← enabled turn rule.conditions then rule.actions.foldlM Action.perform turn
  else return turn

end Rule

/-- Counts the timer of a turn down if it is running. -/
def Turn.tick (turn : Turn) : Turn :=
  if turn.timer = 0 then turn else { turn with timer := turn.timer - 1, changed := true }

/-- One turn of an automaton: the timer counts down, then the rules run. -/
def Automaton.run (automaton : Automaton) (turn : Turn) : Except Failure Turn :=
  automaton.rules.foldlM Rule.run turn.tick

/-- An automaton with its own register and timer. -/
structure Cell where
  automaton : Automaton
  state : State := .initial
  timer : UInt8 := 0
  deriving DecidableEq, Repr

/-- A program that is being run. -/
structure Machine where
  cells : Array Cell
  memory : Memory
  /-- Whether the automata take their turns from last to first. -/
  reverseOrder : Bool
  /-- The number of cycles after which settling is given up. -/
  maxSettleCycles : UInt32
  /-- The number of cycles run so far. -/
  cycles : Nat := 0
  deriving DecidableEq, Repr

namespace Machine

/-- A machine at power-on: every bit is 0 and every automaton is in its initial state. -/
def powerOn (program : Program) (config : SimConfig) : Machine where
  cells := (program.automata.map fun automaton => { automaton }).toArray
  memory := .zeros program.table.span
  reverseOrder := config.reverseOrder
  maxSettleCycles := config.maxSettleCycles

/-- The value of a variable. -/
def get (machine : Machine) (var : Var) : Except Failure Bool := machine.memory.read var

/-- Gives a variable a value from outside. -/
def set (machine : Machine) (var : Var) (value : Bool) : Except Failure Machine := do
  return { machine with memory := ← machine.memory.write var value }

/-- The state register of the first automaton with a name. -/
def state? (machine : Machine) (name : String) : Option State :=
  (machine.cells.find? (fun cell => cell.automaton.name = name)).map (·.state)

/-- Lets one automaton take its turn, and tells whether it changed anything. -/
def evaluate (machine : Machine) (index : Nat) : Except Failure (Machine × Bool) :=
  match machine.cells[index]? with
  | none => .error (.breach .noSuchAutomaton)
  | some cell => do
      let turn ← cell.automaton.run
        { memory := machine.memory, state := cell.state, timer := cell.timer }
      let cell := { cell with state := turn.state, timer := turn.timer }
      return ({ machine with
        cells := machine.cells.setIfInBounds index cell
        memory := turn.memory }, turn.changed)

/-- The automata in the order of their turns. -/
def order (machine : Machine) : List Nat :=
  let forward := List.range machine.cells.size
  if machine.reverseOrder then forward.reverse else forward

/-- Lets automata take their turns one after another. -/
def evaluateAll (machine : Machine) : List Nat → Except Failure (Machine × Bool)
  | [] => return (machine, false)
  | index :: indices => do
      let (machine, first) ← machine.evaluate index
      let (machine, rest) ← machine.evaluateAll indices
      return (machine, first || rest)

/-- One cycle, and whether it changed anything. -/
def step (machine : Machine) : Except Failure (Machine × Bool) := do
  let (machine, changed) ← machine.evaluateAll machine.order
  return ({ machine with cycles := machine.cycles + 1 }, changed)

/-- A number of cycles. -/
def run (machine : Machine) : Nat → Except Failure Machine
  | 0 => return machine
  | count + 1 => do
      let (machine, _) ← machine.step
      machine.run count

/-- At most `bound` cycles, up to the first that changes nothing. -/
def settleWithin (machine : Machine) : Nat → Except Failure (Machine × Bool)
  | 0 => return (machine, false)
  | bound + 1 => do
      let (machine, changed) ← machine.step
      if changed then machine.settleWithin bound else return (machine, true)

/-- Runs until a cycle changes nothing, and tells whether that was reached within the
machine's bound. -/
def settle (machine : Machine) : Except Failure (Machine × Bool) :=
  machine.settleWithin machine.maxSettleCycles.toNat

end Machine

end Interlocking
