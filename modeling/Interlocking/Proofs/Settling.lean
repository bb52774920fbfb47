import Interlocking.Proofs.Addresses
import Interlocking.Proofs.Alertness

/-!
# Settling

On a layout without filtered sensors, signals and movable turnouts the rules write bits only.
Then registers and timers do not matter once every automaton has started, and a machine
settles as soon as no rule fires any more. What is to be shown about a layout that settles is
what a cycle makes of the bits.
-/

namespace Interlocking

open RuleBook (startRule)

namespace Piece

variable (piece : Piece) (layout : Layout)

/-- What a piece does before it sums up. -/
def work : List Rule := piece.tracking layout ++ (piece.duties layout).flatMap Duty.rules

/-- The piece writes bits only, apart from starting, and has nothing to sum up. -/
structure Plain : Prop where
  summary : piece.summary layout = [startRule]
  bits : ∀ rule ∈ piece.work layout, ∀ action ∈ rule.actions, action.var?.isSome

variable {piece layout}

theorem Plain.rules (plain : piece.Plain layout) :
    (piece.automaton layout).rules = piece.work layout ++ [startRule] := by
  rw [piece.rules_automaton, plain.summary, work]

end Piece

section Registers

variable {turn after : Turn}

/-- What an automaton has for itself. -/
def Turn.registers (turn : Turn) : State × UInt8 := (turn.state, turn.timer)

theorem foldlM_registers {α : Type} {act : Turn → α → Except Failure Turn} {items : List α}
    (each : ∀ item ∈ items, ∀ {turn after}, act turn item = .ok after →
      after.registers = turn.registers) (done : items.foldlM act turn = .ok after) :
    after.registers = turn.registers :=
  foldlM_induct (motive := fun state => state.registers = turn.registers)
    (fun item member _ _ same done => (each item member done).trans same) rfl done

theorem Action.perform_registers {action : Action} (bit : action.var?.isSome)
    (done : action.perform turn = .ok after) : after.registers = turn.registers := by
  cases perform_eq_ok.mp done with
  | keep | store => rfl
  | stay | leave | load => cases bit

theorem Rule.run_registers {rule : Rule} (bits : ∀ action ∈ rule.actions, action.var?.isSome)
    (done : rule.run turn = .ok after) : after.registers = turn.registers := by
  rcases run_eq_ok.mp done with ⟨-, acted⟩ | ⟨-, rfl⟩
  · exact foldlM_registers
      (fun action member _ _ => Action.perform_registers (bits action member)) acted
  · rfl

/-- The start rule leads from the initial state to the base state and changes no bit. -/
theorem run_startRule (turn : Turn) : startRule.run turn = .ok
    (if turn.state = .initial then { turn with state := .base, changed := true } else turn) := by
  by_cases initial : turn.state = .initial
  · have differs : State.initial ≠ State.base := by decide
    simp [startRule, Rule.run, Rule.enabled, Condition.holds, Action.perform, initial, differs, bind,
      Except.bind, pure, Except.pure]
  · simp [startRule, Rule.run, Rule.enabled, Condition.holds, initial, bind, Except.bind, pure,
      Except.pure]

/-- A plain piece that has started or is about to, and whose timer is not running, is in the
base state after its turn. -/
theorem Piece.Plain.registers_run {piece : Piece} {layout : Layout} (plain : piece.Plain layout)
    (timer : turn.timer = 0) (state : turn.state = .initial ∨ turn.state = .base)
    (ran : (piece.automaton layout).run turn = .ok after) :
    after.timer = 0 ∧ after.state = .base := by
  simp only [Automaton.run, Turn.tick, timer, if_true, plain.rules, List.foldlM_append] at ran
  obtain ⟨middle, worked, ran⟩ := bind_eq_ok.mp ran
  obtain ⟨_, started, ended⟩ := foldlM_cons_eq_ok.mp ran
  obtain rfl := Except.ok.inj ended
  obtain rfl := Except.ok.inj ((run_startRule middle).symm.trans started)
  obtain ⟨states, timers⟩ := Prod.mk.inj (foldlM_registers
    (fun rule member _ _ => Rule.run_registers (plain.bits rule member)) worked)
  split
  · exact ⟨timers.trans timer, rfl⟩
  · rename_i started
    exact ⟨timers.trans timer, states.trans (state.resolve_left (states ▸ started))⟩

/-- A plain piece that has started changes nothing in a turn in which its work changes nothing. -/
theorem Piece.Plain.run_still {piece : Piece} {layout : Layout} (plain : piece.Plain layout)
    (timer : turn.timer = 0) (state : turn.state = .base)
    (worked : (piece.work layout).foldlM Rule.run turn = .ok turn) :
    (piece.automaton layout).run turn = .ok turn := by
  have started : ¬turn.state = .initial := by
    rw [state]
    decide
  simp [Automaton.run, Turn.tick, timer, plain.rules, worked, run_startRule, started, bind,
    Except.bind, pure, Except.pure]

end Registers

namespace Cell

/-- The timer is not running, and the automaton has started or is about to. -/
structure Fresh (cell : Cell) : Prop where
  timer : cell.timer = 0
  state : cell.state = .initial ∨ cell.state = .base

/-- The automaton has started, and the timer is not running. -/
structure Based (cell : Cell) : Prop where
  timer : cell.timer = 0
  state : cell.state = .base

theorem Based.fresh {cell : Cell} (based : cell.Based) : cell.Fresh :=
  ⟨based.timer, .inr based.state⟩

end Cell

namespace Layout

/-- The order in which the pieces take their turns. -/
def order (layout : Layout) (reverse : Bool) : List Nat :=
  if reverse then (List.range layout.pieces.size).reverse else List.range layout.pieces.size

theorem mem_order {layout : Layout} {reverse : Bool} {index : Nat} :
    index ∈ layout.order reverse ↔ index < layout.pieces.size := by
  unfold order
  split <;> simp

/-- A panel can become another while pieces take their turns. -/
inductive Rounds (layout : Layout) : List Nat → Panel → Panel → Prop where
  | done {panel : Panel} : Rounds layout [] panel panel
  | turn {index : Nat} {indices : List Nat} {piece : Piece} {before middle after : Panel}
      (found : layout.piece? ⟨index⟩ = some piece)
      (runs : layout.Runs (piece.automaton layout).rules before middle)
      (rest : Rounds layout indices middle after) : Rounds layout (index :: indices) before after

/-- The machine runs the automata of the layout's pieces. -/
structure Hosts (layout : Layout) (settings : SimConfig) (machine : Machine) : Prop where
  automata : machine.automata = layout.automata
  size : machine.memory.bits.size = layout.table.span
  reverse : machine.reverseOrder = settings.reverseOrder
  bound : machine.maxSettleCycles = settings.maxSettleCycles
  fresh : ∀ cell ∈ machine.cells, cell.Fresh

variable {layout : Layout} {settings : SimConfig} {machine : Machine}

theorem Hosts.cells_size (hosts : layout.Hosts settings machine) :
    machine.cells.size = layout.pieces.size := by
  have same := congrArg List.length hosts.automata
  simpa [Machine.automata, Layout.automata] using same

theorem Hosts.order (hosts : layout.Hosts settings machine) :
    machine.order = layout.order settings.reverseOrder := by
  simp [Machine.order, Layout.order, hosts.cells_size, hosts.reverse]

/-- Rules that do not fire leave a turn as it is. -/
theorem Rests.foldlM_run {rules : List Rule} {turn : Turn}
    (rests : layout.Rests (layout.panel turn.memory) rules)
    (size : turn.memory.bits.size = layout.table.span) (addresses : layout.Addresses rules) :
    rules.foldlM Rule.run turn = .ok turn := by
  refine foldlM_run_eq_self fun rule member => ?_
  obtain ⟨answer, told⟩ := enabled_ok size (addresses rule member).1
  have outcome := layout.enabled_outcome told
  cases answer with
  | true => exact absurd outcome (rests rule member)
  | false => exact told

section Turns

variable (sound : layout.Sound)
  (plain : ∀ {id piece}, layout.piece? id = some piece → piece.Plain layout)

include sound plain

/-- A turn of a plain piece leaves its automaton in the base state. -/
theorem Hosts.evaluate (hosts : layout.Hosts settings machine) {index : Nat} {piece : Piece}
    (found : layout.piece? ⟨index⟩ = some piece) :
    ∃ next changed, machine.evaluate index = .ok (next, changed) ∧ layout.Hosts settings next ∧
      layout.Runs (piece.automaton layout).rules (layout.panel machine.memory)
        (layout.panel next.memory) ∧
      ∀ place cell, next.cells[place]? = some cell →
        (place = index ∨ ∀ before, machine.cells[place]? = some before → before.Based) →
        cell.Based := by
  obtain ⟨next, changed, evaluated⟩ := sound.evaluate_ok hosts.automata hosts.size found
  obtain ⟨cell, known, runs, size⟩ := layout.runs_of_evaluate evaluated
  obtain ⟨cell', known', same⟩ := cell_of_piece hosts.automata found
  obtain rfl := Option.some.inj (known.symm.trans known')
  have automata :=
    (Machine.automata_react (Machine.react_turn evaluated)).trans hosts.automata
  obtain ⟨cell', turn, known', run, rfl, _⟩ := Machine.evaluate_eq_ok evaluated
  obtain rfl := Option.some.inj (known.symm.trans known')
  have begun := hosts.fresh cell (Array.mem_of_getElem? known)
  rw [same] at run runs
  have based : Cell.Based { cell with state := turn.state, timer := turn.timer } := by
    obtain ⟨timer, state⟩ := (plain found).registers_run begun.timer begun.state run
    exact ⟨timer, state⟩
  refine ⟨_, changed, evaluated, ⟨automata, size.trans hosts.size, hosts.reverse, hosts.bound, ?_⟩,
    runs, ?_⟩
  · intro other listed
    rcases Array.mem_or_eq_of_mem_setIfInBounds listed with listed | rfl
    · exact hosts.fresh other listed
    · exact based.fresh
  · intro place other placed reason
    simp only [Array.getElem?_setIfInBounds] at placed
    split at placed
    · split at placed
      · exact Option.some.inj placed ▸ based
      · cases placed
    · rename_i apart
      exact (reason.resolve_left fun here => apart here.symm) other placed

/-- Turns of plain pieces one after the other. -/
theorem Hosts.evaluateAll (hosts : layout.Hosts settings machine) {indices : List Nat}
    (inside : ∀ index ∈ indices, index < layout.pieces.size) :
    ∃ next changed, machine.evaluateAll indices = .ok (next, changed) ∧
      layout.Hosts settings next ∧
      layout.Rounds indices (layout.panel machine.memory) (layout.panel next.memory) ∧
      ∀ place cell, next.cells[place]? = some cell →
        (place ∈ indices ∨ ∀ before, machine.cells[place]? = some before → before.Based) →
        cell.Based := by
  induction indices generalizing machine with
  | nil =>
      refine ⟨machine, false, rfl, hosts, .done, ?_⟩
      intro place cell placed reason
      exact (reason.resolve_left (by simp)) cell placed
  | cons index indices ih =>
      obtain ⟨here, inside⟩ := List.forall_mem_cons.mp inside
      have found : layout.piece? ⟨index⟩ = some layout.pieces[index] := Array.getElem?_eq_getElem here
      obtain ⟨middle, first, evaluated, hosted, runs, started⟩ := hosts.evaluate sound plain found
      obtain ⟨next, later, rest, hostedNext, rounds, startedRest⟩ := ih hosted inside
      refine ⟨next, first || later,
        Machine.evaluateAll_cons_eq_ok.mpr ⟨middle, first, later, evaluated, rest, rfl⟩, hostedNext,
        .turn found runs rounds, ?_⟩
      intro place cell placed reason
      apply startedRest place cell placed
      rcases reason with member | based
      · rcases List.mem_cons.mp member with rfl | member
        · exact .inr fun before known => started place before known (.inl rfl)
        · exact .inl member
      · exact .inr fun before known => started place before known (.inr based)

/-- A cycle. -/
theorem Hosts.step (hosts : layout.Hosts settings machine) :
    ∃ next changed, machine.step = .ok (next, changed) ∧ layout.Hosts settings next ∧
      layout.Rounds (layout.order settings.reverseOrder) (layout.panel machine.memory)
        (layout.panel next.memory) ∧
      (∀ cell ∈ next.cells, cell.Based) ∧
      (changed = false → next.memory = machine.memory) := by
  have inside : ∀ index ∈ machine.order, index < layout.pieces.size := by
    rw [hosts.order]
    exact fun index => mem_order.mp
  obtain ⟨next, changed, evaluated, hosted, rounds, started⟩ :=
    hosts.evaluateAll sound plain inside
  rw [hosts.order] at rounds
  refine ⟨{ next with cycles := next.cycles + 1 }, changed,
    Machine.step_eq_ok.mpr ⟨next, evaluated, rfl⟩, ?_, rounds, ?_, ?_⟩
  · exact ⟨hosted.automata, hosted.size, hosted.reverse, hosted.bound, hosted.fresh⟩
  · intro cell member
    obtain ⟨place, placed⟩ := Array.mem_iff_getElem?.mp member
    refine started place cell placed (.inl ?_)
    rw [hosts.order, mem_order, ← hosted.cells_size]
    exact (Array.getElem?_eq_some_iff.mp placed).1
  · rintro rfl
    exact (Machine.evaluateAll_unchanged layout evaluated).1

section Still

variable (rests : ∀ {id piece}, layout.piece? id = some piece →
  layout.Rests (layout.panel machine.memory) (piece.work layout))
  (based : ∀ cell ∈ machine.cells, cell.Based)

include rests based

/-- Where no rule of a plain piece fires, its turn changes nothing. -/
theorem Hosts.evaluate_still (hosts : layout.Hosts settings machine) {index : Nat}
    (inside : index < layout.pieces.size) : machine.evaluate index = .ok (machine, false) := by
  have found : layout.piece? ⟨index⟩ = some layout.pieces[index] := Array.getElem?_eq_getElem inside
  obtain ⟨cell, known, same⟩ := cell_of_piece hosts.automata found
  have begun := based cell (Array.mem_of_getElem? known)
  have addresses : layout.Addresses ((layout.pieces[index]).work layout) := by
    intro rule member
    apply sound.addresses_automaton found
    rw [(plain found).rules]
    exact List.mem_append_left _ member
  have ran : cell.automaton.run
      { memory := machine.memory, state := cell.state, timer := cell.timer } =
        .ok { memory := machine.memory, state := cell.state, timer := cell.timer } := by
    rw [same]
    refine (plain found).run_still begun.timer begun.state ?_
    exact Rests.foldlM_run (rests found) hosts.size addresses
  exact Machine.evaluate_eq_self known ran

/-- A cycle in which no rule fires changes nothing. -/
theorem Hosts.step_still (hosts : layout.Hosts settings machine) :
    machine.step = .ok ({ machine with cycles := machine.cycles + 1 }, false) := by
  apply Machine.step_eq_self
  intro index member
  rw [hosts.order] at member
  exact hosts.evaluate_still sound plain rests based (mem_order.mp member)

end Still

/-- A machine settles if what is known after each cycle leads to a panel at which no rule
fires, and it ends with that panel. -/
theorem Hosts.settle {course : Nat → Panel → Prop} {last : Nat}
    (cycle : ∀ {count before after}, course count before →
      layout.Rounds (layout.order settings.reverseOrder) before after → course (count + 1) after)
    (still : ∀ {panel}, course last panel → ∀ {id piece}, layout.piece? id = some piece →
      layout.Rests panel (piece.work layout))
    (hosts : layout.Hosts settings machine) (begins : course 0 (layout.panel machine.memory))
    (positive : 0 < last) (enough : last < settings.maxSettleCycles.toNat) :
    ∃ next, machine.settle = .ok (next, true) ∧ layout.Hosts settings next ∧
      course last (layout.panel next.memory) := by
  -- The induction is on the bound; the machine has run for `count` cycles already.
  have settles : ∀ bound count {machine : Machine}, layout.Hosts settings machine →
      course count (layout.panel machine.memory) → count ≤ last → last < count + bound →
      (0 < count → ∀ cell ∈ machine.cells, cell.Based) →
      ∃ next, machine.settleWithin bound = .ok (next, true) ∧ layout.Hosts settings next ∧
        course last (layout.panel next.memory) := by
    intro bound
    induction bound with
    | zero =>
        intro count machine _ _ before beyond
        omega
    | succ bound ih =>
        intro count machine hosts holds before enough based
        by_cases ended : count = last
        · subst ended
          have stepped := hosts.step_still sound plain (still holds) (based positive)
          exact ⟨{ machine with cycles := machine.cycles + 1 },
            Machine.settleWithin_succ_eq_ok.mpr (.inr ⟨stepped, rfl⟩),
            ⟨hosts.automata, hosts.size, hosts.reverse, hosts.bound, hosts.fresh⟩, holds⟩
        · obtain ⟨next, changed, stepped, hosted, rounds, started, unchanged⟩ :=
            hosts.step sound plain
          cases changed with
          | true =>
              obtain ⟨ended, settled, outcome⟩ :=
                ih (count + 1) hosted (cycle holds rounds) (by omega) (by omega) fun _ => started
              exact ⟨ended, Machine.settleWithin_succ_eq_ok.mpr (.inl ⟨next, stepped, settled⟩),
                outcome⟩
          | false =>
              -- The cycle has changed nothing, and neither will any other.
              rw [unchanged rfl] at rounds
              have later : ∀ more, course (count + more) (layout.panel machine.memory) := by
                intro more
                induction more with
                | zero => exact holds
                | succ more ih => exact cycle ih rounds
              refine ⟨next, Machine.settleWithin_succ_eq_ok.mpr (.inr ⟨stepped, rfl⟩), hosted, ?_⟩
              have arrives := later (last - count)
              rw [Nat.add_sub_cancel' before] at arrives
              rwa [unchanged rfl]
  have run := settles settings.maxSettleCycles.toNat 0 hosts begins (Nat.zero_le _)
    (by omega) (fun begun => absurd begun (Nat.lt_irrefl 0))
  simpa only [Machine.settle, hosts.bound] using run

end Turns

end Layout

end Interlocking
