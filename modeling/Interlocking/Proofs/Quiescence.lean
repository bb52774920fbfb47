import Interlocking.Proofs.Alertness
import Interlocking.Proofs.Arbitration
import Interlocking.Proofs.Commutation
import Interlocking.Proofs.Recovery

/-!
# Cycles that report no change

A machine settles when a cycle reports no change. Such a cycle has changed no bit and no register,
and no timer was running. But a rule that starts a timer does not report it, and so the machine may
be left with timers that run. They are all that moves from then on: whatever rule fires while they
count down has fired in the quiet cycle too, and it does nothing again. Where no timer was started,
the machine stays as it is.
-/

namespace Interlocking

section Turns

/-- The turn finds the same memory and register as another, and an expired timer only if the other
does. -/
structure Turn.Echoes (other turn : Turn) : Prop where
  memory : other.memory = turn.memory
  state : other.state = turn.state
  timer : other.timer = 0 → turn.timer = 0

/-- What was done between two turns has changed neither memory nor register, and it can be done
again in every turn that echoes the first one, where it does as little. -/
structure Turn.Still (work : Turn → Except Failure Turn) (turn after : Turn) : Prop where
  begun : turn.changed = false
  memory : after.memory = turn.memory
  state : after.state = turn.state
  again : ∀ other : Turn, other.Echoes turn → ∃ last, work other = .ok last ∧ last.Echoes after ∧
    last.changed = other.changed

variable {turn after other : Turn}

/-- A condition has the same answer, unless it waits for a timer that runs. -/
theorem Condition.holds_echo {condition : Condition} {answer : Bool} (echoes : other.Echoes turn)
    (told : condition.holds turn = .ok answer) :
    ∃ reply, condition.holds other = .ok reply ∧
      (reply = answer ∨ reply = false ∧ other.timer ≠ 0) := by
  cases condition with
  | bit var value =>
      refine ⟨answer, ?_, .inl rfl⟩
      rw [← told]
      simp only [holds, echoes.memory]
  | inState state =>
      refine ⟨answer, ?_, .inl rfl⟩
      rw [← told]
      simp only [holds, echoes.state]
  | notInState state =>
      refine ⟨answer, ?_, .inl rfl⟩
      rw [← told]
      simp only [holds, echoes.state]
  | timerExpired =>
      obtain rfl := Except.ok.inj told
      refine ⟨_, rfl, ?_⟩
      by_cases expired : other.timer = 0
      · simp [expired, echoes.timer expired]
      · simp [expired]

theorem Rule.enabled_echo {conditions : List Condition} {answer : Bool} (echoes : other.Echoes turn)
    (told : Rule.enabled turn conditions = .ok answer) :
    ∃ reply, Rule.enabled other conditions = .ok reply ∧
      (reply = answer ∨ reply = false ∧ other.timer ≠ 0) := by
  induction conditions with
  | nil => exact ⟨answer, told, .inl rfl⟩
  | cons condition conditions ih =>
      rcases enabled_cons_eq_ok.mp told with ⟨holds, rest⟩ | ⟨fails, rfl⟩
      · obtain ⟨reply, replied, same⟩ := Condition.holds_echo echoes holds
        rcases same with rfl | ⟨rfl, running⟩
        · obtain ⟨answer, told, same⟩ := ih rest
          exact ⟨answer, enabled_cons_eq_ok.mpr (.inl ⟨replied, told⟩), same⟩
        · exact ⟨false, enabled_cons_eq_ok.mpr (.inr ⟨replied, rfl⟩), .inr ⟨rfl, running⟩⟩
      · obtain ⟨reply, replied, same⟩ := Condition.holds_echo echoes fails
        obtain rfl : reply = false := same.elim id And.left
        exact ⟨false, enabled_cons_eq_ok.mpr (.inr ⟨replied, rfl⟩), .inl rfl⟩

/-- An action that does not report a change has made none, but to the timer. -/
theorem Action.still_perform {action : Action} (done : action.perform turn = .ok after)
    (unchanged : after.changed = false) : Turn.Still action.perform turn after := by
  cases perform_eq_ok.mp done with
  | keep read =>
      refine ⟨unchanged, rfl, rfl, fun other echoes => ⟨other, ?_, echoes, rfl⟩⟩
      exact perform_eq_ok.mpr (.keep (echoes.memory ▸ read))
  | stay here =>
      refine ⟨unchanged, rfl, rfl, fun other echoes => ⟨other, ?_, echoes, rfl⟩⟩
      exact perform_eq_ok.mpr (.stay (echoes.state.trans here))
  | store | leave => cases unchanged
  | load cycles =>
      refine ⟨unchanged, rfl, rfl, fun other echoes => ?_⟩
      exact ⟨{ other with timer := cycles }, rfl,
        ⟨echoes.memory, echoes.state, fun expired => expired⟩, rfl⟩

/-- What is done step by step without a report can be done again step by step. -/
theorem Turn.still_foldlM {α : Type} (step : Turn → α → Except Failure Turn)
    (each : ∀ item turn after, step turn item = .ok after → after.changed = false →
      Turn.Still (fun turn => step turn item) turn after)
    {items : List α} (done : items.foldlM step turn = .ok after)
    (unchanged : after.changed = false) :
    Turn.Still (fun turn => items.foldlM step turn) turn after := by
  induction items generalizing turn with
  | nil =>
      obtain rfl := Except.ok.inj done
      exact ⟨unchanged, rfl, rfl, fun other echoes => ⟨other, rfl, echoes, rfl⟩⟩
  | cons item items ih =>
      obtain ⟨middle, first, done⟩ := foldlM_cons_eq_ok.mp done
      have rest := ih done
      have here := each item turn middle first rest.begun
      refine ⟨here.begun, rest.memory.trans here.memory, rest.state.trans here.state, ?_⟩
      intro other echoes
      obtain ⟨between, stepped, halfway, silent⟩ := here.again other echoes
      obtain ⟨last, finished, ends, still⟩ := rest.again between halfway
      exact ⟨last, foldlM_cons_eq_ok.mpr ⟨between, stepped, finished⟩, ends, still.trans silent⟩

theorem Rule.still_run {rule : Rule} (done : rule.run turn = .ok after)
    (unchanged : after.changed = false) : Turn.Still rule.run turn after := by
  rcases run_eq_ok.mp done with ⟨asked, acted⟩ | ⟨asked, rfl⟩
  · have acted : Turn.Still (fun turn => rule.actions.foldlM Action.perform turn) turn after :=
      Turn.still_foldlM Action.perform (fun _ _ _ => Action.still_perform) acted unchanged
    refine ⟨acted.begun, acted.memory, acted.state, fun other echoes => ?_⟩
    obtain ⟨reply, replied, same⟩ := enabled_echo echoes asked
    rcases same with rfl | ⟨rfl, running⟩
    · obtain ⟨last, performed, ends⟩ := acted.again other echoes
      exact ⟨last, run_eq_ok.mpr (.inl ⟨replied, performed⟩), ends⟩
    · -- The rule waits for a timer that has not expired this time.
      refine ⟨other, run_eq_ok.mpr (.inr ⟨replied, rfl⟩), ⟨?_, ?_, fun expired => ?_⟩, rfl⟩
      · exact echoes.memory.trans acted.memory.symm
      · exact echoes.state.trans acted.state.symm
      · exact absurd expired running
  · refine ⟨unchanged, rfl, rfl, fun other echoes => ⟨other, ?_, echoes, rfl⟩⟩
    obtain ⟨reply, replied, same⟩ := enabled_echo echoes asked
    obtain rfl : reply = false := same.elim id And.left
    exact run_eq_ok.mpr (.inr ⟨replied, rfl⟩)

/-- A turn that reports no change has found no running timer. Any turn with the same memory and the
same register leaves both as they are, and all that it reports is its own timer. -/
theorem Automaton.still_run {automaton : Automaton} (done : automaton.run turn = .ok after)
    (unchanged : after.changed = false) :
    turn.timer = 0 ∧ after.memory = turn.memory ∧ after.state = turn.state ∧
      ∀ other : Turn, other.memory = turn.memory → other.state = turn.state →
        ∃ last, automaton.run other = .ok last ∧ last.memory = turn.memory ∧
          last.state = turn.state ∧ last.changed = (other.changed || decide (other.timer ≠ 0)) := by
  have still : Turn.Still (fun turn => automaton.rules.foldlM Rule.run turn) turn.tick after :=
    Turn.still_foldlM Rule.run (fun _ _ _ => Rule.still_run) done unchanged
  have stopped : turn.timer = 0 := by
    by_contra running
    have begun := still.begun
    simp [Turn.tick, running] at begun
  have same : turn.tick = turn := if_pos stopped
  rw [same] at still
  refine ⟨stopped, still.memory, still.state, fun other memory state => ?_⟩
  have echoes : other.tick.Echoes turn := by
    refine ⟨(Turn.memory_tick other).trans memory, ?_, fun _ => stopped⟩
    rw [← state]
    unfold Turn.tick
    split <;> rfl
  obtain ⟨last, finished, ends, changed⟩ := still.again other.tick echoes
  refine ⟨last, finished, ends.memory.trans still.memory, ends.state.trans still.state, ?_⟩
  rw [changed, Turn.tick]
  split <;> simp_all

end Turns

/-- With its timer at 0 the automaton can take its turn and reports no change. -/
def Cell.Frozen (cell : Cell) (memory : Memory) : Prop :=
  ∃ turn, turn.changed = false ∧
    cell.automaton.run { memory, state := cell.state, timer := 0 } = .ok turn

namespace Machine

variable {machine next last : Machine} {index : Nat} {cell : Cell}

/-- The machine with all timers at 0. -/
def stopped (machine : Machine) : Machine :=
  { machine with cells := machine.cells.map fun cell => { cell with timer := 0 } }

/-- If no timer were running, no automaton would report a change. -/
def Frozen (machine : Machine) : Prop :=
  ∀ cell ∈ machine.stopped.cells, cell.Frozen machine.stopped.memory

/-- Machines that differ in their timers only are frozen both or not at all. -/
theorem Frozen.congr (frozen : machine.Frozen) (cells : next.stopped.cells = machine.stopped.cells)
    (memory : next.stopped.memory = machine.stopped.memory) : next.Frozen := by
  unfold Frozen
  rw [cells, memory]
  exact frozen

theorem getElem?_stopped (found : machine.cells[index]? = some cell) :
    machine.stopped.cells[index]? = some { cell with timer := 0 } := by
  rw [stopped, Array.getElem?_map, found]
  rfl

theorem stopped_setIfInBounds (found : machine.cells[index]? = some cell) (timer : UInt8) :
    { machine with cells := machine.cells.setIfInBounds index { cell with timer } }.stopped =
      machine.stopped := by
  have cells : (machine.cells.setIfInBounds index { cell with timer }).map
      (fun cell => { cell with timer := 0 }) =
      machine.cells.map fun cell => { cell with timer := 0 } := by
    apply Array.ext_getElem?
    intro place
    rw [Array.getElem?_map, Array.getElem?_map, Array.getElem?_setIfInBounds]
    split
    · rename_i here
      subst here
      rw [if_pos (Array.getElem?_eq_some_iff.mp found).1, found]
      rfl
    · rfl
  simp only [stopped, cells]

/-- In a frozen machine a turn changes its timer at most, and it reports whether that was
running. -/
theorem Frozen.evaluate (frozen : machine.Frozen) (found : machine.cells[index]? = some cell) :
    ∃ next, machine.evaluate index = .ok (next, decide (cell.timer ≠ 0)) ∧
      next.stopped = machine.stopped ∧
      ∀ other, other ≠ index → next.cells[other]? = machine.cells[other]? := by
  obtain ⟨turn, unchanged, done⟩ := frozen _ (Array.mem_of_getElem? (getElem?_stopped found))
  obtain ⟨-, -, -, again⟩ := Automaton.still_run done unchanged
  obtain ⟨last, ran, memory, state, changed⟩ := again
    { memory := machine.memory, state := cell.state, timer := cell.timer } rfl rfl
  refine ⟨_, ?_, stopped_setIfInBounds found last.timer, ?_⟩
  · have evaluated := evaluate_of_run found ran
    rw [evaluated, memory, state, changed]
    rfl
  · intro other apart
    simp [Ne.symm apart]

theorem Frozen.evaluateAll {indices : List Nat} (frozen : machine.Frozen) (nodup : indices.Nodup)
    (inside : ∀ index ∈ indices, index < machine.cells.size) :
    ∃ next changed, machine.evaluateAll indices = .ok (next, changed) ∧
      next.stopped = machine.stopped ∧
      (changed = true ↔
        ∃ index ∈ indices, ∃ cell, machine.cells[index]? = some cell ∧ cell.timer ≠ 0) := by
  induction indices generalizing machine with
  | nil => exact ⟨machine, false, rfl, rfl, by simp⟩
  | cons index indices ih =>
      obtain ⟨missing, nodup⟩ := List.nodup_cons.mp nodup
      obtain ⟨cell, found⟩ : ∃ cell, machine.cells[index]? = some cell :=
        ⟨_, Array.getElem?_eq_getElem (inside index List.mem_cons_self)⟩
      obtain ⟨middle, evaluated, same, others⟩ := frozen.evaluate found
      have cells : middle.stopped.cells = machine.stopped.cells := by rw [same]
      have memory : middle.stopped.memory = machine.stopped.memory := by rw [same]
      have size : middle.cells.size = machine.cells.size := by
        simpa [stopped] using congrArg Array.size cells
      obtain ⟨next, changed, rest, ends, told⟩ := ih (frozen.congr cells memory) nodup
        fun other member => size ▸ inside other (List.mem_cons_of_mem _ member)
      refine ⟨next, decide (cell.timer ≠ 0) || changed,
        evaluateAll_cons_eq_ok.mpr ⟨middle, _, changed, evaluated, rest, rfl⟩, ends.trans same, ?_⟩
      rw [Bool.or_eq_true, decide_eq_true_eq, told, List.exists_mem_cons_iff]
      -- The turn taken first has left the timers of the others alone.
      refine or_congr (by simp [found])
        (exists_congr fun other => and_congr_right fun member => ?_)
      rw [others other (ne_of_mem_of_not_mem member missing)]

/-- Some timer is running. -/
def Running (machine : Machine) : Prop := ∃ cell ∈ machine.cells, cell.timer ≠ 0

instance decidableRunning : Decidable machine.Running :=
  inferInstanceAs (Decidable (∃ cell ∈ machine.cells, cell.timer ≠ 0))

theorem running_iff :
    machine.Running ↔ ∃ index ∈ machine.order, ∃ cell,
      machine.cells[index]? = some cell ∧ cell.timer ≠ 0 := by
  constructor
  · rintro ⟨cell, member, running⟩
    obtain ⟨index, found⟩ := Array.mem_iff_getElem?.mp member
    exact ⟨index, mem_order.mpr (Array.getElem?_eq_some_iff.mp found).1, cell, found, running⟩
  · rintro ⟨index, -, cell, found, running⟩
    exact ⟨cell, Array.mem_of_getElem? found, running⟩

/-- A cycle of a frozen machine changes timers at most, and it reports whether one was running. -/
theorem Frozen.step (frozen : machine.Frozen) :
    ∃ next, machine.step = .ok (next, decide machine.Running) ∧
      next.stopped = { machine.stopped with cycles := machine.cycles + 1 } := by
  obtain ⟨last, changed, evaluated, same, told⟩ := frozen.evaluateAll machine.order_nodup
    fun index member => mem_order.mp member
  have report : changed = decide machine.Running :=
    Bool.eq_iff_iff.mpr (told.trans (running_iff.symm.trans decide_eq_true_iff.symm))
  refine ⟨{ last with cycles := last.cycles + 1 },
    step_eq_ok.mpr ⟨last, report ▸ evaluated, rfl⟩, ?_⟩
  calc { last with cycles := last.cycles + 1 }.stopped
      = { last.stopped with cycles := last.stopped.cycles + 1 } := rfl
    _ = { machine.stopped with cycles := machine.cycles + 1 } := by rw [same]; rfl

theorem Frozen.of_step (frozen : machine.Frozen)
    (same : next.stopped = { machine.stopped with cycles := machine.cycles + 1 }) :
    next.Frozen := by
  have cells : next.stopped.cells = machine.stopped.cells := by rw [same]
  have memory : next.stopped.memory = machine.stopped.memory := by rw [same]
  exact frozen.congr cells memory

/-- However long a frozen machine runs, it changes timers at most. -/
theorem Frozen.run (frozen : machine.Frozen) (count : Nat) :
    ∃ later, machine.run count = .ok later ∧
      later.stopped = { machine.stopped with cycles := machine.cycles + count } := by
  induction count generalizing machine with
  | zero => exact ⟨machine, rfl, rfl⟩
  | succ count ih =>
      obtain ⟨next, stepped, same⟩ := frozen.step
      obtain ⟨later, ran, ends⟩ := ih (frozen.of_step same)
      refine ⟨later, run_succ_eq_ok.mpr ⟨next, _, stepped, ran⟩, ?_⟩
      have cycles : next.stopped.cycles = machine.cycles + 1 := by rw [same]
      rw [ends, same, show next.cycles = machine.cycles + 1 from cycles, Nat.add_right_comm,
        Nat.add_assoc]

/-- A turn that reports no change has changed its timer at most. -/
theorem evaluate_still (evaluated : machine.evaluate index = .ok (next, false)) :
    next.stopped = machine.stopped ∧
      ∃ cell, machine.stopped.cells[index]? = some cell ∧ cell.Frozen machine.stopped.memory := by
  obtain ⟨cell, turn, found, ran, rfl, unchanged⟩ := evaluate_eq_ok evaluated
  obtain ⟨expired, memory, state, -⟩ := Automaton.still_run ran unchanged.symm
  dsimp only at expired memory state
  rw [memory, state]
  refine ⟨stopped_setIfInBounds found turn.timer, _, getElem?_stopped found, turn,
    unchanged.symm, ?_⟩
  rw [← ran, expired]
  rfl

theorem evaluateAll_still {indices : List Nat}
    (evaluated : machine.evaluateAll indices = .ok (next, false)) :
    next.stopped = machine.stopped ∧ ∀ index ∈ indices, ∃ cell,
      machine.stopped.cells[index]? = some cell ∧ cell.Frozen machine.stopped.memory := by
  induction indices generalizing machine with
  | nil =>
      obtain ⟨rfl, -⟩ := Prod.mk.inj (Except.ok.inj evaluated)
      simp
  | cons index indices ih =>
      obtain ⟨middle, early, late, head, tail, told⟩ := evaluateAll_cons_eq_ok.mp evaluated
      obtain ⟨rfl, rfl⟩ := Bool.or_eq_false_iff.mp told.symm
      obtain ⟨kept, first⟩ := evaluate_still head
      obtain ⟨same, others⟩ := ih tail
      rw [kept] at same others
      exact ⟨same, List.forall_mem_cons.mpr ⟨first, others⟩⟩

/-- A cycle that reports no change finds a frozen machine. -/
theorem frozen_of_step (stepped : machine.step = .ok (next, false)) : machine.Frozen := by
  obtain ⟨last, evaluated, -⟩ := step_eq_ok.mp stepped
  intro cell member
  obtain ⟨index, found⟩ := Array.mem_iff_getElem?.mp member
  have inside : index < machine.cells.size := by
    simpa [stopped] using (Array.getElem?_eq_some_iff.mp found).1
  obtain ⟨known, there, frozen⟩ := (evaluateAll_still evaluated).2 index (mem_order.mpr inside)
  obtain rfl := Option.some.inj (there.symm.trans found)
  exact frozen

/-- A cycle that reports no change has found no running timer and has changed timers at most. -/
theorem step_still (stepped : machine.step = .ok (next, false)) :
    ¬machine.Running ∧ next.stopped = { machine.stopped with cycles := machine.cycles + 1 } := by
  obtain ⟨known, again, same⟩ := (frozen_of_step stepped).step
  obtain ⟨rfl, report⟩ := Prod.mk.inj (Except.ok.inj (again.symm.trans stepped))
  exact ⟨of_decide_eq_false report, same⟩

theorem stopped_of_not_running (expired : ¬machine.Running) : machine.stopped = machine := by
  have cells : machine.cells.map (fun cell => { cell with timer := 0 }) = machine.cells := by
    refine (Array.map_congr_left fun cell member => ?_).trans (Array.map_id' _)
    have timer : cell.timer = 0 := by
      by_contra running
      exact expired ⟨cell, member, running⟩
    rw [← timer]
  rw [stopped, cells]

section Counting

variable {changed : Bool} (cycles : Nat)

/-- The number of cycles run so far is of no matter to a turn. -/
theorem evaluate_cycles (evaluated : machine.evaluate index = .ok (next, changed)) :
    { machine with cycles }.evaluate index = .ok ({ next with cycles }, changed) := by
  obtain ⟨cell, turn, found, ran, rfl, rfl⟩ := evaluate_eq_ok evaluated
  have here : { machine with cycles }.cells[index]? = some cell := found
  exact evaluate_of_run here ran

theorem evaluateAll_cycles {indices : List Nat}
    (evaluated : machine.evaluateAll indices = .ok (next, changed)) :
    { machine with cycles }.evaluateAll indices = .ok ({ next with cycles }, changed) := by
  induction indices generalizing machine changed with
  | nil =>
      obtain ⟨rfl, rfl⟩ := Prod.mk.inj (Except.ok.inj evaluated)
      rfl
  | cons index indices ih =>
      obtain ⟨middle, early, late, head, tail, rfl⟩ := evaluateAll_cons_eq_ok.mp evaluated
      exact evaluateAll_cons_eq_ok.mpr
        ⟨_, early, late, evaluate_cycles cycles head, ih tail, rfl⟩

theorem step_cycles (stepped : machine.step = .ok (next, changed)) :
    { machine with cycles }.step = .ok ({ next with cycles := cycles + 1 }, changed) := by
  obtain ⟨last, evaluated, rfl⟩ := step_eq_ok.mp stepped
  exact step_eq_ok.mpr ⟨{ last with cycles }, evaluateAll_cycles cycles evaluated, rfl⟩

end Counting

/-- The machine stays as it is: however long it runs it only counts its cycles, and none of them
reports a change. -/
def Fixed (machine : Machine) : Prop :=
  ∀ count, ∃ later, machine.run count = .ok later ∧
    later = { machine with cycles := machine.cycles + count } ∧
    later.step = .ok ({ later with cycles := later.cycles + 1 }, false)

theorem run_of_step
    (stepped : machine.step = .ok ({ machine with cycles := machine.cycles + 1 }, false))
    (count : Nat) : machine.run count = .ok { machine with cycles := machine.cycles + count } := by
  induction count generalizing machine with
  | zero => rfl
  | succ count ih =>
      have again := ih (step_cycles (machine.cycles + 1) stepped)
      rw [Nat.add_assoc, Nat.add_comm 1] at again
      exact run_succ_eq_ok.mpr ⟨_, false, stepped, again⟩

theorem fixed_of_step
    (stepped : machine.step = .ok ({ machine with cycles := machine.cycles + 1 }, false)) :
    machine.Fixed := by
  intro count
  have again := step_cycles (machine.cycles + count) stepped
  exact ⟨_, run_of_step stepped count, rfl, again⟩

/-- After a cycle that reports no change the machine stays as it is, unless a timer runs. -/
theorem fixed_iff_of_step (stepped : machine.step = .ok (next, false)) :
    next.Fixed ↔ ¬next.Running := by
  constructor
  · rintro fixed running
    obtain ⟨later, ran, -, quiet⟩ := fixed 0
    obtain rfl : next = later := Except.ok.inj ran
    exact (step_still quiet).1 running
  · intro expired
    obtain ⟨before, same⟩ := step_still stepped
    rw [stopped_of_not_running before, stopped_of_not_running expired] at same
    rw [same] at stepped ⊢
    exact fixed_of_step (step_cycles (machine.cycles + 1) stepped)

/-- A machine is told to have settled after a cycle that reports no change. -/
theorem settleWithin_eq_true {bound : Nat}
    (settled : machine.settleWithin bound = .ok (next, true)) :
    ∃ count last, count < bound ∧ machine.run count = .ok last ∧ last.step = .ok (next, false) := by
  induction bound generalizing machine with
  | zero => cases settled
  | succ bound ih =>
      rcases settleWithin_succ_eq_ok.mp settled with ⟨middle, stepped, settled⟩ | ⟨stepped, -⟩
      · obtain ⟨count, last, within, ran, quiet⟩ := ih settled
        exact ⟨count + 1, last, Nat.succ_lt_succ within,
          run_succ_eq_ok.mpr ⟨middle, true, stepped, ran⟩, quiet⟩
      · exact ⟨0, machine, Nat.zero_lt_succ bound, rfl, stepped⟩

end Machine

/-- A rule that starts a timer also changes a bit, or the register, that it has looked at. -/
def Rule.Candid (rule : Rule) : Prop :=
  (∀ cycles, .loadTimer cycles ∉ rule.actions) ∨
    (∃ var value, .bit var value ∈ rule.conditions ∧ .set var (!value) ∈ rule.actions) ∨
    ∃ here there, here ≠ there ∧ .inState here ∈ rule.conditions ∧ .goto there ∈ rule.actions

def Automaton.Candid (automaton : Automaton) : Prop := ∀ rule ∈ automaton.rules, rule.Candid

/-- What the action would bring about is already so; a timer can be started at any time. -/
def Action.Done (turn : Turn) : Action → Prop
  | .set var value => turn.view.bits var = value
  | .goto state => turn.view.state = state
  | .loadTimer _ => True

section Candour

variable {turn after : Turn}

theorem Action.done_of_perform {action : Action} (done : action.perform turn = .ok after)
    (unchanged : after.changed = false) : action.Done turn := by
  cases perform_eq_ok.mp done with
  | keep read => exact (Memory.read_eq_ok.mp read).2
  | stay here => exact here
  | store | leave => cases unchanged
  | load cycles => trivial

theorem Action.done_of_foldlM {actions : List Action}
    (done : actions.foldlM Action.perform turn = .ok after) (unchanged : after.changed = false) :
    ∀ action ∈ actions, action.Done turn := by
  induction actions generalizing turn with
  | nil => simp
  | cons action actions ih =>
      obtain ⟨middle, first, done⟩ := foldlM_cons_eq_ok.mp done
      have rest := Turn.still_foldlM Action.perform (fun _ _ _ => Action.still_perform) done
        unchanged
      have here := Action.still_perform first rest.begun
      refine List.forall_mem_cons.mpr ⟨Action.done_of_perform first rest.begun, ?_⟩
      intro other member
      have later := ih done other member
      cases other with
      | set var value => simpa [Action.Done, Turn.view, here.memory] using later
      | goto state => simpa [Action.Done, Turn.view, here.state] using later
      | loadTimer cycles => trivial

/-- A candid rule that reports no change leaves the timer alone. -/
theorem Rule.Candid.timer_run {rule : Rule} (candid : rule.Candid)
    (done : rule.run turn = .ok after) (unchanged : after.changed = false) :
    after.timer = turn.timer := by
  have view := (Rule.view_run done).1
  rcases Rule.run_eq_ok.mp done with ⟨asked, acted⟩ | ⟨-, rfl⟩
  · have enabled : turn.view.Enables rule := (Rule.meets_iff_of_enabled asked).mpr rfl
    have idle := Action.done_of_foldlM acted unchanged
    rcases candid with untimed | ⟨var, value, looked, changes⟩ |
      ⟨here, there, apart, looked, changes⟩
    · rw [View.fire, if_pos enabled] at view
      exact (congrArg View.timer view).trans (View.timer_carry untimed)
    · -- It has set a bit that was otherwise.
      have before : turn.view.bits var = value := enabled _ looked
      have wanted : turn.view.bits var = !value := idle _ changes
      simp [before] at wanted
    · have before : turn.view.state = here := enabled _ looked
      exact absurd (before.symm.trans (idle _ changes)) apart
  · rfl

theorem Automaton.Candid.timer_run {automaton : Automaton} (candid : automaton.Candid)
    (done : automaton.run turn = .ok after) (unchanged : after.changed = false) :
    after.timer = turn.tick.timer := by
  unfold Automaton.Candid at candid
  unfold Automaton.run at done
  generalize automaton.rules = rules at candid done
  generalize turn.tick = turn at done
  induction rules generalizing turn with
  | nil => exact (congrArg Turn.timer (Except.ok.inj done)).symm
  | cons rule rules ih =>
      obtain ⟨here, others⟩ := List.forall_mem_cons.mp candid
      obtain ⟨middle, first, done⟩ := foldlM_cons_eq_ok.mp done
      have begun : middle.changed = false :=
        (Turn.still_foldlM Rule.run (fun _ _ _ => Rule.still_run) done unchanged).begun
      exact (ih others middle done).trans (here.timer_run first begun)

end Candour

namespace Machine

variable {machine next : Machine}

/-- If all automata are candid, a cycle that reports no change has changed nothing. -/
theorem eq_of_step (candid : ∀ automaton ∈ machine.automata, automaton.Candid)
    (stepped : machine.step = .ok (next, false)) :
    next = { machine with cycles := machine.cycles + 1 } := by
  have still : ∀ index ∈ machine.order, machine.evaluate index = .ok (machine, false) := by
    intro index member
    obtain ⟨cell, found⟩ : ∃ cell, machine.cells[index]? = some cell :=
      ⟨_, Array.getElem?_eq_getElem (mem_order.mp member)⟩
    have expired : cell.timer = 0 := by
      by_contra running
      exact (step_still stepped).1 ⟨cell, Array.mem_of_getElem? found, running⟩
    obtain ⟨turn, unchanged, ran⟩ :=
      frozen_of_step stepped _ (Array.mem_of_getElem? (getElem?_stopped found))
    obtain ⟨-, memory, state, -⟩ := Automaton.still_run ran unchanged
    have listed : cell.automaton ∈ machine.automata :=
      List.mem_map_of_mem (Array.mem_toList_iff.mpr (Array.mem_of_getElem? found))
    have timer : turn.timer = 0 := (candid _ listed).timer_run ran unchanged
    have same : turn = { memory := machine.memory, state := cell.state, timer := 0 } := by
      obtain ⟨bits, register, count, changed⟩ := turn
      obtain rfl : bits = machine.memory := memory
      obtain rfl : register = cell.state := state
      obtain rfl : count = 0 := timer
      obtain rfl : changed = false := unchanged
      rfl
    apply evaluate_eq_self found
    rw [expired, ← same]
    exact same ▸ ran
  exact (Prod.mk.inj (Except.ok.inj (stepped.symm.trans (step_eq_self still)))).1

end Machine

section Programs

variable {layout : Layout}

theorem Layout.Untimed.candid {rules : List Rule} (untimed : Layout.Untimed rules) :
    ∀ rule ∈ rules, rule.Candid :=
  fun rule member => .inl (untimed rule member)

theorem filterRules_candid (occupancy raw : Var) (window : UInt8) (shadow : Var) :
    ∀ rule ∈ filterRules occupancy raw window shadow, rule.Candid := by
  simp only [filterRules, List.forall_mem_cons]
  refine ⟨.inr (.inl ⟨shadow, false, ?_, ?_⟩), .inr (.inl ⟨shadow, true, ?_, ?_⟩), .inl ?_,
    .inl ?_, ?_⟩
  all_goals simp

theorem Site.untimed_passageRules (site : Site) (index : Nat) :
    Layout.Untimed (site.passageRules layout index) := by
  unfold passageRules
  split
  · simp [Layout.Untimed]
  · split
    · simp [Layout.Untimed]
    · exact Layout.untimed_handshakeRules _ _ _ _ _

namespace Piece

theorem tracking_candid (piece : Piece) : ∀ rule ∈ piece.tracking layout, rule.Candid := by
  unfold tracking
  split
  · refine List.forall_mem_append.mpr ⟨?_, (Layout.untimed_tracking _).candid⟩
    split
    · cases layout.neighbourOccupancy? _ <;> simp [copyRules, Rule.Candid]
    · exact filterRules_candid _ _ _ _
    · simp
  · exact (Layout.untimed_tracking _).candid
  · simp

theorem untimed_duties (piece : Piece) :
    ∀ duty ∈ piece.duties layout, Layout.Untimed duty.rules := by
  have worked (site : Site) : ∀ duty ∈ site.duties layout, Layout.Untimed duty.rules :=
    List.forall_mem_map.mpr fun _ _ => site.untimed_passageRules _
  unfold duties
  split
  · split
    · simp only [List.forall_mem_cons]
      refine ⟨?_, ?_, Site.untimed_passageRules _ _, by simp⟩
      · cases layout.inlet? _ <;> simp [Layout.Untimed, Lane.terminusRules, answerResetRules]
      · cases layout.outlet? _ <;> simp [Layout.Untimed, Lane.signalRouteRules,
          Lane.originRules, Lane.originRelease, releaseDoneRules]
    · exact worked _
  · refine List.forall_mem_append.mpr ⟨worked _, ?_⟩
    split
    · cases layout.inlet? _ <;> simp [Layout.Untimed, Turnout.deadBranchRules, answerResetRules]
    · simp
  · rw [List.forall_mem_singleton]
    split <;> simp [Layout.Untimed, endpointRules, answerResetRules]

theorem untimed_summary (piece : Piece) : Layout.Untimed (piece.summary layout) := by
  refine .append ?_ (by simp [Layout.Untimed, RuleBook.startRule])
  split
  · split
    · cases layout.neighbourOccupancy? _ <;> simp [Layout.Untimed, Lane.aspectRules]
    · simp [Layout.Untimed]
  · split
    · simp [Layout.Untimed]
    · refine .append (.append ?_ (by simp [Layout.Untimed]))
        (by simp [Layout.Untimed, Turnout.motorRules])
      exact List.forall_mem_map.mpr fun _ _ => by simp
  · simp [Layout.Untimed]

/-- Among the rules of a piece only a filter starts the timer, whenever its raw bit changes. -/
theorem automaton_candid (piece : Piece) (layout : Layout) : (piece.automaton layout).Candid := by
  unfold Automaton.Candid
  rw [rules_automaton]
  refine List.forall_mem_append.mpr ⟨List.forall_mem_append.mpr ⟨piece.tracking_candid, ?_⟩,
    piece.untimed_summary.candid⟩
  intro rule member
  obtain ⟨duty, listed, own⟩ := List.mem_flatMap.mp member
  exact (piece.untimed_duties duty listed).candid rule own

end Piece

theorem Arbiter.build_candid {arbiter : Arbiter} {automaton : Automaton}
    (built : arbiter.build = .ok automaton) : automaton.Candid := by
  have untimed : Layout.Untimed (arbiter.ruleList ++ [RuleBook.startRule]) := by
    refine .append (List.forall_mem_cons.mpr ⟨by simp, List.forall_mem_append.mpr ⟨?_, ?_⟩⟩)
      (by simp [Layout.Untimed, RuleBook.startRule])
    · intro rule member
      obtain ⟨numbered, -, own⟩ := List.mem_flatMap.mp member
      simp only [returning, returnRules, List.mem_cons, List.not_mem_nil, or_false] at own
      rcases own with rfl | rfl <;> simp
    · intro rule member
      obtain ⟨start, -, own⟩ := List.mem_flatMap.mp member
      obtain ⟨client, index, rest, -, rfl⟩ := mem_granting own
      simp
  unfold Automaton.Candid
  rw [(Arbiter.build_eq_ok built).2.1]
  exact untimed.candid

/-- A schedule starts its timer when it leaves the initial state. -/
theorem Schedule.build_candid (schedule : Schedule) (layout : Layout) :
    (schedule.build layout).Candid := by
  unfold Automaton.Candid
  rw [rules_build_calm]
  refine List.forall_mem_append.mpr ⟨?_, ?_⟩
  · intro rule member
    refine .inl fun cycles loads => ?_
    exact calm_calmRules rule member _ loads
  · simp only [windowRules, List.forall_mem_cons]
    refine ⟨.inl (by simp), .inr (.inr ⟨.initial, Stage.recovering.state, by decide, ?_, ?_⟩),
      .inl (by simp [RuleBook.startRule]), by simp⟩
    · simp
    · simp [advance]

/-- A program is candid if its custom books are. -/
theorem Program.candid_of_compile {sources : List Source} {program : Program}
    (compiled : Program.compile layout sources = .ok program)
    (books : ∀ book, .custom book ∈ sources → book.build.Candid) :
    ∀ automaton ∈ program.automata, automaton.Candid := by
  obtain ⟨-, extra, mapped, automata⟩ := Program.automata_of_compile compiled
  rw [automata]
  refine List.forall_mem_append.mpr ⟨?_, ?_⟩
  · exact List.forall_mem_map.mpr fun piece _ => piece.automaton_candid layout
  · intro automaton member
    obtain ⟨source, listed, built⟩ := mem_of_mapM_eq_ok mapped member
    cases source with
    | permission arbiter => exact Arbiter.build_candid built
    | train schedule =>
        obtain rfl := Except.ok.inj built
        exact schedule.build_candid layout
    | custom book =>
        obtain rfl := Except.ok.inj built
        exact books book listed

end Programs

section Alarm

/-- Two variables and nothing else. -/
def alarmYard : Yard := (Yard.empty {}).performAll [.external "x", .external "y"]

/-- A timer is started as long as `x` is 1. -/
def alarmBook : RuleBook := { name := "alarm" : RuleBook }.contribute .route [
  { conditions := [.on ⟨0⟩], actions := [.loadTimer 3] }]

/-- A timer is started when `x` becomes 1, of which `y` takes note. -/
def bellBook : RuleBook := { name := "bell" : RuleBook }.contribute .route [
  { conditions := [.on ⟨0⟩, .off ⟨1⟩], actions := [.raise ⟨1⟩, .loadTimer 3] }]

theorem alarmBook_shows :
    ∃ program ∈ (Program.compile alarmYard.layout [.custom alarmBook]).toOption,
      ∃ idle ∈ (Machine.powerOn program {}).settle.toOption, idle.2 = true ∧
      ∃ machine ∈ (idle.1.set ⟨0⟩ true).toOption, ∃ next ∈ machine.step.toOption, next.2 = false ∧
        next.1.Running := by
  decide +kernel

theorem bellBook_shows :
    ∃ program ∈ (Program.compile alarmYard.layout [.custom bellBook]).toOption,
      ∃ idle ∈ ((Machine.powerOn program {}).set ⟨0⟩ true).toOption,
      ∃ machine ∈ (idle.run 6).toOption, machine.automata = program.automata ∧
        ∃ next ∈ machine.step.toOption, next.2 = false := by
  decide +kernel

theorem bellBook_candid : bellBook.build.Candid := by
  have rules : bellBook.build.rules = [
      { conditions := [.on ⟨0⟩, .off ⟨1⟩], actions := [.raise ⟨1⟩, .loadTimer 3] },
      RuleBook.startRule] := by decide
  unfold Automaton.Candid
  rw [rules]
  simp only [List.forall_mem_cons]
  refine ⟨.inr (.inl ⟨⟨1⟩, false, ?_, ?_⟩), .inl ?_, ?_⟩
  all_goals simp [RuleBook.startRule]

end Alarm

/-- A machine that settles has come to rest, but for timers that were started in the last cycle.
Take a cycle of any machine that reports no change, whatever its automata and the order of their
turns. Then no timer was running before, and what the cycle has left is the same machine, but that
timers may be running now. However long it runs on, it succeeds, its bits and registers stay the
same, and a cycle reports a change exactly if some timer is running before it; so the machine stays
exactly as it is if and only if no timer is running. A machine is told to have settled after such a
cycle only. If all rules which start a timer also change something that they have looked at, then no
timer is running at that point. This is so in every compiled layout with arbiters and schedules, and
it is for the custom books to see to it. -/
theorem only_timers_move_after_a_quiet_cycle (machine next : Machine) :
    (machine.step = .ok (next, false) →
      next.stopped = { machine with cycles := machine.cycles + 1 } ∧
      (∀ count, ∃ later after, next.run count = .ok later ∧
        later.stopped = { machine with cycles := machine.cycles + 1 + count } ∧
        later.step = .ok (after, decide later.Running)) ∧
      (next.Fixed ↔ ¬next.Running)) ∧
    (machine.settle = .ok (next, true) →
      ∃ count last, machine.run count = .ok last ∧ last.step = .ok (next, false)) ∧
    ∀ layout sources program, Program.compile layout sources = .ok program →
      (∀ book, .custom book ∈ sources → book.build.Candid) →
      machine.automata = program.automata → machine.step = .ok (next, false) →
        next = { machine with cycles := machine.cycles + 1 } ∧ next.Fixed := by
  refine ⟨?_, ?_, ?_⟩
  · intro stepped
    obtain ⟨expired, same⟩ := Machine.step_still stepped
    have frozen := (Machine.frozen_of_step stepped).of_step same
    have cycles : next.stopped.cycles = machine.cycles + 1 := by rw [same]
    rw [Machine.stopped_of_not_running expired] at same
    refine ⟨same, fun count => ?_, Machine.fixed_iff_of_step stepped⟩
    obtain ⟨later, ran, ends⟩ := frozen.run count
    have still : later.Frozen := frozen.congr (by rw [ends]) (by rw [ends])
    obtain ⟨after, again, -⟩ := still.step
    refine ⟨later, after, ran, ?_, again⟩
    rw [ends, same, show next.cycles = machine.cycles + 1 from cycles]
  · intro settled
    obtain ⟨count, last, -, ran, quiet⟩ := Machine.settleWithin_eq_true settled
    exact ⟨count, last, ran, quiet⟩
  · intro layout sources program compiled books automata stepped
    have candid : ∀ automaton ∈ machine.automata, automaton.Candid := by
      rw [automata]
      exact Program.candid_of_compile compiled books
    have same := Machine.eq_of_step candid stepped
    refine ⟨same, ?_⟩
    rw [same] at stepped ⊢
    exact Machine.fixed_of_step (Machine.step_cycles (machine.cycles + 1) stepped)

/-- The alarm goes on after it has settled, and the bell is silent for good. -/
theorem only_timers_move_after_the_alarm :
    (∃ machine next : Machine, machine.step = .ok (next, false) ∧ ¬next.Fixed ∧
      next.stopped = { machine with cycles := machine.cycles + 1 }) ∧
    (∃ machine next : Machine, machine.settle = .ok (next, true) ∧
      ∃ count last, machine.run count = .ok last ∧ last.step = .ok (next, false)) ∧
    ∃ (program : Program) (machine next : Machine),
      Program.compile alarmYard.layout [.custom bellBook] = .ok program ∧
      machine.automata = program.automata ∧ machine.step = .ok (next, false) ∧ next.Fixed := by
  obtain ⟨_, -, ⟨idle, _⟩, settled, rfl, machine, -, ⟨next, _⟩, stepped, rfl, running⟩ :=
    alarmBook_shows
  obtain ⟨program, compiled, -, -, silent, -, automata, ⟨last, _⟩, rested, rfl⟩ := bellBook_shows
  rw [Machine.mem_toOption_iff] at settled stepped compiled rested
  obtain ⟨same, -, fixed⟩ := (only_timers_move_after_a_quiet_cycle machine next).1 stepped
  refine ⟨⟨machine, next, stepped, fun stays => fixed.mp stays running, same⟩,
    ⟨_, idle, settled, (only_timers_move_after_a_quiet_cycle _ idle).2.1 settled⟩,
    ⟨program, silent, last, compiled, automata, rested, ?_⟩⟩
  · refine ((only_timers_move_after_a_quiet_cycle silent last).2.2 _ _ program compiled ?_ automata
      rested).2
    intro book listed
    obtain rfl := Source.custom.inj (List.mem_singleton.mp listed)
    exact bellBook_candid

/-- A cycle that starts a timer reports no change, so the machine is told to have settled; but the
next cycle does report one. -/
theorem quiet_cycle_starts_timer :
    ∃ program ∈ (Program.compile alarmYard.layout [.custom alarmBook]).toOption,
      ∃ idle ∈ (Machine.powerOn program {}).settle.toOption,
      ∃ machine ∈ (idle.1.set ⟨0⟩ true).toOption, ∃ next ∈ machine.step.toOption, next.2 = false ∧
        next.1 ≠ { machine with cycles := machine.cycles + 1 } ∧
        (∃ settled ∈ machine.settle.toOption, settled = (next.1, true)) ∧
        ∃ after ∈ next.1.step.toOption, after.2 = true := by
  decide +kernel

end Interlocking
