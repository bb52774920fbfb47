import Interlocking.Proofs.Cycles
import Interlocking.Proofs.Distinctness

/-!
# Bits in the hands of one automaton

In a run automata take turns in any order, and variables are written from outside. Where some bits
are left to one automaton, what is known of these bits, and of the register and the timer of the
automaton, changes only in its own turns. So what one turn maintains is maintained in every run.
-/

namespace Interlocking

/-- A turn leaves the bits alone that no rule of its automaton writes. -/
theorem Machine.value_evaluate {machine next : Machine} {index : Nat} {changed : Bool} {cell : Cell}
    (found : machine.cells[index]? = some cell)
    (evaluated : machine.evaluate index = .ok (next, changed)) {var : Var}
    (apart : ∀ rule ∈ cell.automaton.rules, var ∉ rule.writes) :
    next.memory.value var = machine.memory.value var := by
  obtain ⟨known, after, here, -, -, view, -, -⟩ := view_evaluate evaluated
  obtain rfl := Option.some.inj (here.symm.trans found)
  have bits : ((known.view machine.memory).tick.pass known.automaton.rules).bits var =
      (known.view machine.memory).tick.bits var := View.bits_pass apart
  rw [← view, View.bits_tick] at bits
  exact bits

namespace Program

/-- While the events happen, nobody but the automaton at the place writes the variables. -/
@[mk_iff]
structure Entrusts (program : Program) (index : Nat) (vars : List Var) (events : List Event) :
    Prop where
  others : ∀ entry ∈ program.automata.zipIdx, entry.2 ≠ index →
    ∀ rule ∈ entry.1.rules, ∀ var ∈ rule.writes, var ∉ vars
  writes : ∀ var ∈ vars, ∀ value, .write var value ∉ events

instance (program : Program) (index : Nat) (vars : List Var) :
    DecidablePred (program.Entrusts index vars) :=
  fun _ => decidable_of_iff' _ (entrusts_iff ..)

/-- The machine runs the program, and the automaton at the place sees a view of this kind. -/
structure Sees (program : Program) (index : Nat) (kind : View → Prop) (machine : Machine) :
    Prop where
  automata : machine.automata = program.automata
  size : machine.memory.bits.size = program.table.span
  sees : ∃ cell, machine.cells[index]? = some cell ∧ kind (cell.view machine.memory)

end Program

/-- Whether a view is of this kind depends on the register, the timer and these bits. -/
def View.LooksAt (vars : List Var) (kind : View → Prop) : Prop :=
  ∀ view next : View, next.state = view.state → next.timer = view.timer →
    (∀ var ∈ vars, next.bits var = view.bits var) → kind view → kind next

namespace Program

variable {program : Program} {index : Nat} {vars : List Var} {events : List Event}
  {automaton : Automaton} {kind : View → Prop} {machine next last : Machine}

namespace Sees

theorem powerOn (placed : program.automata[index]? = some automaton) (settings : SimConfig)
    (begins : kind ⟨fun _ => false, .initial, 0⟩) :
    program.Sees index kind (Machine.powerOn program settings) where
  automata := Machine.automata_powerOn program settings
  size := by simp [Machine.powerOn, Memory.zeros]
  sees := by
    refine ⟨{ automaton }, by simp [Machine.powerOn, placed], ?_⟩
    have zero : (Memory.zeros program.table.span).value = fun _ => false :=
      funext (Memory.value_zeros _)
    rw [Cell.view, Machine.powerOn, zero]
    exact begins

/-- In the turn of the automaton its rules do what they do to its view. -/
theorem evaluate (sees : program.Sees index kind machine)
    (placed : program.automata[index]? = some automaton) {later : View → Prop}
    (turns : ∀ {view : View}, kind view → later (view.tick.pass automaton.rules)) {changed : Bool}
    (evaluated : machine.evaluate index = .ok (next, changed)) : program.Sees index later next := by
  obtain ⟨cell, found, holds⟩ := sees.sees
  obtain ⟨known, after, here, there, -, view, -, size⟩ := Machine.view_evaluate evaluated
  obtain rfl := Option.some.inj (here.symm.trans found)
  have same : known.automaton = automaton :=
    Option.some.inj ((Machine.automata_getElem? here).symm.trans (sees.automata ▸ placed))
  refine ⟨(Machine.frame_evaluate evaluated).1.trans sees.automata, size.trans sees.size, after,
    there, ?_⟩
  rw [view, same]
  exact turns holds

/-- Whatever else happens is not noticed. -/
theorem react (sees : program.Sees index kind machine)
    (entrusts : program.Entrusts index vars events) (looks : View.LooksAt vars kind) {event : Event}
    (member : event ∈ events) (elsewhere : event ≠ .turn index)
    (reacted : machine.react event = .ok next) : program.Sees index kind next := by
  obtain ⟨cell, found, holds⟩ := sees.sees
  have automata := (Machine.automata_react reacted).trans sees.automata
  cases event with
  | turn place =>
      have apart : place ≠ index := fun same => elsewhere (same ▸ rfl)
      obtain ⟨changed, evaluated⟩ := Machine.react_turn_eq_ok reacted
      obtain ⟨other, -, there, -, -, -, others, size⟩ := Machine.view_evaluate evaluated
      have stands : (other.automaton, place) ∈ program.automata.zipIdx := by
        rw [← sees.automata, List.mem_zipIdx_iff_getElem?]
        exact Machine.automata_getElem? there
      refine ⟨automata, size.trans sees.size, cell, (others index apart.symm).trans found,
        looks (cell.view machine.memory) _ rfl rfl (fun var listed => ?_) holds⟩
      exact Machine.value_evaluate there evaluated fun rule known written =>
        entrusts.others _ stands apart rule known var written listed
  | write var value =>
      obtain ⟨memory, stored, rfl⟩ := Machine.set_eq_ok reacted
      obtain ⟨size, values⟩ := Memory.write_eq_ok stored
      refine ⟨automata, size.trans sees.size, cell, found,
        looks (cell.view machine.memory) _ rfl rfl (fun other listed => ?_) holds⟩
      have apart : other ≠ var := fun same => entrusts.writes other listed value (same ▸ member)
      exact (values other).trans (if_neg apart)

/-- What the turns of the automaton maintain is maintained in a run. -/
theorem play (sees : program.Sees index kind machine)
    (entrusts : program.Entrusts index vars events) (looks : View.LooksAt vars kind)
    (placed : program.automata[index]? = some automaton)
    (turns : .turn index ∈ events → ∀ {view : View}, kind view →
      kind (view.tick.pass automaton.rules))
    (played : machine.play events = .ok last) : program.Sees index kind last := by
  refine Machine.play_induct (motive := fun _ machine => program.Sees index kind machine)
    sees ?_ played
  intro past event middle next inside _ sees reacted
  by_cases here : event = .turn index
  · subst here
    obtain ⟨changed, evaluated⟩ := Machine.react_turn_eq_ok reacted
    exact sees.evaluate placed (turns (inside.subset (by simp))) evaluated
  · exact sees.react entrusts looks (inside.subset (by simp)) here reacted

/-- The register can be asked for by the name of the automaton. -/
theorem exists_cell (sees : program.Sees index kind machine)
    (names : (program.automata.map (·.name)).Nodup)
    (placed : program.automata[index]? = some automaton) :
    ∃ cell, machine.cells[index]? = some cell ∧ cell.automaton = automaton ∧
      machine.state? automaton.name = some cell.state ∧ kind (cell.view machine.memory) := by
  obtain ⟨cell, found, holds⟩ := sees.sees
  have same : cell.automaton = automaton :=
    Option.some.inj ((Machine.automata_getElem? found).symm.trans (sees.automata ▸ placed))
  exact ⟨cell, found, same, same ▸ Machine.state?_eq (sees.automata ▸ names) found, holds⟩

end Sees

end Program

namespace Schedule

variable {schedule : Schedule}

/-- No turnout is commanded by a bit of the schedule's own. -/
def SparesOwn (schedule : Schedule) : Prop :=
  ∀ move ∈ schedule.moves, ∀ entry ∈ move.turnouts, entry.1.command ∉ schedule.own

instance : DecidablePred SparesOwn := fun schedule => inferInstanceAs (Decidable
  (∀ move ∈ schedule.moves, ∀ entry ∈ move.turnouts, entry.1.command ∉ schedule.own))

/-- A run from power-on up to a turn of a schedule. Nothing is known of what happens before the
first turn of the schedule. From then on these bits are left to the schedule, whatever else runs and
is written. -/
structure Stint (schedule : Schedule) (vars : List Var) where
  config : Config
  orders : List Order
  declared : schedule ∈ ((Yard.empty config).performAll orders).schedules
  spares : schedule.SparesOwn
  sources : List Source
  program : Program
  compiled : Program.compile ((Yard.empty config).performAll orders).layout sources = .ok program
  index : Nat
  placed : program.automata[index]? =
    some (schedule.build ((Yard.empty config).performAll orders).layout)
  settings : SimConfig
  before : List Event
  first : .turn index ∉ before
  start : Machine
  started : (Machine.powerOn program settings).play before = .ok start
  events : List Event
  entrusts : program.Entrusts index vars events
  machine : Machine
  played : start.play (events ++ [Event.turn index]) = .ok machine

/-- The run, if it meets the conditions and succeeds. Only the kernel works it out. -/
@[irreducible]
def stint? (schedule : Schedule) (vars : List Var) (config : Config) (orders : List Order)
    (sources : List Source) (index : Nat) (settings : SimConfig) (before events : List Event) :
    Option (schedule.Stint vars) :=
  let yard := (Yard.empty config).performAll orders
  if declared : schedule ∈ yard.schedules then
    if spares : schedule.SparesOwn then
      match compiled : Program.compile yard.layout sources with
      | .error _ => none
      | .ok program =>
          if placed : program.automata[index]? = some (schedule.build yard.layout) then
            if first : .turn index ∉ before then
              match started : (Machine.powerOn program settings).play before with
              | .error _ => none
              | .ok start =>
                  if entrusts : program.Entrusts index vars events then
                    match played : start.play (events ++ [Event.turn index]) with
                    | .error _ => none
                    | .ok machine => some {
                        config, orders, declared, spares, sources, program, compiled, index,
                        placed, settings, before, first, start, started, events, entrusts, machine,
                        played }
                  else none
            else none
          else none
    else none
  else none

namespace Stint

variable {vars : List Var} (stint : schedule.Stint vars)

theorem listed : schedule.Listed ((Yard.empty stint.config).performAll stint.orders) :=
  (Yard.performAll_distinct stint.config stint.orders).schedules schedule stint.declared

/-- The first turn begins in the power-on state. -/
theorem fresh : stint.program.Sees stint.index
    (fun view => view.state = .initial ∧ view.timer = 0) stint.start := by
  have nothing : stint.program.Entrusts stint.index [] stint.before := ⟨by simp, by simp⟩
  refine Program.Sees.play (.powerOn stint.placed stint.settings ⟨rfl, rfl⟩) nothing ?_
    stint.placed (fun turn => absurd turn stint.first) stint.started
  rintro view next state timer - ⟨initial, stopped⟩
  exact ⟨state.trans initial, timer.trans stopped⟩

/-- What the turns of the schedule maintain holds at the end. -/
theorem sees {kind later : View → Prop} (looks : View.LooksAt vars kind)
    (begins : ∀ view : View, view.state = .initial → view.timer = 0 →
      view.bits = stint.start.memory.value → kind view)
    (turns : ∀ {layout view}, kind view → later (view.tick.pass (schedule.build layout).rules))
    (keeps : ∀ {view}, later view → kind view) :
    stint.program.Sees stint.index later stint.machine := by
  obtain ⟨automata, size, cell, found, initial, stopped⟩ := stint.fresh
  obtain ⟨middle, before, reacted⟩ := Machine.play_concat_eq_ok.mp stint.played
  obtain ⟨changed, evaluated⟩ := Machine.react_turn_eq_ok reacted
  have begun : stint.program.Sees stint.index kind stint.start :=
    ⟨automata, size, cell, found, begins _ initial stopped rfl⟩
  have played := begun.play stint.entrusts looks stint.placed (fun _ _ holds => keeps (turns holds))
    before
  exact played.evaluate stint.placed turns evaluated

theorem own_lt {var : Var} (owned : var ∈ schedule.own) :
    var.index < stint.program.table.span := by
  rw [(Program.automata_of_compile stint.compiled).1]
  exact stint.listed.below var owned

theorem get_eq_ok {machine : Machine} (size : machine.memory.bits.size = stint.program.table.span)
    {var : Var} (owned : var ∈ schedule.own) {value : Bool}
    (shows : machine.memory.value var = value) :
    machine.get var = .ok value :=
  Memory.read_eq_ok.mpr ⟨size ▸ stint.own_lt owned, shows⟩

end Stint

end Schedule

end Interlocking
