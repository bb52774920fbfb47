import Interlocking.Proofs.SourceRules
import Interlocking.Proofs.Turns
import Interlocking.Proofs.Yard
import Mathlib.Data.List.Induction

/-!
# Operation

A yard in operation: its layout was compiled together with arbiters and schedules that
were declared on it, and the machine runs from power-on. Automata take their turns one by
one in any order, and between the turns the outside world writes the variables that are
open to it. Whatever happens, the reservation protocol is maintained.
-/

namespace Interlocking

open Function (update)

/-- Something that happens to a machine. -/
inductive Event where
  /-- The automaton at a place takes its turn. -/
  | turn (index : Nat)
  /-- A variable is given a value from outside. -/
  | write (var : Var) (value : Bool)
  deriving DecidableEq, Repr

@[simp] theorem Turn.memory_tick (turn : Turn) : turn.tick.memory = turn.memory := by
  unfold Turn.tick
  split <;> rfl

namespace Machine

/-- What an event makes of a machine. -/
def react (machine : Machine) : Event → Except Failure Machine
  | .turn index => do return (← machine.evaluate index).1
  | .write var value => machine.set var value

/-- What a sequence of events makes of a machine. -/
def play (machine : Machine) (events : List Event) : Except Failure Machine :=
  events.foldlM react machine

/-- The automata of a machine in the order of their places. -/
def automata (machine : Machine) : List Automaton := machine.cells.toList.map (·.automaton)

variable {machine next last : Machine}

theorem mem_automata {index : Nat} {cell : Cell} (found : machine.cells[index]? = some cell) :
    cell.automaton ∈ machine.automata :=
  List.mem_map.mpr ⟨cell, Array.mem_toList_iff.mpr (Array.mem_of_getElem? found), rfl⟩

/-- A turn that succeeds is one of the automaton at the place. -/
theorem evaluate_eq_ok {index : Nat} {changed : Bool}
    (evaluated : machine.evaluate index = .ok (next, changed)) :
    ∃ cell turn, machine.cells[index]? = some cell ∧
      cell.automaton.run
        { memory := machine.memory, state := cell.state, timer := cell.timer } = .ok turn ∧
      next = { machine with
        cells := machine.cells.setIfInBounds index
          { cell with state := turn.state, timer := turn.timer }
        memory := turn.memory } ∧ changed = turn.changed := by
  unfold evaluate at evaluated
  cases found : machine.cells[index]? with
  | none => simp [found] at evaluated
  | some cell =>
      simp only [found] at evaluated
      obtain ⟨turn, ran, done⟩ := bind_eq_ok.mp evaluated
      obtain ⟨same, flag⟩ := Prod.mk.inj (Except.ok.inj done)
      exact ⟨cell, turn, rfl, ran, same.symm, flag.symm⟩

/-- A turn of the automaton at the place that succeeds is one of the machine. -/
theorem evaluate_of_run {index : Nat} {cell : Cell} {turn : Turn}
    (found : machine.cells[index]? = some cell)
    (ran : cell.automaton.run
      { memory := machine.memory, state := cell.state, timer := cell.timer } = .ok turn) :
    machine.evaluate index = .ok ({ machine with
      cells := machine.cells.setIfInBounds index { cell with state := turn.state, timer := turn.timer }
      memory := turn.memory }, turn.changed) := by
  simp only [evaluate, found]
  exact bind_eq_ok.mpr ⟨turn, ran, rfl⟩

/-- A turn that leaves all it works on as it is leaves the machine as it is. -/
theorem evaluate_eq_self {index : Nat} {cell : Cell} (found : machine.cells[index]? = some cell)
    (still : cell.automaton.run
      { memory := machine.memory, state := cell.state, timer := cell.timer } =
        .ok { memory := machine.memory, state := cell.state, timer := cell.timer }) :
    machine.evaluate index = .ok (machine, false) := by
  have kept : machine.cells.setIfInBounds index cell = machine.cells := by
    apply Array.ext_getElem?
    intro place
    rw [Array.getElem?_setIfInBounds]
    split
    · rename_i here
      subst here
      rw [found, if_pos (Array.getElem?_eq_some_iff.mp found).1]
    · rfl
  simp only [evaluate_of_run found still, kept]

/-- A cycle in which no turn changes anything. -/
theorem step_eq_self
    (still : ∀ index ∈ machine.order, machine.evaluate index = .ok (machine, false)) :
    machine.step = .ok ({ machine with cycles := machine.cycles + 1 }, false) := by
  have evaluated : ∀ indices : List Nat,
      (∀ index ∈ indices, machine.evaluate index = .ok (machine, false)) →
      machine.evaluateAll indices = .ok (machine, false) := by
    intro indices still
    induction indices with
    | nil => rfl
    | cons index indices ih =>
        obtain ⟨here, others⟩ := List.forall_mem_cons.mp still
        exact evaluateAll_cons_eq_ok.mpr ⟨machine, false, false, here, ih others, rfl⟩
  exact step_eq_ok.mpr ⟨machine, evaluated machine.order still, rfl⟩

theorem set_eq_ok {var : Var} {value : Bool} (written : machine.set var value = .ok next) :
    ∃ memory, machine.memory.write var value = .ok memory ∧ next = { machine with memory } := by
  obtain ⟨memory, stored, done⟩ := bind_eq_ok.mp written
  exact ⟨memory, stored, (Except.ok.inj done).symm⟩

theorem set_of_write {var : Var} {value : Bool} {memory : Memory}
    (stored : machine.memory.write var value = .ok memory) :
    machine.set var value = .ok { machine with memory } :=
  bind_eq_ok.mpr ⟨memory, stored, rfl⟩

theorem react_turn_eq_ok {index : Nat} (reacted : machine.react (.turn index) = .ok next) :
    ∃ changed, machine.evaluate index = .ok (next, changed) := by
  obtain ⟨outcome, evaluated, done⟩ := bind_eq_ok.mp reacted
  exact ⟨outcome.2, by rw [evaluated, ← Except.ok.inj done]⟩

theorem react_turn {index : Nat} {changed : Bool}
    (evaluated : machine.evaluate index = .ok (next, changed)) :
    machine.react (.turn index) = .ok next :=
  bind_eq_ok.mpr ⟨_, evaluated, rfl⟩

theorem automata_powerOn (program : Program) (config : SimConfig) :
    (powerOn program config).automata = program.automata := by
  simp [automata, powerOn, Function.comp_def]

/-- No event changes the automata. -/
theorem automata_react {event : Event} (reacted : machine.react event = .ok next) :
    next.automata = machine.automata := by
  cases event with
  | turn index =>
      obtain ⟨changed, evaluated⟩ := react_turn_eq_ok reacted
      obtain ⟨cell, turn, found, _, rfl, _⟩ := evaluate_eq_ok evaluated
      obtain ⟨inside, rfl⟩ := Array.getElem?_eq_some_iff.mp found
      apply List.ext_getElem?
      intro place
      simp only [automata, List.getElem?_map, Array.getElem?_toList, Array.getElem?_setIfInBounds]
      split
      · rename_i same
        subst same
        simp [inside]
      · rfl
  | write var value =>
      obtain ⟨memory, _, rfl⟩ := set_eq_ok reacted
      rfl

theorem play_cons {event : Event} (reacted : machine.react event = .ok next)
    (events : List Event) : machine.play (event :: events) = next.play events := by
  simp [play, reacted, bind, Except.bind]

theorem play_append {past : List Event} (played : machine.play past = .ok next)
    (events : List Event) : machine.play (past ++ events) = next.play events := by
  simp only [play] at played
  simp [play, played, bind, Except.bind]

/-- The last event of a run starts where the events before it have ended. -/
theorem play_concat_eq_ok {past : List Event} {event : Event} :
    machine.play (past ++ [event]) = .ok last ↔
      ∃ middle, machine.play past = .ok middle ∧ middle.react event = .ok last := by
  simp only [play, List.foldlM_append, bind_eq_ok, foldlM_cons_eq_ok]
  refine exists_congr fun middle => and_congr_right fun _ => ?_
  constructor
  · rintro ⟨_, reacted, same⟩
    exact Except.ok.inj same ▸ reacted
  · exact fun reacted => ⟨last, reacted, rfl⟩

/-- What holds at first and is maintained by each event holds at last. That the run got so
far can be relied on. -/
theorem play_induct {motive : List Event → Machine → Prop} {events : List Event}
    (begins : motive [] machine)
    (goes : ∀ past event middle next, past ++ [event] <+: events → machine.play past = .ok middle →
      motive past middle → middle.react event = .ok next → motive (past ++ [event]) next)
    (played : machine.play events = .ok last) : motive events last := by
  induction events using List.reverseRecOn generalizing last with
  | nil => exact Except.ok.inj played ▸ begins
  | append_singleton past event ih =>
      obtain ⟨middle, before, reacted⟩ := play_concat_eq_ok.mp played
      refine goes past event middle last (List.prefix_refl _) before ?_ reacted
      apply ih _ before
      intro earlier other first second inside
      exact goes earlier other first second (inside.trans (List.prefix_append _ _))

end Machine

namespace Layout

/-- The bits of endpoints that are driven from outside: the occupancy, the request and the
announced release. -/
def endpointInputs (layout : Layout) : List Var :=
  layout.pieces.toList.flatMap fun piece =>
    match piece.body with
    | .endpoint side => piece.occupancy ::
        (layout.side? side).toList.flatMap fun record =>
          [record.bits.request, record.bits.released]
    | _ => []

/-- An automaton may take its turn at any time, and from outside one may write outside
variables and the inputs of endpoints. -/
def Permits (layout : Layout) : Event → Prop
  | .turn _ => True
  | .write var _ => layout.Outside var ∨ var ∈ layout.endpointInputs

instance (layout : Layout) : DecidablePred layout.Permits
  | .turn _ => inferInstanceAs (Decidable True)
  | .write _ _ => inferInstanceAs (Decidable (_ ∨ _))

end Layout

/-- A run of a machine from power-on, for a program of a yard that an author has built. -/
structure Operation where
  config : Config
  orders : List Order
  /-- The author has handed over outside variables only. -/
  admitted : (Yard.empty config).Admits orders
  sources : List Source
  /-- Only what was declared on the layout is compiled with it. -/
  declared : sources ⊆ ((Yard.empty config).performAll orders).sources
  program : Program
  compiled : Program.compile ((Yard.empty config).performAll orders).layout sources = .ok program
  settings : SimConfig
  events : List Event
  /-- From outside only open variables are written. -/
  permitted : ∀ event ∈ events, ((Yard.empty config).performAll orders).layout.Permits event
  machine : Machine
  played : (Machine.powerOn program settings).play events = .ok machine

/-- The yard in operation. -/
def Operation.yard (operation : Operation) : Yard :=
  (Yard.empty operation.config).performAll operation.orders

/-- The layout in operation. -/
def Operation.layout (operation : Operation) : Layout := operation.yard.layout

/-- The operation of a yard, if the author and the outside keep to what is allowed, the
program compiles and all events succeed. Only the kernel works it out. -/
@[irreducible]
def Operation.start? (config : Config) (orders : List Order) (sources : List Source)
    (settings : SimConfig) (events : List Event) : Option Operation :=
  let yard := (Yard.empty config).performAll orders
  if admitted : (Yard.empty config).Admits orders then
    if declared : sources ⊆ yard.sources then
      if permitted : ∀ event ∈ events, yard.layout.Permits event then
        match compiled : Program.compile yard.layout sources with
        | .error _ => none
        | .ok program =>
            match played : (Machine.powerOn program settings).play events with
            | .error _ => none
            | .ok machine => some {
                config, orders, admitted, sources, declared, program, compiled, settings,
                events, permitted, machine, played }
      else none
    else none
  else none

namespace Layout

variable {layout : Layout}

/-- Every turn of the automaton maintains the protocol, and it moves only turnouts that
are free at its end. -/
def Behaves (layout : Layout) (automaton : Automaton) : Prop :=
  ∀ stand, layout.Takes (layout.Steady stand none) automaton.rules (layout.Turned stand)

theorem aside_of_writesOnly {rules : List Rule} {vars : List Var} (writes : WritesOnly rules vars)
    (outside : ∀ var ∈ vars, layout.Outside var) : layout.Aside rules := by
  intro rule member var written
  rw [role_of_outside (outside var (writes rule member written))]
  rfl

theorem behaves_of_writesOnly {automaton : Automaton} {vars : List Var}
    (writes : WritesOnly automaton.rules vars) (outside : ∀ var ∈ vars, layout.Outside var) :
    layout.Behaves automaton := by
  intro stand
  exact (aside_of_writesOnly writes outside).takes.mono fun _ steady => steady.turned

theorem behaves_of_mem_automata (sound : layout.Sound) {automaton : Automaton}
    (member : automaton ∈ layout.automata) : layout.Behaves automaton := by
  obtain ⟨piece, listed, rfl⟩ := List.mem_map.mp member
  obtain ⟨id, known⟩ := mem_pieces.mp listed
  intro stand
  exact sound.takes_automaton known

theorem Sound.not_inner_endpoint (sound : layout.Sound) {id : PieceId} {name : String}
    {occupancy : Var} {side : SideId}
    (found : layout.piece? id = some { name, occupancy, body := .endpoint side }) :
    ¬layout.Inner side := by
  intro ⟨piece, owned, inner⟩
  rw [sound.owner_of_listed found (by simp [Piece.sides])] at owned
  exact inner side (by rw [← Option.some.inj owned])

/-- What may be written from outside does not concern the protocol, or is a request or a
release of an endpoint. -/
theorem Sound.role_open (sound : layout.Sound) {var : Var}
    (permitted : layout.Outside var ∨ var ∈ layout.endpointInputs) :
    (layout.role var).inProtocol = false ∨ ∃ side, ¬layout.Inner side ∧
      (layout.role var = .request side ∨ layout.role var = .released side) := by
  rcases permitted with outside | member
  · left
    rw [role_of_outside outside]
    rfl
  · obtain ⟨⟨name, occupancy, body⟩, listed, member⟩ := List.mem_flatMap.mp member
    obtain ⟨id, known⟩ := mem_pieces.mp listed
    cases body with
    | straight straight => cases member
    | turnout turnout => cases member
    | endpoint side =>
        simp only [List.mem_cons, List.mem_flatMap, Option.mem_toList, List.not_mem_nil,
          or_false] at member
        rcases member with rfl | ⟨record, foundSide, driven⟩
        · exact .inl (sound.occupancy_aside known)
        · have wired := sound.wired foundSide
          refine .inr ⟨side, sound.not_inner_endpoint known, ?_⟩
          rcases driven with rfl | rfl
          · exact .inl wired.request
          · exact .inr wired.released

/-- What is maintained while a layout is in operation. -/
structure Safe (layout : Layout) (machine : Machine) : Prop where
  cells : ∀ cell ∈ machine.cells, layout.Behaves cell.automaton
  size : machine.memory.bits.size = layout.table.span
  orderly : layout.Orderly none (layout.panel machine.memory)

/-- What a turn that succeeds does to the memory is what the rules of an automaton do. -/
theorem runs_of_evaluate (layout : Layout) {machine next : Machine} {index : Nat} {changed : Bool}
    (evaluated : machine.evaluate index = .ok (next, changed)) :
    ∃ cell, machine.cells[index]? = some cell ∧
      layout.Runs cell.automaton.rules (layout.panel machine.memory) (layout.panel next.memory) ∧
      next.memory.bits.size = machine.memory.bits.size := by
  obtain ⟨cell, turn, found, run, rfl, _⟩ := Machine.evaluate_eq_ok evaluated
  obtain ⟨runs, size⟩ := layout.runs_of_foldlM run
  rw [Turn.memory_tick] at runs size
  exact ⟨cell, found, runs, size⟩

/-- The automaton of a piece stands at the place of the piece. -/
theorem getElem?_automata {id : PieceId} {piece : Piece} (found : layout.piece? id = some piece) :
    layout.automata[id.index]? = some (piece.automaton layout) := by
  rw [Layout.automata, List.getElem?_map, Array.getElem?_toList]
  exact congrArg (Option.map _) found

theorem cell_of_piece {machine : Machine} (automata : machine.automata = layout.automata)
    {id : PieceId} {piece : Piece} (found : layout.piece? id = some piece) :
    ∃ cell, machine.cells[id.index]? = some cell ∧ cell.automaton = piece.automaton layout := by
  have placed : machine.automata[id.index]? = some (piece.automaton layout) :=
    automata ▸ getElem?_automata found
  rwa [Machine.automata, List.getElem?_map, Array.getElem?_toList, Option.map_eq_some_iff] at placed

/-- A turn that succeeds ends where the rules of its automaton take it. -/
theorem Safe.evaluate {machine next : Machine} (safe : layout.Safe machine) {index : Nat}
    {changed : Bool} (evaluated : machine.evaluate index = .ok (next, changed)) :
    layout.Safe next ∧
      layout.Turned (fun id => layout.panel machine.memory (.position id))
        (layout.panel next.memory) := by
  obtain ⟨cell, found, runs, size⟩ := layout.runs_of_evaluate evaluated
  have member : cell ∈ machine.cells := Array.mem_of_getElem? found
  -- The turnouts stand as they do when the turn begins.
  have turned := safe.cells cell member _ _ _ ⟨safe.orderly, fun _ => rfl⟩ runs
  refine ⟨⟨?_, size.trans safe.size, turned.orderly⟩, turned⟩
  obtain ⟨cell', turn, found', _, rfl, _⟩ := Machine.evaluate_eq_ok evaluated
  intro other listed
  rcases Array.mem_or_eq_of_mem_setIfInBounds listed with listed | rfl
  · exact safe.cells other listed
  · exact safe.cells cell' (Array.mem_of_getElem? found')

/-- Writing an open variable from outside maintains the protocol and moves no turnout. -/
theorem Safe.set (sound : layout.Sound) {machine next : Machine} (safe : layout.Safe machine)
    {var : Var} {value : Bool} (permitted : layout.Permits (.write var value))
    (written : machine.set var value = .ok next) :
    layout.Safe next ∧ ∀ id, layout.panel next.memory (.position id) =
      layout.panel machine.memory (.position id) := by
  obtain ⟨memory, stored, rfl⟩ := Machine.set_eq_ok written
  have shown : layout.panel memory =
    update (layout.panel machine.memory) (layout.role var) value := panel_write stored
  have size := (Memory.write_eq_ok stored).1
  rcases sound.role_open permitted with aside | ⟨side, outer, driven⟩
  · have alike := (Panel.Alike.refl (layout.panel machine.memory)).aside aside value
    rw [← shown] at alike
    exact ⟨⟨safe.cells, size.trans safe.size, safe.orderly.congr alike⟩, fun _ => alike _ rfl⟩
  · have orderly := safe.orderly.drive sound outer driven value
    rw [← shown] at orderly
    refine ⟨⟨safe.cells, size.trans safe.size, orderly⟩, ?_⟩
    intro id
    rw [shown]
    rcases driven with role | role <;> simp [role]

/-- Every event maintains the protocol. A turnout moves only in a turn at the end of which
it is free. -/
theorem Safe.react (sound : layout.Sound) {machine next : Machine} (safe : layout.Safe machine)
    {event : Event} (permitted : layout.Permits event) (reacted : machine.react event = .ok next) :
    layout.Safe next ∧ ∀ id,
      layout.panel next.memory (.position id) = layout.panel machine.memory (.position id) ∨
        (∃ index, event = .turn index) ∧ layout.Free (layout.panel next.memory) id := by
  cases event with
  | turn index =>
      obtain ⟨changed, evaluated⟩ := Machine.react_turn_eq_ok reacted
      obtain ⟨safeNext, turned⟩ := safe.evaluate evaluated
      exact ⟨safeNext, fun id => (turned.moved id).imp_right fun free => ⟨⟨index, rfl⟩, free⟩⟩
  | write var value =>
      obtain ⟨safeNext, stands⟩ := safe.set sound permitted reacted
      exact ⟨safeNext, fun id => .inl (stands id)⟩

end Layout

theorem Program.link_eq_ok {table : Table} {automata : List Automaton} {program : Program}
    (linked : link table automata = .ok program) :
    program = { table, automata } ∧
      firstRepeated? [] (program.automata.map (·.name)) = none := by
  simp only [link] at linked
  split at linked
  · cases linked
  · rename_i unrepeated
    obtain rfl := Except.ok.inj linked
    exact ⟨rfl, unrepeated⟩

theorem Program.compile_eq_ok {layout : Layout} {sources : List Source} {program : Program}
    (compiled : compile layout sources = .ok program) :
    ∃ extra, sources.mapM (Source.build layout) = .ok extra ∧
      program = { table := layout.table, automata := layout.automata ++ extra } ∧
      firstRepeated? [] (program.automata.map (·.name)) = none := by
  obtain ⟨_, -, compiled⟩ := bind_eq_ok.mp compiled
  obtain ⟨extra, built, linked⟩ := bind_eq_ok.mp compiled
  exact ⟨extra, built, link_eq_ok linked⟩

/-- A program has the automata of the layout's pieces and behind them those of its sources. -/
theorem Program.automata_of_compile {layout : Layout} {sources : List Source}
    {program : Program} (compiled : compile layout sources = .ok program) :
    program.table = layout.table ∧ ∃ extra, sources.mapM (Source.build layout) = .ok extra ∧
      program.automata = layout.automata ++ extra := by
  obtain ⟨extra, built, rfl, -⟩ := compile_eq_ok compiled
  exact ⟨rfl, extra, built, rfl⟩

theorem Program.getElem?_of_piece {layout : Layout} {sources : List Source} {program : Program}
    (compiled : compile layout sources = .ok program) {id : PieceId} {piece : Piece}
    (found : layout.piece? id = some piece) :
    program.automata[id.index]? = some (piece.automaton layout) := by
  have placed := Layout.getElem?_automata found
  obtain ⟨-, extra, -, automata⟩ := automata_of_compile compiled
  rw [automata]
  exact (List.getElem?_append_left (List.getElem?_eq_some_iff.mp placed).1).trans placed

/-- What was declared besides the pieces writes outside variables only. -/
theorem Yard.Sound.outside_of_source {yard : Yard} (sound : yard.Sound) {source : Source}
    (known : source ∈ yard.sources) {automaton : Automaton}
    (built : source.build yard.layout = .ok automaton) :
    ∃ vars, WritesOnly automaton.rules vars ∧ ∀ var ∈ vars, yard.layout.Outside var := by
  rcases List.mem_append.mp known with declared | declared
  · obtain ⟨arbiter, listed, rfl⟩ := List.mem_map.mp declared
    exact ⟨_, Arbiter.build_writesOnly built, sound.arbiters arbiter listed⟩
  · obtain ⟨schedule, listed, rfl⟩ := List.mem_map.mp declared
    obtain rfl := Except.ok.inj built
    exact ⟨_, schedule.build_writesOnly _, sound.schedules schedule listed⟩

namespace Operation

theorem sound (operation : Operation) : operation.yard.Sound :=
  Yard.performAll_sound (Yard.empty_sound operation.config) operation.admitted

/-- The automata of an operation are those of the pieces and some that write nothing but
outside variables. -/
theorem mem_automata (operation : Operation) {automaton : Automaton}
    (member : automaton ∈ operation.program.automata) :
    automaton ∈ operation.layout.automata ∨
      ∃ vars, WritesOnly automaton.rules vars ∧ ∀ var ∈ vars, operation.layout.Outside var := by
  obtain ⟨-, extra, mapped, automata⟩ := Program.automata_of_compile operation.compiled
  rcases List.mem_append.mp (automata ▸ member) with member | member
  · exact .inl member
  · right
    obtain ⟨source, listed, built⟩ := mem_of_mapM_eq_ok mapped member
    exact operation.sound.outside_of_source (operation.declared listed) built

/-- All automata of an operation maintain the protocol. -/
theorem behaves (operation : Operation) :
    ∀ automaton ∈ operation.program.automata, operation.layout.Behaves automaton := by
  intro automaton member
  rcases operation.mem_automata member with listed | ⟨vars, writes, outside⟩
  · exact Layout.behaves_of_mem_automata operation.sound.layout listed
  · exact Layout.behaves_of_writesOnly writes outside

theorem safe_powerOn (operation : Operation) :
    operation.layout.Safe (Machine.powerOn operation.program operation.settings) where
  cells := by
    intro cell member
    simp only [Machine.powerOn, List.mem_toArray, List.mem_map] at member
    obtain ⟨automaton, listed, rfl⟩ := member
    exact operation.behaves automaton listed
  size := by
    have table := (Program.automata_of_compile operation.compiled).1
    simp only [Machine.powerOn, Memory.zeros, table, Array.size_replicate]
    rfl
  orderly := by
    simp only [Machine.powerOn, Layout.panel_zeros]
    exact .zeros operation.layout

/-- The protocol is maintained in every operation. -/
theorem safe (operation : Operation) : operation.layout.Safe operation.machine := by
  refine Machine.play_induct (motive := fun _ machine => operation.layout.Safe machine)
    operation.safe_powerOn ?_ operation.played
  intro past event middle next inside _ safe reacted
  have permitted := operation.permitted event (inside.subset (by simp))
  exact (safe.react operation.sound.layout permitted reacted).1

end Operation

end Interlocking
