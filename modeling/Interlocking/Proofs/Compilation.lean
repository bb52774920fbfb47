import Interlocking.Proofs.Arbitration
import Interlocking.Proofs.Cycles
import Interlocking.Proofs.Formation
import Interlocking.Proofs.Journeys

/-!
# Compiled programs

If the author of a layout has handed over only what was reserved, so was every variable in a program
that is compiled from it. All of them then have bits in the memory of the machine, so a machine that
runs the program never fails.
-/

namespace Interlocking

namespace Schedule

variable {schedule : Schedule} {holds : Var → Prop}

theorem consults_holding {bits : List (Var × Bool)} (held : ∀ bit ∈ bits, holds bit.1) :
    Consults holds (holding bits) :=
  consults_map fun bit member => by simp [held bit member]

theorem mem_sources {berth : Berth} (member : berth ∈ schedule.sources) :
    ∃ move ∈ schedule.moves, move.source = berth := by
  refine List.foldlRecOn (motive := fun found => berth ∈ found →
    ∃ move ∈ schedule.moves, move.source = berth) schedule.moves _ ?_ ?_ member
  · exact fun none => (List.not_mem_nil none).elim
  intro found known move listed member
  split at member
  · exact known member
  · rcases List.mem_append.mp member with earlier | here
    · exact known earlier
    · exact ⟨move, listed, (List.mem_singleton.mp here).symm⟩

section Moves

variable {move : Move} (bits : ∀ var ∈ move.vars, holds var)

include bits

theorem holds_guards : ∀ guard ∈ move.guards, holds guard.1 := by
  intro guard member
  apply bits
  simp only [Move.vars, Move.terms]
  grind

theorem holds_client {client : Client} (needed : move.client = some client) :
    ∀ var ∈ client.vars, holds var := by
  intro var member
  apply bits
  simp [Move.vars, needed, member]

theorem uses_permissionRules : Uses holds holds (permissionRules move move.client) := by
  have guards := holds_guards bits
  have active := bits move.active (by simp [Move.vars])
  have coming := bits move.target.coming (by simp [Move.vars])
  cases needed : move.client with
  | none => simp [permissionRules, during, advance, active]
  | some client =>
      have asks := holds_client bits needed
      refine uses_append.mpr ⟨?_, uses_map fun guard member => ?_⟩
      · simp [during, advance, active, asks, consults_holding guards]
      · simp [during, advance, active, coming, asks, guards guard member]

theorem uses_turnoutRules : Uses holds holds (turnoutRules move) := by
  have active := bits move.active (by simp [Move.vars])
  have motors : ∀ turnout ∈ move.turnouts, holds turnout.1.command ∧ holds turnout.1.current := by
    intro turnout member
    have terms : ∀ var ∈ [turnout.1.command, turnout.1.current], holds var := fun var own =>
      bits var (by simp only [Move.vars, Move.terms]; grind)
    exact ⟨terms _ (by simp), terms _ (by simp)⟩
  have reports : Consults holds (holding (move.turnouts.map fun turnout =>
      (turnout.1.current, turnout.2.bit))) :=
    consults_holding (List.forall_mem_map.mpr fun turnout member => (motors turnout member).2)
  have commands : Alters holds (move.turnouts.map fun turnout =>
      .set turnout.1.command turnout.2.bit) :=
    alters_map fun turnout member => by simp [motors turnout member]
  unfold turnoutRules
  split
  · simp [during, advance, active, reports]
  · simp [during, advance, active, reports, commands]

theorem uses_travelRules (go : holds schedule.go) :
    Uses holds holds (schedule.travelRules move) := by
  have active := bits move.active (by simp [Move.vars])
  have source : ∀ var ∈ move.source.vars, holds var := fun var member =>
    bits var (by simp [Move.vars, member])
  have target : ∀ var ∈ move.target.vars, holds var := fun var member =>
    bits var (by simp [Move.vars, member])
  have used : Alters holds (permissionUsed move.client) := by
    cases needed : move.client with
    | none => simp [permissionUsed]
    | some client => simp [permissionUsed, holds_client bits needed]
  simp [travelRules, during, advance, active, source, target, go, used]

theorem uses_moveRules (go : holds schedule.go) : Uses holds holds (schedule.moveRules move) := by
  have guards := holds_guards bits
  have active := bits move.active (by simp [Move.vars])
  have here := bits move.source.here (by simp [Move.vars])
  have coming := bits move.target.coming (by simp [Move.vars])
  refine uses_cons.mpr ⟨?_, uses_append.mpr ⟨uses_append.mpr ⟨uses_permissionRules bits,
    uses_turnoutRules bits⟩, uses_travelRules bits go⟩⟩
  simp [pickRule, advance, active, here, coming, consults_holding guards]

end Moves

/-- A schedule mentions nothing but its own variables. -/
theorem uses_build (layout : Layout) (bits : ∀ var ∈ schedule.vars, holds var) :
    Uses holds holds (schedule.build layout).rules := by
  have go := bits schedule.go (by simp [vars])
  have berths : ∀ berth ∈ schedule.berths, ∀ var ∈ berth.vars, holds var := fun berth listed var own =>
    bits var (mem_vars.mpr (.inr (.inl ⟨berth, listed, own⟩)))
  have moves : ∀ move ∈ schedule.moves, ∀ var ∈ move.vars, holds var := fun move listed var own =>
    bits var (mem_vars.mpr (.inr (.inr (.inl ⟨move, listed, own⟩))))
  have stops : ∀ stop ∈ schedule.stops, ∀ var ∈ stop.vars, holds var := fun stop listed var own =>
    bits var (mem_vars.mpr (.inr (.inr (.inr ⟨stop, listed, own⟩))))
  rw [rules_build, openingRules, laterRules, restartRules]
  simp only [uses_append, uses_cons]
  refine ⟨⟨uses_map fun stop listed => ?_, uses_map fun source listed => ?_⟩,
    fun rule member => ?_, ⟨uses_map fun berth listed => ?_, ⟨?_, ?_⟩, ⟨?_, ?_⟩, uses_nil⟩, ?_⟩
  · simp [stopRule, advance, go, stops stop listed]
  · obtain ⟨move, known, rfl⟩ := mem_sources listed
    simp [waitRule, advance, moves move known, Move.vars]
  · obtain ⟨move, listed, member⟩ := List.mem_flatMap.mp member
    exact uses_moveRules (moves move listed) go rule member
  · have own := berths berth (List.mem_filter.mp listed).1
    simp [own]
  · simp
  · exact alters_append.mpr ⟨alters_map fun berth listed => by simp [berths berth listed], by simp⟩
  · simp
  · refine alters_set.mpr ⟨go, alters_append.mpr ⟨alters_map fun move listed => ?_, ?_⟩⟩
    · simp [moves move listed, Move.vars]
    · simp [advance]
  · simp [RuleBook.startRule]

end Schedule

section Names

@[simp] theorem RuleBook.name_contribute (book : RuleBook) (phase : Phase) (rules : List Rule) :
    (book.contribute phase rules).name = book.name := by
  unfold contribute
  split <;> rfl

@[simp] theorem Site.name_contributePassages (site : Site) (layout : Layout) (book : RuleBook) :
    (site.contributePassages layout book).name = book.name :=
  List.foldlRecOn (motive := fun entered : RuleBook => entered.name = book.name) _ _ rfl
    fun entered same _ _ => (entered.name_contribute _ _).trans same

theorem Piece.name_automaton (piece : Piece) (layout : Layout) :
    (piece.automaton layout).name = piece.name := by
  obtain ⟨name, occupancy, body⟩ := piece
  cases body with
  | straight straight =>
      obtain ⟨⟨seen, ab, ba⟩, kind, a, b⟩ := straight
      cases kind <;> simp [automaton, RuleBook.build, Straight.book, Straight.trackBook,
        Straight.signalBook, Site.contributeTracking]
  | turnout turnout =>
      obtain ⟨kind, points, closed, thrown, seen, passages⟩ := turnout
      cases kind <;> simp [automaton, RuleBook.build, Turnout.book, Site.contributeTracking]
  | endpoint side =>
      simp only [automaton, RuleBook.build, endpointBook]
      split <;> simp

end Names

/-- If the author has handed over only what was reserved, so was all that the rules of a piece
mention. -/
theorem Yard.Formed.vocabulary {yard : Yard} (formed : yard.Formed yard.layout.Holds) {id : PieceId}
    {piece : Piece} (found : yard.layout.piece? id = some piece) :
    yard.layout.Vocabulary id piece yard.layout.Holds yard.layout.Holds := by
  refine Layout.vocabulary_of_all formed.layout.framed.reserved ?_ found
  intro _ _ known var member
  exact (formed.layout.supplied known var member).elim (fun held => held) fun held => held

namespace Program

variable {layout : Layout} {sources : List Source} {failure : Failure} {program : Program}

theorem two_le_count_of_firstRepeated? {earlier names : List String} {name : String}
    (repeated : firstRepeated? earlier names = some name) :
    name ∈ names ∧ (name ∈ earlier ∨ 2 ≤ names.count name) := by
  induction names generalizing earlier with
  | nil => cases repeated
  | cons first names ih =>
      unfold firstRepeated? at repeated
      split at repeated
      · rename_i before
        obtain rfl := Option.some.inj repeated
        exact ⟨List.mem_cons_self, .inl before⟩
      · obtain ⟨later, before | twice⟩ := ih repeated
        · refine ⟨List.mem_cons_of_mem _ later, ?_⟩
          rcases List.mem_cons.mp before with rfl | before
          · have once := List.count_pos_iff.mpr later
            exact .inr (by simp; omega)
          · exact .inl before
        · exact ⟨List.mem_cons_of_mem _ later, .inr (Nat.le_trans twice List.count_le_count_cons)⟩

/-- All variables that a program mentions were reserved. -/
def Contained (program : Program) : Prop :=
  ∀ automaton ∈ program.automata, ∀ var ∈ automaton.mentioned, var.index < program.table.span

/-- The machine runs the program. -/
structure Loaded (program : Program) (machine : Machine) : Prop where
  automata : machine.automata = program.automata
  size : machine.memory.bits.size = program.table.span

/-- The event is a turn of an automaton of the program, or a write to a variable of its table. -/
def Offers (program : Program) : Event → Prop
  | .turn index => index < program.automata.length
  | .write var _ => var.index < program.table.span

theorem loaded_powerOn (program : Program) (settings : SimConfig) :
    program.Loaded (Machine.powerOn program settings) where
  automata := Machine.automata_powerOn program settings
  size := by simp [Machine.powerOn, Memory.zeros]

namespace Loaded

variable {machine : Machine} (same : program.table = layout.table) (contained : program.Contained)

include same contained

theorem evaluate (loaded : program.Loaded machine) {index : Nat}
    (inside : index < program.automata.length) :
    ∃ next changed, machine.evaluate index = .ok (next, changed) ∧ program.Loaded next := by
  have placed : machine.automata[index]? = some program.automata[index] := by
    rw [loaded.automata, List.getElem?_eq_getElem inside]
  obtain ⟨cell, found, automaton⟩ := Machine.exists_cell placed
  have addresses : layout.Addresses cell.automaton.rules := by
    rw [automaton]
    apply Layout.addresses_iff_uses.mpr
    have held : ∀ var ∈ program.automata[index].mentioned, layout.Holds var := by
      unfold Layout.Holds
      rw [← same]
      exact contained _ (List.getElem_mem inside)
    exact (Automaton.uses_mentioned _).mono held held
  obtain ⟨next, changed, evaluated⟩ := addresses.evaluate_ok (same ▸ loaded.size) found
  obtain ⟨_, _, _, _, _, _, _, size⟩ := Machine.view_evaluate evaluated
  exact ⟨next, changed, evaluated, (Machine.frame_evaluate evaluated).1.trans loaded.automata,
    size.trans loaded.size⟩

theorem evaluateAll (loaded : program.Loaded machine) {indices : List Nat}
    (inside : ∀ index ∈ indices, index < program.automata.length) :
    ∃ next changed, machine.evaluateAll indices = .ok (next, changed) ∧ program.Loaded next := by
  induction indices generalizing machine with
  | nil => exact ⟨machine, false, rfl, loaded⟩
  | cons index indices ih =>
      obtain ⟨here, others⟩ := List.forall_mem_cons.mp inside
      obtain ⟨middle, first, evaluated, loaded⟩ := loaded.evaluate same contained here
      obtain ⟨next, rest, finished, loaded⟩ := ih loaded others
      exact ⟨next, first || rest,
        Machine.evaluateAll_cons_eq_ok.mpr ⟨middle, first, rest, evaluated, finished, rfl⟩, loaded⟩

theorem step (loaded : program.Loaded machine) :
    ∃ next changed, machine.step = .ok (next, changed) ∧ program.Loaded next := by
  have inside : ∀ index ∈ machine.order, index < program.automata.length := by
    intro index member
    rw [← loaded.automata, Machine.automata, List.length_map, Array.length_toList]
    exact Machine.mem_order.mp member
  obtain ⟨next, changed, evaluated, loaded⟩ := loaded.evaluateAll same contained inside
  exact ⟨{ next with cycles := next.cycles + 1 }, changed,
    Machine.step_eq_ok.mpr ⟨next, evaluated, rfl⟩, loaded.automata, loaded.size⟩

theorem run (loaded : program.Loaded machine) (count : Nat) :
    ∃ next, machine.run count = .ok next := by
  induction count generalizing machine with
  | zero => exact ⟨machine, rfl⟩
  | succ count ih =>
      obtain ⟨next, changed, stepped, loaded⟩ := loaded.step same contained
      obtain ⟨last, ran⟩ := ih loaded
      exact ⟨last, Machine.run_succ_eq_ok.mpr ⟨next, changed, stepped, ran⟩⟩

theorem settleWithin (loaded : program.Loaded machine) (bound : Nat) :
    ∃ settled, machine.settleWithin bound = .ok settled := by
  induction bound generalizing machine with
  | zero => exact ⟨_, rfl⟩
  | succ bound ih =>
      obtain ⟨next, changed, stepped, loaded⟩ := loaded.step same contained
      cases changed with
      | false => exact ⟨(next, true), Machine.settleWithin_succ_eq_ok.mpr (.inr ⟨stepped, rfl⟩)⟩
      | true =>
          obtain ⟨⟨last, settled⟩, done⟩ := ih loaded
          exact ⟨(last, settled), Machine.settleWithin_succ_eq_ok.mpr (.inl ⟨next, stepped, done⟩)⟩

theorem play (loaded : program.Loaded machine) {events : List Event}
    (offered : ∀ event ∈ events, program.Offers event) :
    ∃ next, machine.play events = .ok next ∧ program.Loaded next := by
  induction events generalizing machine with
  | nil => exact ⟨machine, rfl, loaded⟩
  | cons event events ih =>
      obtain ⟨here, others⟩ := List.forall_mem_cons.mp offered
      obtain ⟨middle, reacted, loaded⟩ :
          ∃ middle, machine.react event = .ok middle ∧ program.Loaded middle := by
        cases event with
        | turn index =>
            obtain ⟨next, changed, evaluated, loaded⟩ := loaded.evaluate same contained here
            exact ⟨next, Machine.react_turn evaluated, loaded⟩
        | write var value =>
            have inside : var.index < machine.memory.bits.size :=
              Nat.lt_of_lt_of_eq here loaded.size.symm
            obtain ⟨memory, stored⟩ := Memory.write_ok inside value
            exact ⟨{ machine with memory }, Machine.set_of_write stored, loaded.automata,
              (Memory.write_eq_ok stored).1.trans loaded.size⟩
      rw [Machine.play_cons reacted]
      exact ih loaded others

end Loaded

/-- Whatever a program mentions was reserved, if its author has handed over only what was. -/
theorem contained_of_compile {yard : Yard} (formed : yard.Formed yard.layout.Holds)
    (declared : sources ⊆ yard.sources) (compiled : compile yard.layout sources = .ok program) :
    program.Contained := by
  have holds {var : Var} (known : yard.layout.Knows yard.layout.Holds var) :
      yard.layout.Holds var := known.elim id id
  obtain ⟨table, extra, mapped, automata⟩ := automata_of_compile compiled
  intro automaton member
  rw [table]
  apply Automaton.mentioned_of_uses
  rw [automata] at member
  rcases List.mem_append.mp member with ofPiece | ofSource
  · obtain ⟨piece, listed, rfl⟩ := List.mem_map.mp ofPiece
    obtain ⟨id, found⟩ := Layout.mem_pieces.mp listed
    exact (formed.vocabulary found).uses_automaton (formed.layout.framed.shaped found)
  · obtain ⟨source, listed, built⟩ := mem_of_mapM_eq_ok mapped ofSource
    rcases List.mem_append.mp (declared listed) with arbiters | schedules
    · obtain ⟨arbiter, known, rfl⟩ := List.mem_map.mp arbiters
      exact Arbiter.uses_build built fun client served var own =>
        holds (formed.arbiter known served var own)
    · obtain ⟨schedule, known, rfl⟩ := List.mem_map.mp schedules
      obtain rfl := Except.ok.inj built
      exact Schedule.uses_build _ fun var own => holds (formed.schedule known var own)

end Program

end Interlocking
