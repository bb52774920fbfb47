import Interlocking.Proofs.Compilation
import Interlocking.Proofs.Depot

/-!
# Compilation is total

Compiling an arena gives a program or names a flaw: a signal without a detector, a loop in which
the search for one is caught, an arbiter with no clients or with too many, or a name that stands
twice. No access to a record fails on the way, although each of them may: no bit is missing, and
every place in a list and every name of a block is there. All variables in a program have bits in
the memory of its machine, so a machine that runs it never fails.
-/

namespace Interlocking

/-! ## Searches -/

namespace Outlook

/-- From the sides of which `reach` holds one can always look on, and comes to such a side again. -/
def Steady (outlook : Outlook) (reach : SideId → Prop) : Prop :=
  ∀ entry, reach entry → ∃ prospect next, outlook entry = .ok prospect ∧
    prospect.onward = .ok next ∧ ∀ side ∈ next, reach side

/-- The failure tells of a piece at a side of which `reach` holds. -/
def Caught (outlook : Outlook) (reach : SideId → Prop) (failure : Failure) : Prop :=
  ∃ visited prospect, reach visited ∧ outlook visited = .ok prospect ∧
    failure = .defect (.lookupCycle prospect.piece)

variable {outlook : Outlook} {reach : SideId → Prop} {entry : SideId} {failure : Failure}

namespace Steady

variable (steady : outlook.Steady reach) (starts : reach entry)

include steady starts

theorem cycleAt_error {α : Type}
    (failed : (outlook.cycleAt entry : Except Failure α) = .error failure) :
    outlook.Caught reach failure := by
  obtain ⟨prospect, _, seen, _⟩ := steady entry starts
  simp only [cycleAt, seen, bind, Except.bind] at failed
  exact ⟨entry, prospect, starts, seen, (Except.error.inj failed).symm⟩

/-- The search for a close detector fails only in a loop. -/
theorem closeWithin_error {budget : Nat}
    (failed : outlook.closeWithin budget entry = .error failure) :
    outlook.Caught reach failure := by
  -- The lookups on the way succeed, so the only failure is that of the spent budget.
  induction budget generalizing entry with
  | zero => exact steady.cycleAt_error starts failed
  | succ budget ih =>
      obtain ⟨prospect, next, seen, onward, leads⟩ := steady entry starts
      simp only [closeWithin, seen, onward, bind, Except.bind] at failed
      cases sight : prospect.sight with
      | measured | distant | blind => simp [sight, pure, Except.pure] at failed
      | through =>
          simp only [sight] at failed
          cases next with
          | none => cases failed
          | some side => exact ih (leads side rfl) failed

/-- The search for a far detector fails only in a loop. -/
theorem farWithin_error {budget : Nat}
    (failed : outlook.farWithin budget entry = .error failure) :
    outlook.Caught reach failure := by
  induction budget generalizing entry with
  | zero => exact steady.cycleAt_error starts failed
  | succ budget ih =>
      obtain ⟨prospect, next, seen, onward, leads⟩ := steady entry starts
      simp only [farWithin, seen, onward, bind, Except.bind] at failed
      cases sight : prospect.sight with
      | blind => simp [sight, pure, Except.pure] at failed
      | through =>
          simp only [sight] at failed
          cases next with
          | none => cases failed
          | some side => exact ih (leads side rfl) failed
      | measured | distant =>
          simp only [sight] at failed
          cases next with
          | none => cases failed
          | some side =>
              rcases bind_eq_error.mp failed with close | ⟨detector, -, failed⟩
              · exact steady.closeWithin_error (leads side rfl) close
              · cases detector with
                | some detector => cases failed
                | none => exact ih (leads side rfl) failed

/-- Why no detector is found: there is none, or one of the two searches is caught in a loop. -/
theorem nextWithin_error {budget : Nat} {prospect : Prospect}
    (seen : outlook entry = .ok prospect)
    (failed : outlook.nextWithin budget entry = .error failure) :
    (failure = .defect (.noDetector prospect.piece prospect.label) ∧
      outlook.closeWithin budget entry = .ok none ∧ outlook.farWithin budget entry = .ok none) ∨
    outlook.Caught reach failure ∧
      (outlook.closeWithin budget entry = .error failure ∨
        outlook.farWithin budget entry = .error failure) := by
  rcases bind_eq_error.mp failed with close | ⟨near, close, failed⟩
  · exact .inr ⟨steady.closeWithin_error starts close, .inl close⟩
  · cases near with
    | some detector => cases failed
    | none =>
        rcases bind_eq_error.mp failed with far | ⟨beyond, far, failed⟩
        · exact .inr ⟨steady.farWithin_error starts far, .inr far⟩
        · cases beyond with
          | some detector => cases failed
          | none =>
              simp only [seen, bind, Except.bind] at failed
              exact .inl ⟨(Except.error.inj failed).symm, close, far⟩

end Steady

end Outlook

/-! ## Flaws -/

/-- What can be wrong with an arena and further supplies when they are compiled. -/
inductive Flaw (arena : Arena) (supplies : List Supply) : Defect → Prop where
  /-- Neither a close nor a far detector is seen from a signal. -/
  | noDetector {element : Element} {request aspect : Var} {exit : SideId} {side : Side}
      (listed : element ∈ arena.elements.toList)
      (kind : element.kind = .straight (.signal request aspect))
      (faces : element.side 1 = .ok exit) (known : arena.side exit = .ok side)
      (close : arena.closeDetector exit = .ok none) (far : arena.farDetector exit = .ok none) :
      Flaw arena supplies (.noDetector element.name side.label)
  /-- The search from a signal does not come to an end. -/
  | lookupCycle {element visited : Element} {request aspect : Var} {exit : SideId}
      (listed : element ∈ arena.elements.toList)
      (kind : element.kind = .straight (.signal request aspect))
      (faces : element.side 1 = .ok exit) (there : visited ∈ arena.elements.toList)
      (caught : arena.closeDetector exit = .error (.defect (.lookupCycle visited.name)) ∨
        arena.farDetector exit = .error (.defect (.lookupCycle visited.name))) :
      Flaw arena supplies (.lookupCycle visited.name)
  | noClients {arbiter : Arbiter} (listed : .permission arbiter ∈ supplies)
      (empty : arbiter.clients = []) : Flaw arena supplies (.noClients arbiter.name)
  | stateOverflow {arbiter : Arbiter} (listed : .permission arbiter ∈ supplies)
      (many : Arbiter.capacity < arbiter.clients.length) :
      Flaw arena supplies (.stateOverflow arbiter.name)
  | duplicateName {automata extra : List Automaton} {name : String}
      (written : arena.automata = .ok automata)
      (built : supplies.mapM (Supply.build arena) = .ok extra)
      (twice : 2 ≤ ((automata ++ extra).map (·.name)).count name) :
      Flaw arena supplies (.duplicateName name)

theorem Arena.mem_elements_of_outlook {arena : Arena} {entry : SideId} {prospect : Prospect}
    (seen : arena.outlook entry = .ok prospect) :
    ∃ element ∈ arena.elements.toList, element.name = prospect.piece := by
  obtain ⟨side, _, seen⟩ := bind_eq_ok.mp seen
  obtain ⟨element, owned, seen⟩ := bind_eq_ok.mp seen
  obtain ⟨record, _, found⟩ := bind_eq_ok.mp owned
  split at found
  · rename_i known
    obtain rfl := Except.ok.inj found
    obtain rfl := Except.ok.inj seen
    exact ⟨_, Array.mem_toList_iff.mpr (Array.mem_of_getElem? known), rfl⟩
  · cases found

theorem Arena.table_of_compile {arena : Arena} {supplies : List Supply} {program : Program}
    (compiled : arena.compile supplies = .ok program) : program.table = arena.table := by
  obtain ⟨_, -, compiled⟩ := bind_eq_ok.mp compiled
  obtain ⟨_, -, compiled⟩ := bind_eq_ok.mp compiled
  obtain ⟨_, -, linked⟩ := bind_eq_ok.mp compiled
  rw [(Program.link_eq_ok linked).1]

/-- A signal shows its aspect to trains that leave by its second side. -/
theorem Piece.exit_of_signal (piece : Piece) {request aspect : Var}
    (kind : piece.element.kind = .straight (.signal request aspect)) :
    ∃ exit, piece.element.side 1 = .ok exit ∧ exit ∈ piece.sides := by
  obtain ⟨name, occupancy, body⟩ := piece
  cases body with
  | straight straight => exact ⟨straight.b, rfl, by simp [sides]⟩
  | turnout | endpoint => cases kind

namespace Layout

variable {layout : Layout} {failure : Failure} {supplies : List Supply}

theorem names_automata :
    layout.automata.map (·.name) = layout.arena.elements.toList.map (·.name) := by
  simp [Layout.automata, arena, Piece.element, Function.comp_def, Piece.name_automaton]

section Framed

variable (framed : layout.Framed)

include framed

theorem Framed.steady : layout.arena.outlook.Steady layout.Has := by
  rw [framed.outlook_arena]
  intro entry has
  obtain ⟨side, known⟩ := Option.isSome_iff_exists.mp has
  obtain ⟨piece, _, owned⟩ := framed.owner?_of_has has
  obtain ⟨next, onward, leads⟩ := framed.onward_ok has
  exact ⟨_, next, outlook_eq known owned, onward, leads⟩

theorem Framed.validateElement_error {element : Element}
    (listed : element ∈ layout.arena.elements.toList)
    (failed : layout.arena.validateElement element = .error failure) :
    ∃ defect, failure = .defect defect ∧ Flaw layout.arena supplies defect := by
  obtain ⟨piece, isPiece, rfl⟩ := List.mem_map.mp (toList_elements_arena ▸ listed)
  obtain ⟨id, found⟩ := mem_pieces.mp isPiece
  unfold Arena.validateElement at failed
  split at failed
  · rename_i request aspect kind
    obtain ⟨exit, faces, own⟩ := piece.exit_of_signal kind
    obtain ⟨side, known, rfl⟩ := framed.listed found exit own
    have owned : layout.owner? exit = some piece := by simp [owner?, known, found]
    have seen : layout.arena.outlook exit = .ok _ :=
      (congrFun framed.outlook_arena exit).trans (outlook_eq known owned)
    have searched : layout.arena.nextDetector exit = .error failure := by
      obtain ⟨side, told, failed⟩ :=
        (bind_eq_error.mp failed).resolve_left (by simp [faces])
      obtain rfl := Except.ok.inj (told.symm.trans faces)
      exact (bind_eq_error.mp failed).resolve_right (by simp [pure, Except.pure])
    have has : layout.Has exit := Option.isSome_of_eq_some known
    rcases framed.steady.nextWithin_error has seen searched with
      ⟨rfl, close, far⟩ | ⟨⟨visited, prospect, _, looked, rfl⟩, caught⟩
    · have told : layout.arena.side exit = .ok side := by simp [side_arena, Layout.side, known]
      exact ⟨_, rfl, .noDetector listed kind faces told close far⟩
    · obtain ⟨element, there, named⟩ := Arena.mem_elements_of_outlook looked
      rw [← named] at caught
      exact ⟨_, by rw [named], .lookupCycle listed kind faces there caught⟩
  · cases failed

/-- Where the compilation of a stored layout fails there is a flaw. -/
theorem Framed.compile_error (trains : ∀ timetable, .train timetable ∈ supplies →
      ∃ automaton, timetable.build layout.arena = .ok automaton)
    (failed : layout.arena.compile supplies = .error failure) :
    ∃ defect, failure = .defect defect ∧ Flaw layout.arena supplies defect := by
  rcases bind_eq_error.mp failed with invalid | ⟨_, -, failed⟩
  · obtain ⟨element, listed, failed⟩ := mem_of_forM_eq_error invalid
    exact framed.validateElement_error listed failed
  obtain ⟨automata, written, failed⟩ :=
    (bind_eq_error.mp failed).resolve_left (by simp [framed.automata_arena])
  rcases bind_eq_error.mp failed with unbuilt | ⟨extra, built, failed⟩
  · obtain ⟨supply, listed, failed⟩ := mem_of_mapM_eq_error unbuilt
    cases supply with
    | permission arbiter =>
        rcases Arbiter.build_eq_error failed with ⟨none, rfl⟩ | ⟨many, rfl⟩
        · exact ⟨_, rfl, .noClients listed none⟩
        · exact ⟨_, rfl, .stateOverflow listed many⟩
    | train timetable =>
        obtain ⟨automaton, built⟩ := trains timetable listed
        cases failed.symm.trans built
    | custom book => cases failed
  · unfold Program.link at failed
    split at failed
    · rename_i name repeated
      obtain ⟨-, twice⟩ := Program.two_le_count_of_firstRepeated? repeated
      refine ⟨_, (Except.error.inj failed).symm, .duplicateName written built ?_⟩
      exact twice.resolve_left List.not_mem_nil
    · cases failed

end Framed

end Layout

/-- What was declared on a depot is what is stored of the yard. -/
theorem Yard.exists_sources (yard : Yard) {supplies : List Supply}
    (declared : supplies ⊆ yard.depot.supplies) :
    ∃ sources ⊆ yard.sources, sources.map Source.supply = supplies := by
  rw [supplies_depot] at declared
  induction supplies with
  | nil => exact ⟨[], List.nil_subset _, rfl⟩
  | cons supply supplies ih =>
      obtain ⟨first, rest⟩ := List.cons_subset.mp declared
      obtain ⟨source, listed, rfl⟩ := List.mem_map.mp first
      obtain ⟨sources, inside, rfl⟩ := ih rest
      exact ⟨source :: sources, List.cons_subset.mpr ⟨listed, inside⟩, rfl⟩

/-- Compilation is total, and what it gives is safe to run. Take any arena, whatever orders it was
made with and whether they failed or not, such that the variables which its author has handed over
were reserved in its table, and any list of arbiters and timetables declared on it. Then the
automata of all elements can be written, and compilation fails only because of a flaw that it
names. If it succeeds, every variable in the conditions and actions of the program was reserved. So
from power-on, whatever automata take their turns and whatever is written from outside, every turn,
every cycle and every attempt to settle succeeds. -/
theorem compilation_is_total_and_safe (config : Config) (orders : List Order) (depot : Depot)
    (made : (Depot.empty config).performAll orders = depot)
    (handed : ∀ order ∈ orders, ∀ var ∈ order.mentions, var.index < depot.arena.table.span)
    (supplies : List Supply) (declared : supplies ⊆ depot.supplies) :
    (∃ automata, depot.arena.automata = .ok automata ∧
      automata.map (·.name) = depot.arena.elements.toList.map (·.name)) ∧
    (∀ failure, depot.arena.compile supplies = .error failure →
      ∃ defect, failure = .defect defect ∧ Flaw depot.arena supplies defect) ∧
    ∀ program, depot.arena.compile supplies = .ok program →
      program.Contained ∧
      ∀ (settings : SimConfig) (events : List Event), (∀ event ∈ events, program.Offers event) →
        ∃ machine, (Machine.powerOn program settings).play events = .ok machine ∧
          (∀ count, ∃ next, machine.run count = .ok next) ∧
          ∃ settled, machine.settle = .ok settled := by
  generalize built : (Yard.empty config).performAll orders = yard
  have stored : yard.depot = depot := by rw [← built, Yard.depot_performAll, made]
  subst stored
  have formed : yard.Formed yard.layout.Holds :=
    built ▸ Yard.performAll_formed (.empty config) (built ▸ handed)
  have framed := formed.layout.framed
  have distinct : yard.Distinct := built ▸ Yard.performAll_distinct config orders
  obtain ⟨sources, inside, rfl⟩ := yard.exists_sources declared
  have indexed : ∀ schedule, .train schedule ∈ sources → schedule.Indexed :=
    fun _ listed => distinct.indexed inside listed
  refine ⟨⟨_, framed.automata_arena, Layout.names_automata⟩, fun failure failed => ?_,
    fun program compiled => ?_⟩
  · refine framed.compile_error (fun timetable listed => ?_) failed
    obtain ⟨source, known, same⟩ := List.mem_map.mp listed
    cases source with
    | permission | custom => cases same
    | train schedule =>
        cases same
        exact ⟨_, (indexed schedule known).build_timetable⟩
  · have table : program.table = yard.layout.table := Arena.table_of_compile compiled
    have contained := Program.contained_of_compile formed inside
      ((framed.compile_arena indexed).symm.trans compiled)
    refine ⟨contained, fun settings events offered => ?_⟩
    obtain ⟨machine, played, loaded⟩ :=
      (Program.loaded_powerOn program settings).play table contained offered
    exact ⟨machine, played, loaded.run table contained, loaded.settleWithin table contained _⟩

section Stub

/-- A block before a detector and an endpoint, an arbiter with one client and a timetable that knows
the block. The second endpoint and the second joint are refused. -/
def stubOrders : List Order := [
  .external "x", .detector "d" ⟨0⟩, .endpoint "e", .endpoint "e", .join ⟨1⟩ ⟨2⟩, .join ⟨1⟩ ⟨2⟩,
  .block "b", .join ⟨8⟩ ⟨0⟩, .arbiter "a", .client 0 "k", .schedule "t",
  .move 0 0 0 [(⟨0⟩, true)] (some 0) []]

/-- What the orders make. -/
def stubDepot : Depot := (Depot.empty {}).performAll stubOrders

/-- The arbiter with its client, and the timetable with its move. -/
def stubSupplies : List Supply :=
  (stubDepot.arbiters.drop 1).map Supply.permission ++
    (stubDepot.timetables.drop 1).map Supply.train

theorem stubDepot_shows :
    (∀ order ∈ stubOrders, ∀ var ∈ order.mentions, var.index < stubDepot.arena.table.span) ∧
    stubSupplies ⊆ stubDepot.supplies ∧
    (stubDepot.arena.compile stubSupplies).toOption.map (·.automata.length) = some 7 := by
  decide +kernel

theorem compilation_is_total_and_safe_at_stub :
    (∀ order ∈ stubOrders, ∀ var ∈ order.mentions, var.index < stubDepot.arena.table.span) ∧
    stubSupplies ⊆ stubDepot.supplies ∧
    (∃ automata, stubDepot.arena.automata = .ok automata) ∧
    ∃ program, stubDepot.arena.compile stubSupplies = .ok program ∧ program.Contained ∧
      ∃ machine, (Machine.powerOn program {}).play [.turn 1, .write ⟨0⟩ true, .turn 0, .turn 6] =
        .ok machine ∧ ∃ settled, machine.settle = .ok settled := by
  obtain ⟨handed, declared, compiles⟩ := stubDepot_shows
  obtain ⟨program, known, count⟩ := Option.map_eq_some_iff.mp compiles
  have compiled := Machine.mem_toOption_iff.mp known
  obtain ⟨⟨automata, written, -⟩, -, safe⟩ :=
    compilation_is_total_and_safe {} stubOrders stubDepot rfl handed stubSupplies declared
  obtain ⟨contained, runs⟩ := safe program compiled
  have sensor : Var.index ⟨0⟩ < program.table.span := by
    rw [Arena.table_of_compile compiled]
    exact handed (.detector "d" ⟨0⟩) (by decide) ⟨0⟩ (by decide)
  obtain ⟨machine, played, -, settles⟩ := runs {} [.turn 1, .write ⟨0⟩ true, .turn 0, .turn 6]
    (by simp [sensor, Program.Offers, count])
  exact ⟨handed, declared, ⟨automata, written⟩, program, compiled, contained, machine, played,
    settles⟩

end Stub

end Interlocking
