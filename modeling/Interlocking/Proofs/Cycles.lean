import Interlocking.Proofs.Views

/-!
# Service

A program in service runs in cycles. In each cycle every automaton takes one turn, always in the
same order, and between two cycles the outside world may write variables. A cycle is taken apart
at the turns of the automata that matter, and the turns in between are summed up by what they do
not touch.
-/

namespace Interlocking

/-- Where no name stands twice, automata of one name stand at one place. -/
theorem Automaton.index_eq_of_name {automata : List Automaton}
    (names : (automata.map (·.name)).Nodup) {first second : Nat} {left right : Automaton}
    (atFirst : automata[first]? = some left) (atSecond : automata[second]? = some right)
    (same : left.name = right.name) : first = second := by
  have places : ∀ {index : Nat} {automaton : Automaton}, automata[index]? = some automaton →
      (automata.map (·.name))[index]? = some automaton.name := by
    intro index automaton found
    rw [List.getElem?_map, found, Option.map_some]
  have inside := (List.getElem?_eq_some_iff.mp (places atFirst)).1
  exact (List.getElem?_inj inside names).mp
    ((places atFirst).trans ((congrArg some same).trans (places atSecond).symm))

/-- Something that happens to a machine in service. -/
inductive Beat where
  /-- A variable is given a value from outside. -/
  | write (var : Var) (value : Bool)
  /-- All automata take one turn. -/
  | cycle
  deriving DecidableEq, Repr

namespace Machine

/-- What a beat makes of a machine. -/
def beat (machine : Machine) : Beat → Except Failure Machine
  | .write var value => machine.set var value
  | .cycle => do return (← machine.step).1

/-- What a sequence of beats makes of a machine. -/
def drive (machine : Machine) (beats : List Beat) : Except Failure Machine :=
  beats.foldlM beat machine

variable {machine next last : Machine} {changed : Bool}

/-- What holds at first and is maintained by each beat holds at last. -/
theorem drive_induct {motive : Machine → Prop} {beats : List Beat} (begins : motive machine)
    (goes : ∀ beat ∈ beats, ∀ middle next, motive middle → middle.beat beat = .ok next → motive next)
    (driven : machine.drive beats = .ok last) : motive last :=
  foldlM_induct goes begins driven

/-- The claim holds of the machine whenever a cycle begins. -/
def AtCycles (claim : Machine → Prop) : List Beat → Machine → Prop
  | [], _ => True
  | beat :: beats, machine => (beat = .cycle → claim machine) ∧
      ∀ next ∈ (machine.beat beat).toOption, AtCycles claim beats next

instance decidableAtCycles (claim : Machine → Prop) [DecidablePred claim] :
    (beats : List Beat) → DecidablePred (AtCycles claim beats)
  | [], _ => isTrue trivial
  | _ :: beats, _ =>
      have := decidableAtCycles claim beats
      inferInstanceAs (Decidable (_ ∧ _))

theorem mem_toOption_iff {α : Type} {outcome : Except Failure α} {result : α} :
    result ∈ outcome.toOption ↔ outcome = .ok result := by
  cases outcome <;> simp [Except.toOption]

/-- What every beat maintains, given what is known whenever a cycle begins, tells of every
cycle. -/
theorem atCycles_induct {premise claim motive : Machine → Prop} {beats : List Beat}
    (held : AtCycles premise beats machine) (begins : motive machine)
    (writes : ∀ {machine next var value}, .write var value ∈ beats → motive machine →
      machine.set var value = .ok next → motive next)
    (cycles : ∀ {machine next}, motive machine → premise machine →
      machine.beat .cycle = .ok next → motive next)
    (concludes : ∀ {machine}, motive machine → premise machine → claim machine) :
    AtCycles claim beats machine := by
  induction beats generalizing machine with
  | nil => trivial
  | cons beat beats ih =>
      obtain ⟨here, later⟩ := held
      refine ⟨fun cycle => concludes begins (here cycle), ?_⟩
      intro next reached
      refine ih (later next reached) ?_ fun member => writes (List.mem_cons_of_mem _ member)
      have beaten := mem_toOption_iff.mp reached
      cases beat with
      | write var value => exact writes List.mem_cons_self begins beaten
      | cycle => exact cycles begins (here rfl) beaten

/-- Turns in sequence: those of the second list start where those of the first have ended. -/
theorem evaluateAll_append {first second : List Nat}
    (evaluated : machine.evaluateAll (first ++ second) = .ok (last, changed)) :
    ∃ middle early late, machine.evaluateAll first = .ok (middle, early) ∧
      middle.evaluateAll second = .ok (last, late) := by
  induction first generalizing machine changed with
  | nil => exact ⟨machine, false, changed, rfl, evaluated⟩
  | cons index indices ih =>
      obtain ⟨between, begun, _, head, rest, -⟩ := evaluateAll_cons_eq_ok.mp evaluated
      obtain ⟨middle, early, late, front, behind⟩ := ih rest
      exact ⟨middle, begun || early, late,
        evaluateAll_cons_eq_ok.mpr ⟨between, begun, early, head, front, rfl⟩, behind⟩

/-- What each turn maintains is maintained by all turns. -/
theorem evaluateAll_induct {motive : Machine → Prop} {indices : List Nat} (begins : motive machine)
    (goes : ∀ index ∈ indices, ∀ middle next changed, motive middle →
      middle.evaluate index = .ok (next, changed) → motive next)
    (evaluated : machine.evaluateAll indices = .ok (last, changed)) : motive last := by
  induction indices generalizing machine changed with
  | nil =>
      obtain ⟨same, -⟩ := Prod.mk.inj (Except.ok.inj evaluated)
      exact same ▸ begins
  | cons index indices ih =>
      obtain ⟨here, others⟩ := List.forall_mem_cons.mp goes
      obtain ⟨middle, early, late, head, rest, -⟩ := evaluateAll_cons_eq_ok.mp evaluated
      exact ih (here machine middle early begins head) others rest

/-- A cycle is a turn of every automaton. -/
theorem beat_cycle_eq_ok (stepped : machine.beat .cycle = .ok next) :
    ∃ last changed, machine.evaluateAll machine.order = .ok (last, changed) ∧
      next = { last with cycles := last.cycles + 1 } := by
  obtain ⟨⟨reached, changed⟩, stepped, done⟩ := bind_eq_ok.mp stepped
  obtain ⟨last, evaluated, rfl⟩ := step_eq_ok.mp stepped
  exact ⟨last, changed, evaluated, (Except.ok.inj done).symm⟩

theorem order_nodup (machine : Machine) : machine.order.Nodup := by
  unfold order
  split
  · exact List.nodup_reverse.mpr List.nodup_range
  · exact List.nodup_range

/-- A turn changes neither the automata nor the order of their turns. -/
theorem frame_evaluate {index : Nat} (evaluated : machine.evaluate index = .ok (next, changed)) :
    next.automata = machine.automata ∧ next.order = machine.order := by
  have automata := automata_react (react_turn evaluated)
  obtain ⟨cell, turn, _, _, rfl, _⟩ := evaluate_eq_ok evaluated
  exact ⟨automata, by simp [order]⟩

theorem frame_beat {beat : Beat} (beaten : machine.beat beat = .ok next) :
    next.automata = machine.automata ∧ next.order = machine.order := by
  cases beat with
  | write var value =>
      obtain ⟨memory, _, rfl⟩ := set_eq_ok beaten
      exact ⟨rfl, rfl⟩
  | cycle =>
      obtain ⟨last, changed, evaluated, rfl⟩ := beat_cycle_eq_ok beaten
      have framed : last.automata = machine.automata ∧ last.order = machine.order := by
        refine evaluateAll_induct (motive := fun middle =>
          middle.automata = machine.automata ∧ middle.order = machine.order) ⟨rfl, rfl⟩ ?_ evaluated
        intro index _ middle next changed ⟨automata, order⟩ evaluated
        obtain ⟨sameAutomata, sameOrder⟩ := frame_evaluate evaluated
        exact ⟨sameAutomata.trans automata, sameOrder.trans order⟩
      exact framed

/-- Of two automata one takes its turn first. -/
theorem exists_split {indices : List Nat} {first second : Nat} (here : first ∈ indices)
    (there : second ∈ indices) (apart : first ≠ second) :
    (∃ early middle late, indices = early ++ first :: (middle ++ second :: late)) ∨
      ∃ early middle late, indices = early ++ second :: (middle ++ first :: late) := by
  obtain ⟨early, late, rfl⟩ := List.append_of_mem here
  rcases List.mem_append.mp there with before | behind
  · obtain ⟨front, middle, rfl⟩ := List.append_of_mem before
    exact .inr ⟨front, middle, late, by simp⟩
  · obtain ⟨middle, rest, rfl⟩ :=
      List.append_of_mem ((List.mem_cons.mp behind).resolve_left apart.symm)
    exact .inl ⟨early, middle, rest, rfl⟩

/-- Neither of two properties is lost. -/
def Keeps (waits clear : Machine → Prop) (machine next : Machine) : Prop :=
  (waits machine → waits next) ∧ (clear machine → clear next)

/-- Two automata in alternation: the turn of the first one needs what the turn of the second one
brings about, and nothing that happens besides disturbs them. -/
structure Alternate (first second : Nat) (waits clear : Machine → Prop) (beats : List Beat) :
    Prop where
  weakens : ∀ {machine}, clear machine → waits machine
  takes : ∀ {machine next changed}, clear machine → machine.evaluate first = .ok (next, changed) →
    waits next
  gives : ∀ {machine next changed}, waits machine → machine.evaluate second = .ok (next, changed) →
    clear next
  others : ∀ {machine next index changed}, index ≠ first → index ≠ second →
    machine.evaluate index = .ok (next, changed) → Keeps waits clear machine next
  counts : ∀ {machine : Machine} (cycles : Nat), Keeps waits clear machine { machine with cycles }
  writes : ∀ {machine next var value}, .write var value ∈ beats →
    machine.set var value = .ok next → Keeps waits clear machine next

namespace Alternate

variable {first second : Nat} {waits clear : Machine → Prop} {beats : List Beat}
  (alternate : Alternate first second waits clear beats)

include alternate

theorem between {indices : List Nat} (notFirst : first ∉ indices) (notSecond : second ∉ indices)
    (evaluated : machine.evaluateAll indices = .ok (last, changed)) :
    Keeps waits clear machine last := by
  refine evaluateAll_induct (motive := Keeps waits clear machine) ⟨id, id⟩ ?_ evaluated
  intro index member middle next changed keeps evaluated
  have notAtFirst : index ≠ first := fun same => notFirst (same ▸ member)
  have notAtSecond : index ≠ second := fun same => notSecond (same ▸ member)
  have goes := alternate.others notAtFirst notAtSecond evaluated
  exact ⟨goes.1 ∘ keeps.1, goes.2 ∘ keeps.2⟩

/-- A cycle in which the second automaton comes first. -/
theorem waits_evaluateAll {early middle late : List Nat}
    (nodup : (early ++ second :: (middle ++ first :: late)).Nodup) (begins : waits machine)
    (evaluated : machine.evaluateAll (early ++ second :: (middle ++ first :: late)) =
      .ok (last, changed)) : waits last := by
  obtain ⟨arrived, _, _, front, rest⟩ := evaluateAll_append evaluated
  obtain ⟨next, _, _, given, rest, -⟩ := evaluateAll_cons_eq_ok.mp rest
  obtain ⟨halfway, _, _, between, rest⟩ := evaluateAll_append rest
  obtain ⟨later, _, _, taken, rest, -⟩ := evaluateAll_cons_eq_ok.mp rest
  simp only [List.nodup_append, List.nodup_cons, List.mem_append, List.mem_cons] at nodup
  have cleared := alternate.gives ((alternate.between (by grind) (by grind) front).1 begins) given
  have waiting := alternate.takes ((alternate.between (by grind) (by grind) between).2 cleared) taken
  exact (alternate.between (by grind) (by grind) rest).1 waiting

/-- A cycle in which the first automaton comes first. -/
theorem clear_evaluateAll {early middle late : List Nat}
    (nodup : (early ++ first :: (middle ++ second :: late)).Nodup) (begins : clear machine)
    (evaluated : machine.evaluateAll (early ++ first :: (middle ++ second :: late)) =
      .ok (last, changed)) : clear last := by
  obtain ⟨arrived, _, _, front, rest⟩ := evaluateAll_append evaluated
  obtain ⟨next, _, _, taken, rest, -⟩ := evaluateAll_cons_eq_ok.mp rest
  obtain ⟨halfway, _, _, between, rest⟩ := evaluateAll_append rest
  obtain ⟨later, _, _, given, rest, -⟩ := evaluateAll_cons_eq_ok.mp rest
  simp only [List.nodup_append, List.nodup_cons, List.mem_append, List.mem_cons] at nodup
  have waiting := alternate.takes ((alternate.between (by grind) (by grind) front).2 begins) taken
  have cleared := alternate.gives ((alternate.between (by grind) (by grind) between).1 waiting) given
  exact (alternate.between (by grind) (by grind) rest).2 cleared

/-- Whichever automaton comes first, the first one never takes its turn in vain. -/
theorem waits_drive (here : first ∈ machine.order) (there : second ∈ machine.order)
    (apart : first ≠ second) (begins : clear machine) (driven : machine.drive beats = .ok last) :
    waits last := by
  rcases exists_split here there apart with ⟨early, middle, late, order⟩ |
      ⟨early, middle, late, order⟩
  · refine alternate.weakens (drive_induct (motive := fun reached =>
      reached.order = machine.order ∧ clear reached) ⟨rfl, begins⟩ ?_ driven).2
    intro beat member between next ⟨sameOrder, holds⟩ beaten
    refine ⟨(frame_beat beaten).2.trans sameOrder, ?_⟩
    cases beat with
    | write var value => exact (alternate.writes member beaten).2 holds
    | cycle =>
        obtain ⟨last, changed, evaluated, rfl⟩ := beat_cycle_eq_ok beaten
        have nodup := order_nodup between
        rw [sameOrder, order] at evaluated nodup
        exact (alternate.counts _).2 (alternate.clear_evaluateAll nodup holds evaluated)
  · refine (drive_induct (motive := fun reached =>
      reached.order = machine.order ∧ waits reached) ⟨rfl, alternate.weakens begins⟩ ?_ driven).2
    intro beat member between next ⟨sameOrder, holds⟩ beaten
    refine ⟨(frame_beat beaten).2.trans sameOrder, ?_⟩
    cases beat with
    | write var value => exact (alternate.writes member beaten).1 holds
    | cycle =>
        obtain ⟨last, changed, evaluated, rfl⟩ := beat_cycle_eq_ok beaten
        have nodup := order_nodup between
        rw [sameOrder, order] at evaluated nodup
        exact (alternate.counts _).1 (alternate.waits_evaluateAll nodup holds evaluated)

end Alternate

theorem automata_getElem? {index : Nat} {cell : Cell} (found : machine.cells[index]? = some cell) :
    machine.automata[index]? = some cell.automaton := by
  simp [automata, found]

theorem exists_cell {index : Nat} {automaton : Automaton}
    (placed : machine.automata[index]? = some automaton) :
    ∃ cell, machine.cells[index]? = some cell ∧ cell.automaton = automaton := by
  rwa [automata, List.getElem?_map, Array.getElem?_toList, Option.map_eq_some_iff] at placed

theorem state?_eq (names : (machine.automata.map (·.name)).Nodup) {index : Nat} {cell : Cell}
    (found : machine.cells[index]? = some cell) :
    machine.state? cell.automaton.name = some cell.state := by
  unfold state?
  cases search : machine.cells.find? (fun other => other.automaton.name = cell.automaton.name) with
  | none =>
      have absent := Array.find?_eq_none.mp search cell (Array.mem_of_getElem? found)
      simp at absent
  | some other =>
      have same : other.automaton.name = cell.automaton.name := by
        simpa using Array.find?_some search
      obtain ⟨place, placed⟩ := Array.mem_iff_getElem?.mp (Array.mem_of_find?_eq_some search)
      obtain rfl := Automaton.index_eq_of_name names (automata_getElem? placed)
        (automata_getElem? found) same
      rw [Option.some.inj (placed.symm.trans found), Option.map_some]

/-- What the automaton of this name sees when its turn comes in the next cycle. -/
def turnView? (machine : Machine) (name : String) : Option View := do
  let index ← machine.automata.findIdx? (·.name = name)
  let (middle, _) ← (machine.evaluateAll (machine.order.takeWhile (· ≠ index))).toOption
  let cell ← middle.cells[index]?
  return cell.view middle.memory

theorem turnView?_eq_some (names : (machine.automata.map (·.name)).Nodup) {index : Nat}
    {automaton : Automaton} (placed : machine.automata[index]? = some automaton) {view : View}
    (shown : machine.turnView? automaton.name = some view) :
    ∃ middle changed cell, machine.evaluateAll (machine.order.takeWhile (· ≠ index)) =
        .ok (middle, changed) ∧ middle.cells[index]? = some cell ∧
      view = cell.view middle.memory := by
  simp only [turnView?, Option.bind_eq_bind, Option.bind_eq_some_iff] at shown
  obtain ⟨found, search, ⟨middle, changed⟩, reached, cell, there, rest⟩ := shown
  obtain ⟨inside, named, -⟩ := List.findIdx?_eq_some_iff_getElem.mp search
  obtain rfl := Automaton.index_eq_of_name names (List.getElem?_eq_getElem inside) placed
    (by simpa using named)
  exact ⟨middle, changed, cell, mem_toOption_iff.mp reached, there, (Option.some.inj rest).symm⟩

end Machine

namespace Program

theorem firstRepeated?_eq_none {earlier names : List String}
    (none : firstRepeated? earlier names = none) :
    names.Nodup ∧ ∀ name ∈ names, name ∉ earlier := by
  induction names generalizing earlier with
  | nil => exact ⟨List.nodup_nil, by simp⟩
  | cons name names ih =>
      unfold firstRepeated? at none
      split at none
      · cases none
      · rename_i fresh
        obtain ⟨nodup, apart⟩ := ih none
        have later : name ∉ names := fun member => apart name member List.mem_cons_self
        refine ⟨List.nodup_cons.mpr ⟨later, nodup⟩, List.forall_mem_cons.mpr ⟨fresh, ?_⟩⟩
        exact fun other member before => apart other member (List.mem_cons_of_mem _ before)

/-- A name stands in a program at one place only. -/
theorem names_nodup {layout : Layout} {sources : List Source} {program : Program}
    (compiled : compile layout sources = .ok program) :
    (program.automata.map (·.name)).Nodup := by
  obtain ⟨_, -, -, unrepeated⟩ := compile_eq_ok compiled
  exact (firstRepeated?_eq_none unrepeated).1

/-- The automata of the sources stand behind those of the layout. -/
theorem getElem?_of_source {layout : Layout} {sources : List Source} {program : Program}
    (compiled : compile layout sources = .ok program) {place : Nat} {source : Source}
    (found : sources[place]? = some source) :
    ∃ automaton, source.build layout = .ok automaton ∧
      program.automata[layout.automata.length + place]? = some automaton := by
  obtain ⟨-, extra, mapped, automata⟩ := automata_of_compile compiled
  obtain ⟨automaton, built, placed⟩ := getElem?_of_mapM_eq_ok mapped found
  refine ⟨automaton, built, ?_⟩
  rw [automata, List.getElem?_append_right (Nat.le_add_right _ _), Nat.add_sub_cancel_left, placed]

/-- The automata of two sources stand at two places. -/
theorem exists_places {layout : Layout} {sources : List Source} {program : Program}
    (compiled : compile layout sources = .ok program) {source other : Source}
    (listed : source ∈ sources) (alsoListed : other ∈ sources) (apart : source ≠ other) :
    ∃ (first second : Nat) (left right : Automaton), source.build layout = .ok left ∧
      other.build layout = .ok right ∧ program.automata[first]? = some left ∧
      program.automata[second]? = some right ∧ first ≠ second := by
  obtain ⟨place, found⟩ := List.mem_iff_getElem?.mp listed
  obtain ⟨elsewhere, alsoFound⟩ := List.mem_iff_getElem?.mp alsoListed
  obtain ⟨left, made, atFirst⟩ := getElem?_of_source compiled found
  obtain ⟨right, alsoMade, atSecond⟩ := getElem?_of_source compiled alsoFound
  refine ⟨_, _, left, right, made, alsoMade, atFirst, atSecond, ?_⟩
  intro same
  obtain rfl := Nat.add_left_cancel same
  exact apart (Option.some.inj (found.symm.trans alsoFound))

end Program

/-- A cycle may run at any time, and from outside one may write open variables. -/
def Layout.Tolerates (layout : Layout) : Beat → Prop
  | .write var value => layout.Permits (.write var value)
  | .cycle => True

instance (layout : Layout) : DecidablePred layout.Tolerates
  | .write var value => inferInstanceAs (Decidable (layout.Permits (.write var value)))
  | .cycle => inferInstanceAs (Decidable True)

/-- A run of a machine in cycles from power-on, for a program with a layout that an author has
built. -/
structure Service where
  config : Config
  orders : List Order
  sources : List Source
  program : Program
  compiled : Program.compile ((Yard.empty config).performAll orders).layout sources = .ok program
  settings : SimConfig
  beats : List Beat
  machine : Machine
  driven : (Machine.powerOn program settings).drive beats = .ok machine

namespace Service

/-- The yard in service. -/
def yard (service : Service) : Yard := (Yard.empty service.config).performAll service.orders

/-- The layout in service. -/
def layout (service : Service) : Layout := service.yard.layout

/-- The service of a yard, if the program compiles and all beats succeed. Only the kernel works it
out. -/
@[irreducible]
def start? (config : Config) (orders : List Order) (sources : List Source) (settings : SimConfig)
    (beats : List Beat) : Option Service :=
  match compiled : Program.compile ((Yard.empty config).performAll orders).layout sources with
  | .error _ => none
  | .ok program =>
      match driven : (Machine.powerOn program settings).drive beats with
      | .error _ => none
      | .ok machine =>
          some { config, orders, sources, program, compiled, settings, beats, machine, driven }

/-- The claim holds whenever a cycle begins. -/
def AtCycles (service : Service) (claim : Machine → Prop) : Prop :=
  Machine.AtCycles claim service.beats (.powerOn service.program service.settings)

instance (service : Service) (claim : Machine → Prop) [DecidablePred claim] :
    Decidable (service.AtCycles claim) := inferInstanceAs (Decidable (Machine.AtCycles ..))

/-- The author has handed over outside variables only, only what was declared on the layout is
compiled with it, and from outside only open variables are written. -/
@[mk_iff]
structure Proper (service : Service) : Prop where
  admitted : (Yard.empty service.config).Admits service.orders
  declared : service.sources ⊆ service.yard.sources
  permitted : ∀ beat ∈ service.beats, service.layout.Tolerates beat

instance : DecidablePred Proper := fun _ => decidable_of_iff' _ (proper_iff ..)

theorem automata (service : Service) : service.machine.automata = service.program.automata := by
  refine Machine.drive_induct (motive := fun machine =>
    machine.automata = service.program.automata) (Machine.automata_powerOn ..) ?_ service.driven
  intro beat _ middle next same beaten
  exact (Machine.frame_beat beaten).1.trans same

theorem names_nodup (service : Service) : (service.machine.automata.map (·.name)).Nodup := by
  rw [service.automata]
  exact Program.names_nodup service.compiled

end Service

end Interlocking
