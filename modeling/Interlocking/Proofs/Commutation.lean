import Interlocking.Proofs.Addresses
import Interlocking.Proofs.Ownership
import Interlocking.Proofs.Views

/-!
# Turns that commute

What a turn does depends only on the bits at which its rules look, and it changes only those that
they write. So two automata may swap their turns if neither looks at anything that the other
writes. Two pieces without a common joint are such a pair: whatever one of them may write, the
other may not hear.
-/

namespace Interlocking

namespace Memory

variable {first second : Memory}

/-- Memories of one size are equal if all variables have equal values. -/
theorem eq_of_value (size : first.bits.size = second.bits.size)
    (addressed : first.bits.size ≤ UInt32.size) (same : ∀ var, first.value var = second.value var) :
    first = second := by
  obtain ⟨left⟩ := first
  obtain ⟨right⟩ := second
  congr 1
  apply Array.ext size
  intro index insideLeft insideRight
  have index_eq : Var.index ⟨UInt32.ofNat index⟩ = index :=
    UInt32.toNat_ofNat_of_lt' (Nat.lt_of_lt_of_le insideLeft addressed)
  have here := same ⟨UInt32.ofNat index⟩
  simp only [value, index_eq] at here
  simpa [insideLeft, insideRight] using here

/-- Where memories of one size agree, reading gives the same. -/
theorem read_congr (size : first.bits.size = second.bits.size) {var : Var}
    (same : first.value var = second.value var) : first.read var = second.read var := by
  by_cases inside : var.index < first.bits.size
  · rw [read_eq_ok.mpr ⟨inside, same⟩, read_eq_ok.mpr ⟨size ▸ inside, rfl⟩]
  · simp only [read, Array.getElem?_eq_none (Nat.le_of_not_lt inside),
      Array.getElem?_eq_none (size ▸ Nat.le_of_not_lt inside)]

end Memory

/-- Rules that look only at variables of which `looks` holds cannot tell the turns apart. -/
structure Turn.Alike (looks : Var → Prop) (first second : Turn) : Prop where
  size : first.memory.bits.size = second.memory.bits.size
  values : ∀ var, looks var → first.memory.value var = second.memory.value var
  state : first.state = second.state
  timer : first.timer = second.timer
  changed : first.changed = second.changed

namespace Turn.Alike

variable {looks : Var → Prop} {first second after : Turn}

theorem tick (alike : Alike looks first second) : Alike looks first.tick second.tick := by
  unfold Turn.tick
  rw [← alike.timer]
  split
  · exact alike
  · exact { alike with timer := rfl, changed := rfl }

theorem holds (alike : Alike looks first second) {condition : Condition}
    (looked : Consults looks [condition]) : condition.holds first = condition.holds second := by
  cases condition with
  | bit var value =>
      have same := Memory.read_congr alike.size (alike.values var (consults_bit.mp looked).1)
      simp only [Condition.holds, same]
  | inState state | notInState state => simp only [Condition.holds, alike.state]
  | timerExpired => simp only [Condition.holds, alike.timer]

theorem enabled (alike : Alike looks first second) {conditions : List Condition}
    (looked : Consults looks conditions) :
    Rule.enabled first conditions = Rule.enabled second conditions := by
  induction conditions with
  | nil => rfl
  | cons condition conditions ih =>
      rw [← List.singleton_append, consults_append] at looked
      simp only [Rule.enabled, alike.holds looked.1, ih looked.2]

theorem perform (alike : Alike looks first second) {action : Action}
    (marked : Alters looks [action]) (done : action.perform first = .ok after) :
    ∃ other, action.perform second = .ok other ∧ Alike looks after other := by
  cases Action.perform_eq_ok.mp done with
  | @keep var value read =>
      rw [Memory.read_congr alike.size (alike.values var (alters_set.mp marked).1)] at read
      exact ⟨second, Action.perform_eq_ok.mpr (.keep read), alike⟩
  | @store var value old memory read differs written =>
      have inside := (Memory.read_eq_ok.mp read).1
      rw [Memory.read_congr alike.size (alike.values var (alters_set.mp marked).1)] at read
      obtain ⟨right, stored⟩ := Memory.write_ok (alike.size ▸ inside) value
      obtain ⟨leftSize, leftValue⟩ := Memory.write_eq_ok written
      obtain ⟨rightSize, rightValue⟩ := Memory.write_eq_ok stored
      refine ⟨_, Action.perform_eq_ok.mpr (.store read differs stored),
        { alike with size := ?_, values := ?_, changed := rfl }⟩
      · exact leftSize.trans (alike.size.trans rightSize.symm)
      · intro other listed
        simp only [leftValue, rightValue, alike.values other listed]
  | stay here => exact ⟨second, Action.perform_eq_ok.mpr (.stay (alike.state ▸ here)), alike⟩
  | leave differs =>
      exact ⟨_, Action.perform_eq_ok.mpr (.leave (alike.state ▸ differs)),
        { alike with state := rfl, changed := rfl }⟩
  | load cycles => exact ⟨_, rfl, { alike with timer := rfl }⟩

/-- What is done step by step to one of two turns is done alike to the other. -/
theorem foldlM {α : Type} {step : Turn → α → Except Failure Turn} {items : List α}
    (each : ∀ item ∈ items, ∀ {first second after}, Alike looks first second →
      step first item = .ok after →
      ∃ other, step second item = .ok other ∧ Alike looks after other)
    (alike : Alike looks first second) (done : items.foldlM step first = .ok after) :
    ∃ other, items.foldlM step second = .ok other ∧ Alike looks after other := by
  induction items generalizing first second with
  | nil =>
      obtain rfl := Except.ok.inj done
      exact ⟨second, rfl, alike⟩
  | cons item items ih =>
      obtain ⟨here, others⟩ := List.forall_mem_cons.mp each
      obtain ⟨middle, begun, done⟩ := foldlM_cons_eq_ok.mp done
      obtain ⟨other, same, alike⟩ := here alike begun
      obtain ⟨last, rest, ends⟩ := ih others alike done
      exact ⟨last, foldlM_cons_eq_ok.mpr ⟨other, same, rest⟩, ends⟩

theorem rule (alike : Alike looks first second) {rule : Rule} (uses : Uses looks looks [rule])
    (done : rule.run first = .ok after) :
    ∃ other, rule.run second = .ok other ∧ Alike looks after other := by
  obtain ⟨⟨looked, marked⟩, -⟩ := uses_cons.mp uses
  rcases Rule.run_eq_ok.mp done with ⟨asked, acted⟩ | ⟨asked, rfl⟩
  · rw [alike.enabled looked] at asked
    obtain ⟨other, performed, ends⟩ : ∃ other,
        rule.actions.foldlM Action.perform second = .ok other ∧ Alike looks after other :=
      foldlM (fun _ listed _ _ _ alike => alike.perform (marked.of_mem listed)) alike acted
    exact ⟨other, Rule.run_eq_ok.mpr (.inl ⟨asked, performed⟩), ends⟩
  · rw [alike.enabled looked] at asked
    exact ⟨second, Rule.run_eq_ok.mpr (.inr ⟨asked, rfl⟩), alike⟩

/-- A turn depends on nothing but what the rules of the automaton mention. -/
theorem run (alike : Alike looks first second) {automaton : Automaton}
    (uses : Uses looks looks automaton.rules) (done : automaton.run first = .ok after) :
    ∃ other, automaton.run second = .ok other ∧ Alike looks after other :=
  foldlM (fun _ listed _ _ _ alike => alike.rule (uses.of_mem listed)) alike.tick done

end Turn.Alike

namespace Automaton

variable {automaton one two : Automaton} {turn after : Turn}

/-- Neither automaton mentions what the other writes. -/
def Independent (one two : Automaton) : Prop :=
  (∀ var ∈ one.written, var ∉ two.mentioned) ∧ ∀ var ∈ two.written, var ∉ one.mentioned

theorem Independent.symm (independent : one.Independent two) : two.Independent one :=
  And.symm independent

/-- A turn changes nothing but what the rules write. -/
theorem value_run (done : automaton.run turn = .ok after) {var : Var}
    (unwritten : var ∉ automaton.written) : after.memory.value var = turn.memory.value var := by
  have unchanged : (turn.view.tick.pass automaton.rules).bits var = turn.view.tick.bits var := by
    apply View.bits_pass
    intro rule member written
    exact unwritten (List.mem_flatMap.mpr ⟨rule, member, written⟩)
  rw [← (view_run done).1, View.bits_tick] at unchanged
  exact unchanged

end Automaton

/-- The turn of a cell with this memory. -/
def Cell.turn (cell : Cell) (memory : Memory) : Turn :=
  { memory, state := cell.state, timer := cell.timer }

namespace Cell

variable {one two : Cell} {memory : Memory} {first second : Turn}

section Independent

variable (independent : one.automaton.Independent two.automaton)
  (ranFirst : one.automaton.run (one.turn memory) = .ok first)
  (ranSecond : two.automaton.run (two.turn memory) = .ok second)

include independent ranFirst ranSecond

/-- The turn of a cell is the same after the turn of an independent one. -/
theorem run_after :
    ∃ last, two.automaton.run (two.turn first.memory) = .ok last ∧
      Turn.Alike (· ∈ two.automaton.mentioned) second last := by
  refine Turn.Alike.run ?_ two.automaton.uses_mentioned ranSecond
  refine ⟨(Automaton.view_run ranFirst).2.symm, ?_, rfl, rfl, rfl⟩
  intro var mentioned
  exact (Automaton.value_run ranFirst fun written => independent.1 var written mentioned).symm

/-- Turns of independent cells leave the same memory in either order. -/
theorem memory_comm (addressed : memory.bits.size ≤ UInt32.size) {ahead behind : Turn}
    (ranAhead : two.automaton.run (two.turn first.memory) = .ok ahead)
    (aheadAlike : Turn.Alike (· ∈ two.automaton.mentioned) second ahead)
    (ranBehind : one.automaton.run (one.turn second.memory) = .ok behind)
    (behindAlike : Turn.Alike (· ∈ one.automaton.mentioned) first behind) :
    ahead.memory = behind.memory := by
  have firstSize : first.memory.bits.size = memory.bits.size := (Automaton.view_run ranFirst).2
  have secondSize : second.memory.bits.size = memory.bits.size := (Automaton.view_run ranSecond).2
  have aheadSize := aheadAlike.size
  have behindSize := behindAlike.size
  apply Memory.eq_of_value (by omega) (by omega)
  intro var
  -- At most one of the two writes a variable, and its turn is the same in both orders.
  by_cases byTwo : var ∈ two.automaton.written
  · have unread := independent.2 var byTwo
    calc ahead.memory.value var
        = second.memory.value var := (aheadAlike.values var (two.automaton.written_subset byTwo)).symm
      _ = behind.memory.value var :=
          (Automaton.value_run ranBehind fun written =>
            unread (one.automaton.written_subset written)).symm
  · have kept : ahead.memory.value var = first.memory.value var :=
      Automaton.value_run ranAhead byTwo
    by_cases byOne : var ∈ one.automaton.written
    · rw [kept, behindAlike.values var (one.automaton.written_subset byOne)]
    · calc ahead.memory.value var
          = first.memory.value var := kept
        _ = memory.value var := Automaton.value_run ranFirst byOne
        _ = second.memory.value var := (Automaton.value_run ranSecond byTwo).symm
        _ = behind.memory.value var := (Automaton.value_run ranBehind byOne).symm

end Independent

end Cell

namespace Machine

variable {machine left right : Machine} {first second : Nat} {one two : Cell}
  {leftChanged rightChanged : Bool}

/-- Independent automata may swap their turns. -/
theorem evaluate_comm (different : first ≠ second) (foundOne : machine.cells[first]? = some one)
    (foundTwo : machine.cells[second]? = some two)
    (independent : one.automaton.Independent two.automaton)
    (addressed : machine.memory.bits.size ≤ UInt32.size)
    (evaluatedFirst : machine.evaluate first = .ok (left, leftChanged))
    (evaluatedSecond : machine.evaluate second = .ok (right, rightChanged)) :
    ∃ last, left.evaluate second = .ok (last, rightChanged) ∧
      right.evaluate first = .ok (last, leftChanged) := by
  obtain ⟨known, turnOne, same, ranOne, leftIs, rfl⟩ := evaluate_eq_ok evaluatedFirst
  obtain rfl := Option.some.inj (foundOne.symm.trans same)
  obtain ⟨known, turnTwo, same, ranTwo, rightIs, rfl⟩ := evaluate_eq_ok evaluatedSecond
  obtain rfl := Option.some.inj (foundTwo.symm.trans same)
  obtain ⟨ahead, ranAhead, aheadAlike⟩ := Cell.run_after independent ranOne ranTwo
  obtain ⟨behind, ranBehind, behindAlike⟩ := Cell.run_after independent.symm ranTwo ranOne
  have memory := Cell.memory_comm independent ranOne ranTwo addressed ranAhead aheadAlike ranBehind
    behindAlike
  have laterTwo : left.cells[second]? = some two := by
    rw [leftIs, Array.getElem?_setIfInBounds, if_neg different, foundTwo]
  have laterOne : right.cells[first]? = some one := by
    rw [rightIs, Array.getElem?_setIfInBounds, if_neg different.symm, foundOne]
  subst leftIs rightIs
  have evaluatedAhead := evaluate_of_run laterTwo ranAhead
  have evaluatedBehind := evaluate_of_run laterOne ranBehind
  rw [← aheadAlike.state, ← aheadAlike.timer, ← aheadAlike.changed] at evaluatedAhead
  rw [← behindAlike.state, ← behindAlike.timer, ← behindAlike.changed, ← memory,
    Array.setIfInBounds_comm _ _ different.symm] at evaluatedBehind
  exact ⟨_, evaluatedAhead, evaluatedBehind⟩

end Machine

namespace Layout

variable {layout : Layout} {id other : PieceId}

/-- What was given to the piece to be written was given to no other piece. -/
def DrivesAlone (layout : Layout) (id : PieceId) : Prop :=
  ∀ piece other neighbour, layout.piece? id = some piece → layout.piece? other = some neighbour →
    ∀ var ∈ piece.driven, var ∈ neighbour.supplied → other = id

instance (layout : Layout) (id : PieceId) : Decidable (layout.DrivesAlone id) :=
  decidable_of_iff (∀ piece ∈ layout.piece? id, ∀ entry ∈ layout.pieces.toList.zipIdx,
    ∀ var ∈ piece.driven, var ∈ entry.1.supplied → ⟨entry.2⟩ = id) <| by
      simp only [DrivesAlone, Prod.forall, List.mem_zipIdx_iff_getElem?, Array.getElem?_toList]
      constructor
      · intro all piece other neighbour found known
        exact all piece found neighbour other.index known
      · intro all piece found neighbour index known
        exact all piece ⟨index⟩ neighbour found known

/-- What a piece may write, a piece that is not joined to it does not hear. -/
theorem Sound.not_hears_of_drives (sound : layout.Sound) (different : id ≠ other)
    (separate : ¬layout.Adjoins other id) (alone : layout.DrivesAlone id) {role : Role}
    (drives : layout.Drives id role) : ¬layout.Hears other role := by
  obtain ⟨owns, outside⟩ := drives
  have joins {near far : SideId} (joined : layout.mate? near = some far)
      (here : layout.Borders other near) (there : layout.Borders id far) : False :=
    separate ⟨near, far, joined, here, there⟩
  intro hears
  cases role with
  | request side | released side =>
      rcases hears with borders | ⟨mate, joined, borders⟩
      · exact different (owns.unique borders)
      · exact joins (sound.paired joined) borders owns
  | granted side | denied side =>
      obtain ⟨mate, joined, owner⟩ := owns
      rcases hears with borders | ⟨known, same, borders⟩
      · exact joins joined borders owner
      · obtain rfl := Option.some.inj (joined.symm.trans same)
        exact different (owner.unique borders)
  | route passage | pending passage => exact different (sound.same_piece owns hears rfl)
  | seen piece | helper piece | position piece | anyRoute piece =>
      exact different (owns.symm.trans hears)
  | occupancy piece =>
      obtain rfl : piece = id := owns
      exact hears.elim different separate
  | outside var =>
      obtain ⟨piece, found, driven⟩ := outside var rfl
      obtain ⟨known, neighbour, near, there, supplied⟩ := hears
      obtain rfl := alone piece known neighbour found there var driven supplied
      exact near.elim different separate

/-- Pieces without a common joint are independent. -/
theorem Sound.independent (sound : layout.Sound) {piece neighbour : Piece}
    (found : layout.piece? id = some piece) (known : layout.piece? other = some neighbour)
    (different : id ≠ other) (separate : ¬layout.Adjoins id other)
    (alone : layout.DrivesAlone id) (otherAlone : layout.DrivesAlone other) :
    (piece.automaton layout).Independent (neighbour.automaton layout) := by
  have uses {id : PieceId} {piece : Piece} (found : layout.piece? id = some piece) :=
    (sound.vocabulary found).uses_automaton (sound.shaped found)
  have hears {id : PieceId} {piece : Piece} (found : layout.piece? id = some piece) :
      ∀ var ∈ (piece.automaton layout).mentioned, layout.Hears id (layout.role var) :=
    Automaton.mentioned_of_uses
      ((uses found).mono (fun _ heard => heard) fun _ driven => driven.hears)
  constructor
  · intro var written mentioned
    refine sound.not_hears_of_drives different ?_ alone
      (Automaton.written_of_uses (uses found) var written) (hears known var mentioned)
    exact fun adjoins => separate (sound.adjoins_symm adjoins)
  · intro var written mentioned
    exact sound.not_hears_of_drives different.symm separate otherAlone
      (Automaton.written_of_uses (uses known) var written) (hears found var mentioned)

theorem Sound.not_adjoins (sound : layout.Sound) {piece neighbour : Piece}
    (found : layout.piece? id = some piece) (known : layout.piece? other = some neighbour)
    (unjoined : ∀ side ∈ piece.sides, ∀ mate ∈ neighbour.sides, layout.mate? side ≠ some mate) :
    ¬layout.Adjoins id other := by
  have lists {id : PieceId} {piece : Piece} {side : SideId} (found : layout.piece? id = some piece)
      (borders : layout.Borders id side) : side ∈ piece.sides := by
    obtain ⟨record, there, rfl⟩ := borders
    obtain ⟨owner, same, member⟩ := sound.owned there
    obtain rfl := Option.some.inj (found.symm.trans same)
    exact member
  rintro ⟨side, mate, joined, here, there⟩
  exact unjoined side (lists found here) mate (lists known there) joined

end Layout

/-- The order in which pieces without a common joint take their turns does not matter. Take any
layout that was put together with outside variables supplied by its author, any program that is
compiled of it, and two different pieces no sides of which are joined to each other, such that
what was given to them to be written, the aspect of a signal or the current of a motor, was given
to no other piece. Then whatever the bits, registers and timers of a machine with this program
hold, both pieces can take their turns in either order, both orders lead to the same machine,
and each of the two turns tells in both orders alike whether it has changed anything. -/
theorem turns_of_separate_pieces_commute (config : Config) (orders : List Order)
    (admitted : (Yard.empty config).Admits orders) (layout : Layout)
    (made : ((Yard.empty config).performAll orders).layout = layout) (sources : List Source)
    (program : Program) (compiled : Program.compile layout sources = .ok program)
    (first second : PieceId) (one two : Piece) (foundOne : layout.piece? first = some one)
    (foundTwo : layout.piece? second = some two) (different : first ≠ second)
    (unjoined : ∀ side ∈ one.sides, ∀ mate ∈ two.sides, layout.mate? side ≠ some mate)
    (firstAlone : layout.DrivesAlone first) (secondAlone : layout.DrivesAlone second)
    (machine : Machine) (automata : machine.automata = program.automata)
    (size : machine.memory.bits.size = program.table.span) :
    ∃ left right last firstChanged secondChanged,
      machine.evaluate first.index = .ok (left, firstChanged) ∧
      left.evaluate second.index = .ok (last, secondChanged) ∧
      machine.evaluate second.index = .ok (right, secondChanged) ∧
      right.evaluate first.index = .ok (last, firstChanged) := by
  have sound : layout.Sound :=
    made ▸ (Yard.performAll_sound (Yard.empty_sound config) admitted).layout
  rw [(Program.automata_of_compile compiled).1] at size
  have placed {id : PieceId} {piece : Piece} (found : layout.piece? id = some piece) :
      ∃ cell, machine.cells[id.index]? = some cell ∧
        cell.automaton = piece.automaton layout :=
    Machine.exists_cell (automata ▸ Program.getElem?_of_piece compiled found)
  have succeeds {id : PieceId} {piece : Piece} (found : layout.piece? id = some piece) :
      ∃ next changed, machine.evaluate id.index = .ok (next, changed) := by
    obtain ⟨cell, here, same⟩ := placed found
    exact Layout.Addresses.evaluate_ok (same ▸ sound.addresses_automaton found) size here
  obtain ⟨left, firstChanged, evaluatedFirst⟩ := succeeds foundOne
  obtain ⟨right, secondChanged, evaluatedSecond⟩ := succeeds foundTwo
  obtain ⟨cellOne, here, sameOne⟩ := placed foundOne
  obtain ⟨cellTwo, there, sameTwo⟩ := placed foundTwo
  have independent : cellOne.automaton.Independent cellTwo.automaton := by
    rw [sameOne, sameTwo]
    exact sound.independent foundOne foundTwo different
      (sound.not_adjoins foundOne foundTwo unjoined) firstAlone secondAlone
  have places : first.index ≠ second.index := fun same => different (congrArg PieceId.mk same)
  have addressed : machine.memory.bits.size ≤ UInt32.size :=
    size ▸ Nat.le_of_lt (UInt32.toNat_lt_size _)
  obtain ⟨last, ahead, behind⟩ := Machine.evaluate_comm places here there independent addressed
    evaluatedFirst evaluatedSecond
  exact ⟨left, right, last, firstChanged, secondChanged, evaluatedFirst, ahead, evaluatedSecond,
    behind⟩

section Siding

/-- The machine of a program with every bit 1. -/
def Program.alight (program : Program) : Machine :=
  { Machine.powerOn program {} with memory := ⟨Array.replicate program.table.span true⟩ }

theorem sidingYard_separates :
    (∃ one ∈ sidingYard.layout.piece? ⟨0⟩, ∃ two ∈ sidingYard.layout.piece? ⟨3⟩,
      ∀ side ∈ one.sides, ∀ mate ∈ two.sides, sidingYard.layout.mate? side ≠ some mate) ∧
    sidingYard.layout.DrivesAlone ⟨0⟩ ∧ sidingYard.layout.DrivesAlone ⟨3⟩ ∧
    ∃ program ∈ (Program.compile sidingYard.layout sidingSources).toOption,
      (∃ left ∈ (program.alight.evaluate 0).toOption, left.2 = true) ∧
      ∃ right ∈ (program.alight.evaluate 3).toOption, right.2 = true := by
  decide +kernel

/-- The turnout and the body of the block have the signal between them. Both look at its occupancy
and both answer it. -/
theorem turns_of_separate_pieces_commute_at_siding :
    (Yard.empty {}).Admits sidingOrders ∧ sidingYard.layout.DrivesAlone ⟨0⟩ ∧
    sidingYard.layout.DrivesAlone ⟨3⟩ ∧
    ∃ program one two, Program.compile sidingYard.layout sidingSources = .ok program ∧
      program.alight.automata = program.automata ∧
      program.alight.memory.bits.size = program.table.span ∧
      sidingYard.layout.piece? ⟨0⟩ = some one ∧ sidingYard.layout.piece? ⟨3⟩ = some two ∧
      (∀ side ∈ one.sides, ∀ mate ∈ two.sides, sidingYard.layout.mate? side ≠ some mate) ∧
      ∃ left right last, program.alight.evaluate 0 = .ok (left, true) ∧
        Machine.evaluate left 3 = .ok (last, true) ∧
        program.alight.evaluate 3 = .ok (right, true) ∧
        Machine.evaluate right 0 = .ok (last, true) := by
  obtain ⟨admitted, -⟩ := sidingYard_shows
  obtain ⟨⟨one, foundOne, two, foundTwo, unjoined⟩, aloneOne, aloneTwo, program, known,
    ⟨⟨left, _⟩, ranLeft, rfl⟩, ⟨right, _⟩, ranRight, rfl⟩ := sidingYard_separates
  have compiled := Machine.mem_toOption_iff.mp known
  have automata : program.alight.automata = program.automata := Machine.automata_powerOn program {}
  have size : program.alight.memory.bits.size = program.table.span := by simp [Program.alight]
  refine ⟨admitted, aloneOne, aloneTwo, program, one, two, compiled, automata, size, foundOne,
    foundTwo, unjoined, ?_⟩
  obtain ⟨left', right', last, leftChanged, rightChanged, first, onward, second, back⟩ :=
    turns_of_separate_pieces_commute {} sidingOrders admitted sidingYard.layout rfl sidingSources
      program compiled ⟨0⟩ ⟨3⟩ one two foundOne foundTwo (by decide) unjoined aloneOne aloneTwo
      program.alight automata size
  obtain ⟨rfl, rfl⟩ := Prod.mk.inj
    (Except.ok.inj ((Machine.mem_toOption_iff.mp ranLeft).symm.trans first))
  obtain ⟨rfl, rfl⟩ := Prod.mk.inj
    (Except.ok.inj ((Machine.mem_toOption_iff.mp ranRight).symm.trans second))
  exact ⟨left, right, last, first, onward, second, back⟩

end Siding

end Interlocking
