import Interlocking.Proofs.Strokes

/-!
# The books of a schedule

In each turn a schedule writes its own bits so that they agree with its register: the register and
the move under way tell all of them but where the train is. They agree after the first turn already,
whatever was left over from before, and no order of rules and no failed guard gets them out of step.
A train that stays for good is left alone ever after.
-/

namespace Interlocking

namespace Schedule

variable {schedule : Schedule} {yard : Yard} {view next : View} {move : Move} {rule : Rule}

/-- Whatever the schedule does, the train may run if it is to run. -/
theorem Stroke.go (stroke : schedule.Stroke view next)
    (tells : view.bits schedule.go = decide (view.state = Stage.moving.state)) :
    next.bits schedule.go = decide (next.state = Stage.moving.state) := by
  cases stroke with
  | proceed first second step _ _ before after reads =>
      obtain ⟨-, ⟨notFirst, notSecond⟩, -⟩ := onward_busy _ step
      refine (reads _ go_mem_entries).trans (tells.trans ?_)
      simp [before, after, notFirst, notSecond]
  | wait before after reads | pick _ _ before after reads | forget _ _ before after reads
  | recover before _ after reads =>
      refine (reads _ go_mem_entries).trans (tells.trans ?_)
      simp [before, after, State.base, Stage.state]
  | drop _ _ ends reads =>
      refine (reads _ go_mem_entries).trans (tells.trans ?_)
      rcases ends with ⟨before, after⟩ | ⟨before, after⟩ <;>
        simp [before, after, State.base, Stage.state]
  | stay _ after reads | depart _ _ _ after reads | arrive _ _ _ after reads
  | restart _ after reads =>
      refine (reads _ go_mem_entries).trans ?_
      simp [after, Stage.state]

/-- Whatever the schedule does, the train is routed to the target of its move. -/
theorem Stroke.coming {current after : Option Move} (stroke : schedule.Stroke view next)
    (onMove : schedule.OnMove current view) (later : schedule.OnMove after next)
    (tells : view.state ≠ Stage.recovering.state → ∀ berth ∈ schedule.berths,
      view.bits berth.coming = decide (current.map Move.target = some berth))
    (settled : next.state ≠ Stage.recovering.state) {berth : Berth}
    (known : berth ∈ schedule.berths) :
    next.bits berth.coming = decide (after.map Move.target = some berth) := by
  cases stroke with
  | proceed first second step member active before _ reads =>
      obtain rfl := onMove.unique later fun _ known => reads _ (active_mem_entries.mpr known)
      exact (reads _ (coming_mem_entries.mpr known)).trans
        (tells (before ▸ (onward_busy _ step).2.2) berth known)
  | stay before _ reads | wait before _ reads | depart _ _ before _ reads
  | arrive _ _ before _ reads =>
      obtain rfl := onMove.unique later fun _ known => reads _ (active_mem_entries.mpr known)
      refine (reads _ (coming_mem_entries.mpr known)).trans (tells ?_ berth known)
      simp [before, State.base, Stage.state]
  | @pick picked member _ before _ reads =>
      obtain rfl : after = some picked :=
        later.eq_some member ((reads _ (active_mem_entries.mpr member)).trans (by simp))
      have value := reads _ (coming_mem_entries.mpr known)
      have others := tells (by simp [before, Stage.state]) berth known
      rw [onMove.idle (by simp [Idle, before])] at others
      simpa [Function.update_apply, bit, notes, others, eq_comm] using value
  | @drop dropped member active ends reads =>
      obtain rfl := onMove.eq_some member active
      have value := reads _ (coming_mem_entries.mpr known)
      obtain ⟨before, idle⟩ : view.state ≠ Stage.recovering.state ∧ Idle next.state := by
        rcases ends with ⟨before, after⟩ | ⟨before, after⟩ <;>
          simp [before, after, Idle, Stage.state]
      have others := tells before berth known
      rw [later.idle idle]
      by_cases same : berth = dropped.target
      · simpa [same, bit] using value
      · simpa [same, Ne.symm same, bit, notes, others] using value
  | recover _ _ rests reads =>
      rw [later.idle (by simp [Idle, rests])]
      exact reads _ (coming_mem_entries.mpr known)
  | forget _ _ _ recovering _ | restart _ recovering _ => exact absurd recovering settled

/-- The timer runs in a restart only. -/
def Timed (view : View) : Prop := view.timer ≠ 0 → view.state = Stage.recovering.state

/-- Whatever the schedule does, its timer does not outlast the restart. -/
theorem Stroke.timed (stroke : schedule.Stroke view next)
    (timer : next.timer = view.timer ∨ next.state = Stage.recovering.state) (timed : Timed view) :
    Timed next := by
  intro running
  refine timer.elim (fun same => ?_) id
  have recovering := timed (same ▸ running)
  cases stroke with
  | proceed _ _ step _ _ before =>
      exact absurd (before.symm.trans recovering) (onward_busy _ step).2.2
  | stay before | wait before | pick _ _ before | depart _ _ before | arrive _ _ before =>
      simp [recovering, State.base, Stage.state] at before
  | drop _ _ ends => simp [recovering, Stage.state] at ends
  | forget _ _ _ after | restart _ after => exact after
  | recover _ expired => exact absurd (same.trans expired) running

/-- The bits that the register and the move under way tell. -/
def ledger (schedule : Schedule) : List Var :=
  schedule.go :: (schedule.berths.map Berth.coming ++ schedule.moves.map Move.active)

/-- The register and the move under way tell these bits. -/
structure Kept (schedule : Schedule) (current : Option Move) (view : View) : Prop where
  onMove : schedule.OnMove current view
  go : view.bits schedule.go = decide (view.state = Stage.moving.state)
  coming : view.state ≠ Stage.recovering.state → ∀ berth ∈ schedule.berths,
    view.bits berth.coming = decide (current.map Move.target = some berth)

/-- A view before the first turn, of which nothing is known, or one after a turn. -/
def Booked (schedule : Schedule) (view : View) : Prop :=
  Timed view ∧ (view.state = .initial ∨ ∃ current, schedule.Kept current view)

theorem Booked.stroke (booked : schedule.Booked view) (stroke : schedule.Stroke view next)
    (timer : next.timer = view.timer ∨ next.state = Stage.recovering.state) :
    schedule.Booked next := by
  refine ⟨stroke.timed timer booked.1, .inr ?_⟩
  rcases booked.2 with initial | ⟨current, kept⟩
  · obtain ⟨after, reads⟩ := stroke.of_initial initial
    refine ⟨_, .none (fun _ member => reads _ (active_mem_entries.mpr member)) stroke.started
      (.inl (by simp [Idle, after])), ?_, fun settled => absurd after settled⟩
    refine (reads _ go_mem_entries).trans ?_
    simp [after, Stage.state]
  · obtain ⟨after, later⟩ := stroke.onMove kept.onMove
    exact ⟨after, later, stroke.go kept.go,
      fun settled _ known => stroke.coming kept.onMove later kept.coming settled known⟩

theorem Kept.congr {current : Option Move} (kept : schedule.Kept current view)
    (state : next.state = view.state)
    (bits : ∀ var ∈ schedule.ledger, next.bits var = view.bits var) :
    schedule.Kept current next := by
  simp only [ledger, List.forall_mem_cons, List.forall_mem_append, List.forall_mem_map] at bits
  obtain ⟨go, coming, active⟩ := bits
  refine ⟨kept.onMove.congr state active, ?_, ?_⟩
  · rw [go, state]
    exact kept.go
  · intro settled berth known
    exact (coming berth known).trans (kept.coming (state ▸ settled) berth known)

theorem Booked.looksAt (schedule : Schedule) : View.LooksAt schedule.ledger schedule.Booked := by
  intro view next state timer bits booked
  refine ⟨?_, booked.2.imp state.trans fun ⟨current, kept⟩ => ⟨current, kept.congr state bits⟩⟩
  rw [Timed, timer, state]
  exact booked.1

theorem Booked.tick (booked : schedule.Booked view) : schedule.Booked view.tick := by
  refine ⟨?_, booked.2.imp view.state_tick.trans fun ⟨current, kept⟩ =>
    ⟨current, kept.congr view.state_tick fun _ _ => by rw [View.bits_tick]⟩⟩
  intro running
  rw [View.state_tick]
  exact booked.1 fun stopped => running (by simp [View.tick, stopped])

/-- After each turn the register and the move under way tell the bits. -/
theorem Booked.turn (listed : schedule.Listed yard) (spares : schedule.SparesOwn)
    (layout : Layout) (booked : schedule.Booked view) :
    Timed (view.tick.pass (schedule.build layout).rules) ∧
      ∃ current, schedule.Kept current (view.tick.pass (schedule.build layout).rules) := by
  have after : schedule.Booked (view.tick.pass (schedule.build layout).rules) :=
    turn_induct listed spares layout Booked.stroke booked.tick
  refine ⟨after.1, after.2.resolve_left ?_⟩
  rw [pass_build]
  exact schedule.state_workingRules_ne_initial _ _

/-- The train stays for good. -/
structure Parked (schedule : Schedule) (view : View) : Prop where
  state : view.state = Stage.stopTrain.state
  timer : view.timer = 0
  kept : schedule.Kept none view

theorem Parked.inactive (parked : schedule.Parked view) (member : move ∈ schedule.moves) :
    view.bits move.active = false :=
  parked.kept.onMove.active move member

theorem Parked.looksAt (schedule : Schedule) : View.LooksAt schedule.ledger schedule.Parked :=
  fun _ _ state timer bits parked =>
    ⟨state.trans parked.state, timer.trans parked.timer, parked.kept.congr state bits⟩

/-- A schedule whose train stays for good can do nothing. -/
theorem Parked.still (parked : schedule.Parked view) : ¬schedule.Stroke view next := by
  intro stroke
  have state := parked.state
  cases stroke with
  | proceed _ _ _ member active | drop member active | depart member active
  | arrive member active => simp [parked.inactive member] at active
  | stay before | wait before | pick _ _ before | forget _ _ before | recover before
  | restart before => simp [state, State.initial, State.base, Stage.state] at before

theorem Parked.turn_eq (listed : schedule.Listed yard) (spares : schedule.SparesOwn)
    (layout : Layout) (parked : schedule.Parked view) :
    view.tick.pass (schedule.build layout).rules = view := by
  have stopped : view.tick = view := if_pos parked.timer
  rw [stopped]
  refine turn_induct (motive := (· = view)) listed spares layout ?_ rfl
  rintro _ next rfl stroke
  exact absurd stroke parked.still

/-- A rule looks at the register first, and if it is for trains that have stopped, at the bit of its
move next. -/
def Asks (schedule : Schedule) (rule : Rule) : Prop :=
  (∃ state rest, rule.conditions = .inState state :: rest ∧ state ≠ Stage.stopTrain.state) ∨
    ∃ move ∈ schedule.moves, ∃ stage rest, rule.conditions = during move stage ++ rest

theorem asks_moveRules (member : move ∈ schedule.moves) :
    ∀ rule ∈ schedule.moveRules move, schedule.Asks rule := by
  have asks : ∀ stage rest actions, schedule.Asks ⟨during move stage ++ rest, actions⟩ :=
    fun stage rest actions => .inr ⟨move, member, stage, rest, rfl⟩
  refine List.forall_mem_cons.mpr ⟨.inl ⟨_, _, rfl, by decide⟩, List.forall_mem_append.mpr
    ⟨List.forall_mem_append.mpr ⟨?_, ?_⟩, ?_⟩⟩
  · cases move.client with
    | none => exact List.forall_mem_singleton.mpr (asks .ready [] _)
    | some client =>
        refine List.forall_mem_append.mpr ⟨?_, List.forall_mem_map.mpr fun _ _ => asks ..⟩
        simp only [List.forall_mem_cons, List.not_mem_nil, false_implies, implies_true, and_true]
        exact ⟨asks .ready [] _, asks .., asks ..⟩
  · unfold turnoutRules
    split
    · exact List.forall_mem_singleton.mpr (asks ..)
    · exact List.forall_mem_cons.mpr ⟨asks .turnouts [] _, List.forall_mem_singleton.mpr (asks ..)⟩
  · simp only [travelRules, List.forall_mem_cons, List.not_mem_nil, false_implies, implies_true,
      and_true]
    exact ⟨asks .requestGreen [] _, asks .., asks .startTrain [] _, asks .., asks ..,
      asks .done [] _⟩

theorem asks_build (layout : Layout) :
    ∀ rule ∈ (schedule.build layout).rules, schedule.Asks rule := by
  have asks : ∀ state rest actions, state ≠ Stage.stopTrain.state →
      schedule.Asks ⟨.inState state :: rest, actions⟩ :=
    fun state rest actions elsewhere => .inl ⟨state, rest, rfl, elsewhere⟩
  rw [rules_build_calm]
  refine List.forall_mem_append.mpr ⟨List.forall_mem_append.mpr ⟨List.forall_mem_append.mpr
    ⟨List.forall_mem_append.mpr ⟨?_, ?_⟩, ?_⟩, ?_⟩, ?_⟩
  · exact List.forall_mem_map.mpr fun _ _ => asks _ _ _ (by decide)
  · exact List.forall_mem_map.mpr fun _ _ => asks _ _ _ (by decide)
  · intro rule known
    obtain ⟨move, member, known⟩ := List.mem_flatMap.mp known
    exact asks_moveRules member rule known
  · exact List.forall_mem_map.mpr fun _ _ => asks _ _ _ (by decide)
  · simp only [windowRules, List.forall_mem_cons, List.not_mem_nil, false_implies, implies_true,
      and_true]
    exact ⟨asks _ _ _ (by decide), asks _ _ _ (by decide), asks _ _ _ (by decide)⟩

/-- A rule is refused without looking at what need not be in memory. -/
theorem Parked.enabled {turn : Turn} (parked : schedule.Parked turn.view)
    (inside : ∀ move ∈ schedule.moves, move.active.index < turn.memory.bits.size)
    (asks : schedule.Asks rule) : Rule.enabled turn rule.conditions = .ok false := by
  rcases asks with ⟨state, rest, conditions, elsewhere⟩ | ⟨move, member, stage, rest, conditions⟩
  · have away : turn.state ≠ state := fun same => elsewhere (same.symm.trans parked.state)
    simp [conditions, Rule.enabled, Condition.holds, away, bind, Except.bind, pure, Except.pure]
  · have off : turn.memory.read move.active = .ok false :=
      Memory.read_eq_ok.mpr ⟨inside move member, parked.inactive member⟩
    by_cases here : turn.state = stage.state <;>
      simp [conditions, during, Rule.enabled, Condition.holds, here, off, bind, Except.bind, pure,
        Except.pure]

theorem Parked.run {turn : Turn} (parked : schedule.Parked turn.view)
    (inside : ∀ move ∈ schedule.moves, move.active.index < turn.memory.bits.size)
    (layout : Layout) : (schedule.build layout).run turn = .ok turn := by
  have stopped : turn.tick = turn := if_pos parked.timer
  rw [Automaton.run, stopped]
  exact foldlM_run_eq_self fun rule member => parked.enabled inside (asks_build layout rule member)

/-- The stages at which a move is under way. At `stopTrain` there may be one. -/
def busyStages : List Stage := [.ready, .permission, .recheck, .turnouts, .requestGreen, .greenWait,
  .startTrain, .moving, .done]

theorem not_idle_of_busy : ∀ state ∈ busyStages.map Stage.state,
    ¬(Idle state ∨ state = Stage.stopTrain.state) := by
  decide

/-- The register of a schedule in a machine and the move under way, and the bits that follow from
them. -/
structure Agrees (schedule : Schedule) (machine : Machine) (state : State)
    (current : Option Move) : Prop where
  register : machine.state? schedule.name = some state
  known : state = .base ∨ ∃ stage : Stage, state = stage.state
  /-- The bit of the move under way is the only one that is 1. -/
  active : ∀ move ∈ schedule.moves, machine.get move.active = .ok (decide (current = some move))
  listed : ∀ move ∈ current, move ∈ schedule.moves
  idle : state ∈ [.base, Stage.waiting.state, Stage.recovering.state] → current = none
  busy : state ∈ busyStages.map Stage.state → current ≠ none
  go : machine.get schedule.go = .ok (decide (state = Stage.moving.state))
  coming : state ≠ Stage.recovering.state → ∀ berth ∈ schedule.berths,
    machine.get berth.coming = .ok (decide (current.map Move.target = some berth))

namespace Stint

/-- The bits that the schedule sees can be asked for. -/
theorem agrees {vars : List Var} (stint : schedule.Stint vars) {machine : Machine} {cell : Cell}
    (size : machine.memory.bits.size = stint.program.table.span)
    (state : machine.state? schedule.name = some cell.state) {current : Option Move}
    (kept : schedule.Kept current (cell.view machine.memory)) :
    schedule.Agrees machine cell.state current := by
  refine ⟨state, kept.onMove.started, ?_, kept.onMove.listed, ?_, ?_, ?_, ?_⟩
  · intro move member
    exact stint.get_eq_ok size (bit_mem_own (active_mem_entries.mpr member))
      (kept.onMove.active move member)
  · intro idle
    exact kept.onMove.idle (List.mem_cons_of_mem _ idle)
  · rintro busy rfl
    exact not_idle_of_busy _ busy (kept.onMove.busy rfl)
  · exact stint.get_eq_ok size (bit_mem_own go_mem_entries) kept.go
  · intro settled berth known
    exact stint.get_eq_ok size (bit_mem_own (coming_mem_entries.mpr known))
      (kept.coming settled berth known)

variable (stint : schedule.Stint schedule.ledger)

theorem kept : stint.program.Sees stint.index
    (fun view => Timed view ∧ ∃ current, schedule.Kept current view) stint.machine := by
  refine stint.sees (Booked.looksAt schedule) ?_ (Booked.turn stint.listed stint.spares _)
    fun kept => ⟨kept.1, .inr kept.2⟩
  exact fun view initial stopped _ => ⟨fun running => absurd stopped running, .inl initial⟩

/-- A train that stays for good stays, whatever happens. -/
theorem parked_play {machine last : Machine}
    (parked : stint.program.Sees stint.index schedule.Parked machine) {later : List Event}
    (spared : ∀ var ∈ schedule.ledger, ∀ value, .write var value ∉ later)
    (played : machine.play later = .ok last) :
    stint.program.Sees stint.index schedule.Parked last := by
  refine parked.play ⟨stint.entrusts.others, spared⟩ (Parked.looksAt schedule) stint.placed ?_ played
  intro _ view parked
  rwa [parked.turn_eq stint.listed stint.spares]

theorem evaluate_of_parked {machine : Machine}
    (parked : stint.program.Sees stint.index schedule.Parked machine) :
    machine.evaluate stint.index = .ok (machine, false) := by
  obtain ⟨cell, found, same, -, parkedView⟩ :=
    parked.exists_cell (Program.names_nodup stint.compiled) stint.placed
  refine Machine.evaluate_eq_self found ?_
  rw [same]
  refine Parked.run parkedView (fun move member => ?_) _
  rw [parked.size]
  exact stint.own_lt (bit_mem_own (active_mem_entries.mpr member))

end Stint

end Schedule

/-- The register of a schedule and its own bits agree after each of its turns. Whatever the bits
were at power-on, and whatever else runs and is written as long as nobody else writes the bits that
let the train run, mark its moves and say where it is routed: there is one move under way or none,
as the register has it, the train may run just while it is to run, and it is routed to the target
of its move. Once it stays for good nothing changes this any more, and the turns of the schedule
change nothing at all. -/
theorem schedule_bits_follow_register {schedule : Schedule} (stint : schedule.Stint schedule.ledger) :
    ∃ state current, schedule.Agrees stint.machine state current ∧
      (state = Schedule.Stage.stopTrain.state → current = none → ∀ later last,
        (∀ var ∈ schedule.ledger, ∀ value, .write var value ∉ later) →
        stint.machine.play later = .ok last →
        schedule.Agrees last state none ∧ last.evaluate stint.index = .ok (last, false)) := by
  have names := Program.names_nodup stint.compiled
  have sees := stint.kept
  obtain ⟨cell, found, -, state, timed, current, kept⟩ := sees.exists_cell names stint.placed
  rw [Schedule.name_build] at state
  refine ⟨cell.state, current, stint.agrees sees.size state kept, ?_⟩
  rintro stopped rfl later last spared played
  have timer : cell.timer = 0 := by
    by_contra running
    exact absurd (stopped.symm.trans (timed running)) (by decide)
  have stays := stint.parked_play
    ⟨sees.automata, sees.size, cell, found, stopped, timer, kept⟩ spared played
  refine ⟨?_, stint.evaluate_of_parked stays⟩
  obtain ⟨after, -, -, stateLast, parked⟩ := stays.exists_cell names stint.placed
  have still : after.state = cell.state := parked.state.trans stopped.symm
  rw [Schedule.name_build] at stateLast
  exact still ▸ stint.agrees stays.size stateLast parked.kept

section Shuttle

/-- Two blocks, and a train that is to go from the one to the other and to stay there. -/
def shuttleOrders : List Order :=
  [.block "a", .block "b", .schedule "t", .move 0 0 1 [] none [], .stop 1 1]

/-- The blocks as the train sees them. -/
def shuttleSource : Berth := ⟨"a", ⟨199⟩, ⟨200⟩, ⟨0⟩, ⟨65⟩, ⟨86⟩⟩

@[inherit_doc shuttleSource]
def shuttleTarget : Berth := ⟨"b", ⟨201⟩, ⟨202⟩, ⟨99⟩, ⟨164⟩, ⟨185⟩⟩

def shuttleMove : Move where
  source := shuttleSource
  target := shuttleTarget
  active := ⟨203⟩

/-- What the orders declare in the end. -/
def shuttle : Schedule where
  name := "t"
  go := ⟨198⟩
  berths := [shuttleSource, shuttleTarget]
  moves := [shuttleMove]
  stops := [shuttleTarget]

/-- At power-on all marks are at 1 but the one that says the train is in the second block. From the
first one the way out is reserved. -/
def shuttleBefore : List Event :=
  .write shuttleSource.routeOut true :: .write shuttleSource.here true ::
    shuttle.ledger.map (.write · true)

def shuttleStint? (events : List Event) : Option (shuttle.Stint shuttle.ledger) :=
  shuttle.stint? shuttle.ledger { detector := { debounceCycles := 0 } } shuttleOrders
    [.train shuttle] 6 {} shuttleBefore events

/-- In the third turn the train leaves. -/
def shuttleLeaves : List Event := [.turn 6, .turn 6]

/-- The train arrives after it has left, and two turns later it stays. -/
def shuttleArrives : List Event :=
  shuttleLeaves ++ [Event.turn 6, .write shuttleTarget.detector true,
    .write shuttleSource.routeOut false, .turn 6]

theorem shuttle_shows :
    (∃ stint ∈ shuttleStint? shuttleLeaves,
      stint.machine.state? "t" = some Schedule.Stage.moving.state) ∧
    ∃ stint ∈ shuttleStint? shuttleArrives,
      stint.machine.state? "t" = some Schedule.Stage.stopTrain.state ∧
      stint.machine.get shuttleMove.active = .ok false := by
  decide +kernel

end Shuttle

theorem schedule_bits_follow_register_on_shuttle :
    (∃ stint ∈ shuttleStint? shuttleLeaves,
      shuttle.Agrees stint.machine Schedule.Stage.moving.state (some shuttleMove)) ∧
    ∃ stint ∈ shuttleStint? shuttleArrives,
      shuttle.Agrees stint.machine Schedule.Stage.stopTrain.state none ∧
      ∀ later last, (∀ var ∈ shuttle.ledger, ∀ value, .write var value ∉ later) →
        stint.machine.play later = .ok last →
        shuttle.Agrees last Schedule.Stage.stopTrain.state none ∧
          last.evaluate stint.index = .ok (last, false) := by
  obtain ⟨⟨leaving, leaves, moves⟩, staying, arrives, stops, inactive⟩ := shuttle_shows
  constructor
  · obtain ⟨state, current, agrees, -⟩ := schedule_bits_follow_register leaving
    obtain rfl := Option.some.inj (moves.symm.trans agrees.register)
    obtain ⟨move, known⟩ := Option.ne_none_iff_exists'.mp (agrees.busy (by decide))
    obtain rfl : move = shuttleMove := List.mem_singleton.mp (agrees.listed move known)
    exact ⟨leaving, leaves, known ▸ agrees⟩
  · obtain ⟨state, current, agrees, absorbs⟩ := schedule_bits_follow_register staying
    obtain rfl := Option.some.inj (stops.symm.trans agrees.register)
    have resting : current = none := by
      refine Option.eq_none_iff_forall_not_mem.mpr fun move known => ?_
      obtain rfl : move = shuttleMove := List.mem_singleton.mp (agrees.listed move known)
      have active := agrees.active shuttleMove (List.mem_singleton.mpr rfl)
      rw [inactive, Option.mem_def.mp known] at active
      simp at active
    exact ⟨staying, arrives, resting ▸ agrees, absorbs rfl resting⟩

end Interlocking
