import Interlocking.Proofs.Distinctness
import Interlocking.Proofs.Formation
import Interlocking.Proofs.StoredRules

/-!
# Stored blocks and schedules

A segment stores a block, and a timetable stores a schedule. A segment does not hold the bits of the
routes in and out, and a timetable refers to blocks by their names. What is left out can be looked
up again: the routes in the elements of the segment, and a block in the only location of its name.
So a timetable is planned as the schedule is, and it becomes the same automaton.
-/

namespace Interlocking

/-! ## Blocks -/

/-- The segment that stores a block. -/
def Block.segment (block : Block) : Segment where
  name := block.name
  approach := block.approach
  body := block.body
  signalPiece := block.signalPiece
  detector := block.detector
  requestGreen := block.requestGreen
  signal := block.signal

namespace Layout

variable {layout after : Layout}

theorem straight_congr (same : after.pieces = layout.pieces) (id : PieceId) :
    after.straight id = layout.straight id := by
  simp [straight, piece, piece?, same]

theorem ask_bind {α β : Type} {question : Layout → Except Failure α} {answer : α}
    (told : question layout = .ok answer) (next : α → Build β) :
    (ask question >>= next) layout = next answer layout := by
  simp [bind, EStateM.bind, ask, told]

/-- Runs that were joined start and end with straight pieces, and no piece has changed. -/
theorem joinRuns_outcome (first : Run) (runs : List Run) :
    Outcome (joinRuns (first :: runs) layout)
      (fun _ after => after.pieces = layout.pieces ∧
        (runs ≠ [] → ∃ straight, layout.straight first.last = .ok straight) ∧
        ∀ run ∈ runs, ∃ straight, layout.straight run.first = .ok straight)
      (fun _ => True) := by
  induction runs generalizing layout first with
  | nil => exact ⟨rfl, by simp, by simp⟩
  | cons second runs ih =>
      apply ((ask_outcome first.exit).mono (fun _ _ told => told) fun _ _ => trivial).bind
      rintro exit _ ⟨rfl, told⟩
      apply ((ask_outcome second.entry).mono (fun _ _ told => told) fun _ _ => trivial).bind
      rintro entry _ ⟨rfl, toldEntry⟩
      apply ((join_outcome exit entry).mono (fun _ _ told => told) fun _ _ => trivial).bind
      rintro _ _ ⟨rfl, _⟩
      apply (ih second).mono
      · rintro _ last ⟨same, _, others⟩
        obtain ⟨straight, found, _⟩ := bind_eq_ok.mp told
        obtain ⟨next, foundNext, _⟩ := bind_eq_ok.mp toldEntry
        exact ⟨same, fun _ => ⟨straight, found⟩,
          List.forall_mem_cons.mpr ⟨⟨next, foundNext⟩, others⟩⟩
      · exact fun _ _ => trivial

theorem stores_finish (name : String) (approach body : PieceId) (detector : Var) :
    layout.Stores Block.segment (Segment.finish name approach body detector)
      (Block.finish name approach body detector) := by
  apply (stores_external _).bind
  intro requestGreen second _
  apply (stores_external _).bind
  intro signal third _
  apply (stores_addSignal requestGreen signal).bind
  intro signalPiece fourth _
  apply (stores_joinRuns _).bind
  intro _ last joined
  obtain ⟨same, starts, others⟩ := (joinRuns_outcome _ _).of_ok joined
  obtain ⟨entrance, found⟩ := starts (by simp)
  obtain ⟨exit, foundExit⟩ := others (.ofPiece signalPiece) (by simp)
  rw [← straight_congr same] at found foundExit
  unfold Corresponds
  rw [ask_bind found, ask_bind foundExit]
  rfl

theorem stores_make (name : String) :
    layout.Stores Block.segment (Segment.make name) (Block.make name) := by
  apply (stores_external _).bind
  intro detector second _
  apply stores_addLong.bind
  intro approach third _
  apply (stores_addDetector detector).bind
  intro body fourth _
  exact stores_finish name approach body detector

theorem stores_makeFiltered (name : String) :
    layout.Stores Block.segment (Segment.makeFiltered name) (Block.makeFiltered name) := by
  apply (stores_external _).bind
  intro raw second _
  apply stores_addLong.bind
  intro approach third _
  apply Corresponds.get.bind
  rintro _ _ ⟨⟩
  apply (stores_addFiltered raw third.debounceCycles).bind
  intro body fourth _
  apply (stores_ask (element_arena body)).bind
  intro piece last _
  exact stores_finish name approach body piece.occupancy

theorem HasFirstRoute.arena {id : PieceId} {route : Var} (first : layout.HasFirstRoute id route) :
    Segment.firstRoute layout.arena id = .ok route := by
  obtain ⟨straight, found, rfl⟩ := first
  obtain ⟨piece, known, body⟩ := straight_eq_ok found
  have stored : layout.arena.element id = .ok piece.element := by
    simp [element_arena, Layout.piece, known, Except.map]
  have passage : piece.element.passage 0 = .ok straight.ab := by
    simp [Element.passage, Piece.element, Piece.passages, body]
  simp only [Segment.firstRoute, stored, passage, bind, Except.bind]
  rfl

end Layout

/-- The routes in and out of a block are found again in its elements. -/
theorem Block.Placed.routes_segment {layout : Layout} {block : Block}
    (placed : block.Placed layout) :
    block.segment.routeIn layout.arena = .ok block.routeIn ∧
      block.segment.routeOut layout.arena = .ok block.routeOut :=
  ⟨placed.entrance.arena, placed.exit.arena⟩

theorem Block.Placed.congr {layout after : Layout} {block : Block} (placed : block.Placed layout)
    (same : after.pieces = layout.pieces) : block.Placed after :=
  placed.grows fun found => by rwa [Layout.piece?, same]

/-! ## Schedules -/

/-- What is stored of a berth under the name of its block. -/
def Berth.location (berth : Berth) (sensitive : Bool) : Location where
  here := berth.here
  coming := berth.coming
  sensitive
  detector := berth.detector
  requestGreen := berth.requestGreen
  routeOut := berth.routeOut

/-- The leg that stores a move. -/
def Move.leg (move : Move) : Leg where
  source := move.source.block
  target := move.target.block
  active := move.active
  guards := move.guards
  client := move.client
  turnouts := move.turnouts

namespace Schedule

/-- What is stored of a berth that a schedule knows. -/
def entry (schedule : Schedule) (berth : Berth) : String × Location :=
  (berth.block, berth.location (schedule.isSensitive berth))

/-- The timetable that stores a schedule. -/
def timetable (schedule : Schedule) : Timetable where
  name := schedule.name
  go := schedule.go
  locations := schedule.berths.map schedule.entry
  legs := schedule.moves.map Move.leg
  stops := schedule.stops.map Berth.block

/-- What stores a schedule and the layout on which it runs. -/
def chart (state : Schedule × Layout) : Timetable × Arena := (state.1.timetable, state.2.arena)

/-- A schedule is planned as the timetable that stores it. -/
abbrev Charts {α β : Type} (schedule : Schedule) (layout : Layout) (convert : α → β)
    (stored : Charting β) (planned : Planning α) : Prop :=
  Corresponds chart convert stored planned (schedule, layout)

variable {schedule : Schedule} {layout : Layout} {block : Block}

theorem charts_onLayout {α β : Type} {convert : α → β} {stored : Assembly β} {built : Build α}
    (stores : layout.Stores convert stored built) :
    schedule.Charts layout convert (Timetable.onArena stored) (onLayout built) := by
  unfold Layout.Stores Corresponds at stores
  unfold Charts Corresponds Timetable.onArena onLayout
  simp only [chart, stores]
  cases built layout <;> rfl

theorem charts_adjust {stored : Timetable → Timetable} {change : Schedule → Schedule}
    (same : stored schedule.timetable = (change schedule).timetable) :
    schedule.Charts layout id (Timetable.adjust stored) (adjust change) :=
  congrArg (fun timetable => EStateM.Result.ok () (timetable, layout.arena)) same

theorem location?_timetable (name : String) : schedule.timetable.location? name =
    (schedule.berth? name).map fun berth => (schedule.entry berth).2 := by
  rw [Timetable.location?, timetable, List.find?_map, Option.map_map]
  rfl

theorem entry_insertBerth (berth : Berth) (berths : List Berth) :
    (insertBerth berth berths).map schedule.entry =
      Timetable.insertLocation berth.block (schedule.entry berth).2
        (berths.map schedule.entry) := by
  induction berths with
  | nil => rfl
  | cons first rest ih =>
      simp only [insertBerth, List.map_cons, Timetable.insertLocation]
      have name : (schedule.entry first).1 = first.block := rfl
      rw [name]
      split
      · rw [List.map_cons, ih]
      · rfl

/-- A block that the schedule did not know is not sensitive. -/
theorem Indexed.timetable_withBerth (indexed : schedule.Indexed) {berth : Berth}
    (new : schedule.berth? berth.block = none) :
    ({ schedule with berths := insertBerth berth schedule.berths }).timetable =
      { schedule.timetable with
        locations := Timetable.insertLocation berth.block (berth.location false)
          schedule.timetable.locations } := by
  have still : schedule.isSensitive berth = false := by
    rw [isSensitive, ← Bool.not_eq_true, List.contains_iff_mem]
    intro member
    obtain ⟨other, listed, same⟩ := List.mem_map.mp (indexed.sensitive member)
    exact List.find?_eq_none.mp new other listed (decide_eq_true same)
  have entered : schedule.entry berth = (berth.block, berth.location false) := by
    rw [entry, still]
  have locations := schedule.entry_insertBerth berth schedule.berths
  rw [entered] at locations
  exact congrArg (fun locations => { schedule.timetable with locations }) locations

theorem onArena_ask_bind {α β : Type} {question : Arena → Except Failure α} {answer : α}
    {timetable : Timetable} {arena : Arena} (told : question arena = .ok answer)
    (next : α → Charting β) :
    (Timetable.onArena (Arena.ask question) >>= next) (timetable, arena) =
      next answer (timetable, arena) := by
  simp [bind, EStateM.bind, Timetable.onArena, Arena.ask, told]

theorem external_pieces (name : String) :
    Outcome (onLayout (Layout.external name) (schedule, layout))
      (fun _ state => state.1 = schedule ∧ state.2.pieces = layout.pieces) (fun _ => True) := by
  have kept : Outcome (Layout.external name layout)
      (fun _ after => after.pieces = layout.pieces) (fun _ => True) := by
    unfold Layout.external Layout.onTable
    cases Table.allocate name layout.table with
    | ok var table => exact rfl
    | error failure table => trivial
  exact (onLayout_outcome kept).mono (fun _ _ made => made) fun _ _ => trivial

/-- A block that was entered is known under its name, and no piece has changed. -/
theorem enter_indexed (indexed : schedule.Indexed) (block : Block) :
    Outcome (enter block (schedule, layout))
      (fun berth state => state.1.Indexed ∧ berth.block = block.name ∧
        state.2.pieces = layout.pieces)
      (fun _ => True) := by
  cases known : schedule.berth? block.name with
  | some berth =>
      rw [enter_of_known known]
      exact ⟨indexed, by simpa using List.find?_some known, rfl⟩
  | none =>
      rw [enter_of_new known]
      apply (external_pieces _).bind
      rintro here ⟨_, second⟩ ⟨rfl, sameSecond⟩
      apply (external_pieces _).bind
      rintro coming ⟨_, third⟩ ⟨rfl, sameThird⟩
      exact ⟨indexed.withBerth known, rfl, sameThird.trans sameSecond⟩

/-- A block becomes known to a schedule as its segment to the timetable. -/
theorem charts_enter (indexed : schedule.Indexed) (placed : block.Placed layout) :
    schedule.Charts layout (fun _ => ()) (Timetable.enter block.segment) (enter block) := by
  apply Corresponds.get.bind
  rintro _ _ ⟨⟩
  have named : block.segment.name = block.name := rfl
  simp only [chart, named, location?_timetable]
  cases known : schedule.berth? block.name with
  | some berth => exact .pure berth
  | none =>
      apply (charts_onLayout (Layout.stores_external _)).bind
      rintro here ⟨same, second⟩ named
      obtain ⟨(rfl : same = schedule), sameSecond⟩ := (external_pieces _).of_ok named
      apply (charts_onLayout (Layout.stores_external _)).bind
      rintro coming ⟨still, third⟩ named
      obtain ⟨(rfl : still = same), sameThird⟩ := (external_pieces _).of_ok named
      have told := (placed.congr (sameThird.trans sameSecond)).routes_segment.2
      generalize made : Berth.mk block.name here coming _ _ _ = berth
      have new : still.berth? berth.block = none := by rwa [← made]
      unfold Corresponds chart
      rw [onArena_ask_bind told]
      subst made
      exact congrArg (fun timetable => EStateM.Result.ok () (timetable, third.arena))
        (indexed.timetable_withBerth new).symm

variable {source target : Block}

theorem charts_addMove (indexed : schedule.Indexed) (sourcePlaced : source.Placed layout)
    (targetPlaced : target.Placed layout) (guards : List (Var × Bool)) (client : Option Client)
    (turnouts : List (Motor × Position)) :
    schedule.Charts layout id
      (Timetable.addLeg source.segment target.segment guards client turnouts)
      (addMove source target guards client turnouts) := by
  apply (charts_enter indexed sourcePlaced).bind
  rintro sourceBerth ⟨planned, second⟩ entered
  obtain ⟨indexed, sourceNamed, same⟩ := (enter_indexed indexed source).of_ok entered
  apply (charts_enter indexed (targetPlaced.congr same)).bind
  rintro targetBerth ⟨planned, third⟩ entered
  obtain ⟨indexed, targetNamed, _⟩ := (enter_indexed indexed target).of_ok entered
  apply Corresponds.get.bind
  rintro _ _ ⟨⟩
  have count : planned.timetable.legs.length = planned.moves.length := List.length_map ..
  change Corresponds chart _ (Timetable.onArena (Arena.external
    (qualify planned.name ("active_" ++ toString planned.timetable.legs.length))) >>= _) _ _
  rw [count]
  apply (charts_onLayout (Layout.stores_external _)).bind
  rintro active ⟨same, last⟩ named
  obtain ⟨(rfl : same = planned), _⟩ := (external_pieces _).of_ok named
  refine Corresponds.bind (charts_adjust ?_) fun _ _ _ => .pure active
  simp [timetable, entry, isSensitive, sourceNamed, targetNamed, Block.segment, Move.leg]

theorem charts_stopAt (indexed : schedule.Indexed) (placed : block.Placed layout) :
    schedule.Charts layout id (Timetable.stopAt block.segment) (stopAt block) := by
  apply (charts_enter indexed placed).bind
  rintro berth ⟨planned, after⟩ entered
  obtain ⟨_, named, _⟩ := (enter_indexed indexed block).of_ok entered
  apply charts_adjust
  simp [timetable, entry, isSensitive, named, Block.segment]

theorem charts_setSensitive (indexed : schedule.Indexed) (placed : block.Placed layout)
    (sensitive : Bool) :
    schedule.Charts layout id (Timetable.setSensitive block.segment sensitive)
      (setSensitive block sensitive) := by
  apply (charts_enter indexed placed).bind
  rintro berth ⟨planned, after⟩ _
  apply charts_adjust
  simp only [timetable, List.map_map, Timetable.mk.injEq, true_and, and_true]
  apply List.map_congr_left
  intro berth _
  by_cases named : berth.block = block.name
  · cases sensitive <;> simp [entry, isSensitive, named, Block.segment, Berth.location]
  · cases sensitive <;> simp [entry, isSensitive, named, Block.segment, Berth.location]

/-! ## The automaton of a timetable -/

namespace Indexed

variable (indexed : schedule.Indexed)

include indexed

theorem berth?_eq {berth : Berth} (listed : berth ∈ schedule.berths) :
    schedule.berth? berth.block = some berth := by
  cases found : schedule.berth? berth.block with
  | none =>
      have differs := List.find?_eq_none.mp found berth listed
      simp at differs
  | some other =>
      have same : other.block = berth.block := by simpa using List.find?_some found
      have known := List.mem_of_find?_eq_some found
      rw [List.inj_on_of_nodup_map indexed.names known listed same]

theorem berth_timetable {berth : Berth} (listed : berth ∈ schedule.berths) :
    schedule.timetable.berth berth.block = .ok berth := by
  simp only [Timetable.berth, location?_timetable, indexed.berth?_eq listed, Option.map_some]
  rfl

theorem stops_timetable :
    schedule.timetable.stops.mapM schedule.timetable.berth = .ok schedule.stops := by
  have each : schedule.stops.mapM (schedule.timetable.berth ∘ Berth.block) =
      .ok (schedule.stops.map id) :=
    mapM_eq_ok fun stop listed => indexed.berth_timetable (indexed.stops stop listed)
  rwa [← List.mapM_map, List.map_id] at each

theorem legs_timetable :
    schedule.timetable.legs.mapM schedule.timetable.move = .ok schedule.moves := by
  have each : schedule.moves.mapM (schedule.timetable.move ∘ Move.leg) =
      .ok (schedule.moves.map id) := by
    apply mapM_eq_ok
    intro move listed
    obtain ⟨source, target⟩ := indexed.ends move listed
    change schedule.timetable.berth move.source.block >>= _ = _
    rw [indexed.berth_timetable source]
    change schedule.timetable.berth move.target.block >>= _ = _
    rw [indexed.berth_timetable target]
    rfl
  rwa [← List.mapM_map, List.map_id] at each

/-- With all blocks looked up, a timetable is the schedule again, which may list its sensitive
blocks in another order. -/
theorem schedule_timetable : ∃ sensitive, schedule.timetable.schedule =
      .ok { schedule with sensitive } ∧
    ∀ berth ∈ schedule.berths,
      ({ schedule with sensitive }).isSensitive berth = schedule.isSensitive berth := by
  refine ⟨((schedule.berths.map schedule.entry).filter (·.2.sensitive)).map (·.1), ?_, ?_⟩
  · have berths : schedule.timetable.locations.map (fun entry => entry.2.berth entry.1) =
        schedule.berths := by
      rw [timetable, List.map_map]
      exact List.map_id _
    simp only [Timetable.schedule, indexed.stops_timetable, indexed.legs_timetable, berths, bind,
      Except.bind]
    rfl
  · intro berth listed
    apply Bool.eq_iff_iff.mpr
    simp only [isSensitive, entry, List.contains_iff_mem, List.mem_map, List.mem_filter]
    constructor
    · rintro ⟨_, ⟨⟨other, _, rfl⟩, sensitive⟩, same⟩
      exact same ▸ List.contains_iff_mem.mp sensitive
    · intro sensitive
      exact ⟨_, ⟨⟨berth, listed, rfl⟩, List.contains_iff_mem.mpr sensitive⟩, rfl⟩

/-- The automaton of a schedule is that of the timetable which stores it. -/
theorem build_timetable : schedule.timetable.build layout.arena = .ok (schedule.build layout) := by
  obtain ⟨sensitive, resolved, same⟩ := indexed.schedule_timetable
  have forgets : ({ schedule with sensitive }).forgetRules = schedule.forgetRules :=
    congrArg (List.map _) (List.filter_congr same)
  have restarts (window : UInt8) : ({ schedule with sensitive }).restartRules window =
      schedule.restartRules window := by
    unfold restartRules
    rw [forgets]
  simp only [Timetable.build, resolved, Layout.maxDebounceCycles_arena, automaton, restarts, bind,
    Except.bind]
  rfl

end Indexed

end Schedule

end Interlocking
