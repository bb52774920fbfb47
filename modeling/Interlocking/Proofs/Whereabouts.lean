import Interlocking.Proofs.Bookkeeping

/-!
# Where a train is

A schedule keeps one bit for each block it knows that says whether its train is there. When the train
is released the bit of the target is raised and then the one of the source is cleared, so the bits
tell of one block at any time. On a move that ends where it begins both writes concern one bit, and
the train is in no block any more.
-/

namespace Interlocking

open Function (update)

/-- Where the bits say the train is after it was released. -/
def Move.destination (move : Move) : Option Berth :=
  if move.source = move.target then none else some move.target

theorem Move.destination_eq_some_iff {move : Move} {berth : Berth} :
    move.destination = some berth ↔ berth = move.target ∧ berth ≠ move.source := by
  unfold destination
  split
  · rename_i round
    simp [round]
  · rename_i apart
    constructor
    · rintro ⟨⟩
      exact ⟨rfl, Ne.symm apart⟩
    · rintro ⟨rfl, -⟩
      rfl

theorem Move.destination_eq_none_iff {move : Move} :
    move.destination = none ↔ move.source = move.target := by
  simp [destination]

namespace Schedule

variable {schedule : Schedule} {yard : Yard} {view next : View} {place after : Option Berth}
  {current : Option Move}

/-- A move was picked, and the train has not left yet. -/
def Preparing (state : State) : Prop :=
  state ∈ [Stage.ready, .permission, .recheck, .turnouts, .requestGreen, .greenWait,
    .startTrain].map Stage.state

instance : DecidablePred Preparing := fun _ => inferInstanceAs (Decidable (_ ∈ _))

/-- The bits say of this block that the train is there, and of no other. While a move is being
prepared it is the source of the move. -/
structure Stands (schedule : Schedule) (place : Option Berth) (view : View) : Prop where
  known : ∀ berth ∈ place, berth ∈ schedule.berths
  here : ∀ berth ∈ schedule.berths, view.bits berth.here = decide (place = some berth)
  leaves : Preparing view.state → ∀ move ∈ schedule.moves, view.bits move.active = true →
    place = some move.source

/-- A move that ends where it begins. -/
def Rounds (schedule : Schedule) : Prop := ∃ move ∈ schedule.moves, move.source = move.target

theorem preparing_of_onward : ∀ step ∈ onward, Preparing step.2.state → Preparing step.1.state := by
  decide

/-- The train is where it was. -/
theorem Stands.stays (stands : schedule.Stands place view)
    (same : ∀ berth ∈ schedule.berths, next.bits berth.here = view.bits berth.here)
    (elsewhere : ¬Preparing next.state) : schedule.Stands place next :=
  ⟨stands.known, fun berth known => (same berth known).trans (stands.here berth known),
    fun preparing => absurd preparing elsewhere⟩

/-- The bits when the train has been released. -/
theorem Stands.here_of_depart {move : Move} (stands : schedule.Stands (some move.source) view)
    (reads : schedule.Reads next (update (update (update (schedule.notes view) .go true)
      (.here move.target) true) (.here move.source) false))
    {berth : Berth} (known : berth ∈ schedule.berths) :
    next.bits berth.here = decide (move.destination = some berth) := by
  have value := reads _ (here_mem_entries.mpr known)
  have before := stands.here berth known
  simp only [Move.destination_eq_some_iff]
  by_cases atSource : berth = move.source
  · simpa [atSource, bit] using value
  · by_cases atTarget : berth = move.target
    · simpa [Function.update_apply, bit, atSource, ← atTarget] using value
    · simpa [atSource, Ne.symm atSource, atTarget, bit, notes, before] using value

/-- Whatever the schedule does, its train is in one block after it, unless it leaves on a round. -/
theorem Stroke.stands (stroke : schedule.Stroke view next) (listed : schedule.Listed yard)
    (insensitive : ∀ berth ∈ schedule.berths, schedule.isSensitive berth = false)
    (onMove : schedule.OnMove current view) (stands : schedule.Stands place view) :
    ∃ after, schedule.Stands after next ∧ (after = none → place = none ∨ schedule.Rounds) := by
  cases stroke with
  | proceed first second step member active before after reads =>
      refine ⟨place, ⟨stands.known, fun berth known => ?_, fun preparing move known moving => ?_⟩,
        .inl⟩
      · exact (reads _ (here_mem_entries.mpr known)).trans (stands.here berth known)
      · rw [after] at preparing
        have before' := (reads _ (active_mem_entries.mpr known)).symm.trans moving
        refine stands.leaves ?_ move known before'
        rw [before]
        exact preparing_of_onward _ step preparing
  | stay _ after reads | wait _ after reads | arrive _ _ _ after reads | recover _ _ after reads
  | restart _ after reads =>
      refine ⟨place, stands.stays (fun _ known => reads _ (here_mem_entries.mpr known)) ?_, .inl⟩
      rw [after]
      decide
  | drop _ _ ends reads =>
      refine ⟨place, stands.stays (fun _ known => reads _ (here_mem_entries.mpr known)) ?_, .inl⟩
      rcases ends with ⟨-, after⟩ | ⟨-, after⟩ <;> rw [after] <;> decide
  | @pick picked member here before _ reads =>
      have source := (listed.ends picked member).1
      refine ⟨place, ⟨stands.known, fun berth known => ?_, fun _ move known moving => ?_⟩, .inl⟩
      · exact (reads _ (here_mem_entries.mpr known)).trans (stands.here berth known)
      · obtain rfl : move = picked := by
          have inactive : view.bits move.active = false := by
            rw [onMove.active move known, onMove.idle (by simp [Idle, before])]
            rfl
          have value := moving.symm.trans (reads _ (active_mem_entries.mpr known))
          by_contra other
          simp [other, notes, bit, inactive] at value
        simpa [here] using stands.here _ source
  | @depart left member active before after reads =>
      -- The train has stood in the source ever since the move was picked.
      have source : place = some left.source :=
        stands.leaves (by rw [before]; decide) left member active
      have moving : ¬Preparing next.state := by
        rw [after]
        decide
      subst source
      refine ⟨left.destination, ⟨fun berth reached => ?_,
        fun _ known => stands.here_of_depart reads known, fun preparing => absurd preparing moving⟩,
        fun lost => .inr ⟨left, member, Move.destination_eq_none_iff.mp lost⟩⟩
      obtain ⟨rfl, -⟩ := Move.destination_eq_some_iff.mp reached
      exact (listed.ends left member).2
  | forget known sensitive =>
      rw [insensitive _ known] at sensitive
      cases sensitive

/-- The bits that say where the train is and which move is under way. -/
def traces (schedule : Schedule) : List Var :=
  schedule.berths.map Berth.here ++ schedule.moves.map Move.active

/-- A view before the first turn or after a turn, with the train in one block. -/
def Located (schedule : Schedule) (view : View) : Prop :=
  (view.state = .initial ∨ ∃ current, schedule.OnMove current view) ∧
    ∃ place, schedule.Stands place view ∧ (place = none → schedule.Rounds)

theorem Located.congr (located : schedule.Located view) (state : next.state = view.state)
    (bits : ∀ var ∈ schedule.traces, next.bits var = view.bits var) : schedule.Located next := by
  obtain ⟨onMove, place, stands, lost⟩ := located
  obtain ⟨here, active⟩ := List.forall_mem_append.mp bits
  simp only [List.forall_mem_map] at here active
  refine ⟨?_, place, ⟨stands.known, ?_, ?_⟩, lost⟩
  · exact onMove.imp state.trans fun ⟨current, onMove⟩ => ⟨current, onMove.congr state active⟩
  · intro berth known
    exact (here berth known).trans (stands.here berth known)
  · intro preparing move member moving
    rw [state] at preparing
    exact stands.leaves preparing move member ((active move member).symm.trans moving)

section Turn

variable (listed : schedule.Listed yard)
  (insensitive : ∀ berth ∈ schedule.berths, schedule.isSensitive berth = false)

include listed insensitive

theorem Located.stroke (located : schedule.Located view) (stroke : schedule.Stroke view next) :
    schedule.Located next := by
  obtain ⟨onMove, place, stands, lost⟩ := located
  rcases onMove with initial | ⟨current, onMove⟩
  · obtain ⟨after, reads⟩ := stroke.of_initial initial
    refine ⟨.inr ⟨none, .none (fun _ member => reads _ (active_mem_entries.mpr member))
      stroke.started (.inl (by simp [Idle, after]))⟩, place, ?_, lost⟩
    refine stands.stays (fun _ known => reads _ (here_mem_entries.mpr known)) ?_
    rw [after]
    decide
  · obtain ⟨after, standsAfter, still⟩ := stroke.stands listed insensitive onMove stands
    exact ⟨.inr (stroke.onMove onMove), after, standsAfter, fun gone => (still gone).elim lost id⟩

theorem Located.turn (spares : schedule.SparesOwn) (layout : Layout)
    (located : schedule.Located view) :
    schedule.Located (view.tick.pass (schedule.build layout).rules) := by
  have ticked : schedule.Located view.tick :=
    located.congr view.state_tick fun _ _ => by rw [View.bits_tick]
  exact turn_induct listed spares layout
    (fun located stroke _ => located.stroke listed insensitive stroke) ticked

end Turn

end Schedule

section Ring

/-- A ring of one block. The train is to go round it. -/
def ringOrders : List Order := [.block "s", .join ⟨5⟩ ⟨0⟩, .schedule "t", .move 0 0 0 [] none []]

/-- The block as the train sees it. -/
def ringBerth : Berth := ⟨"s", ⟨100⟩, ⟨101⟩, ⟨0⟩, ⟨65⟩, ⟨86⟩⟩

/-- Once round the ring. -/
def ringMove : Move where
  source := ringBerth
  target := ringBerth
  active := ⟨102⟩

/-- What the orders declare in the end. -/
def ringTrain : Schedule where
  name := "t"
  go := ⟨99⟩
  berths := [ringBerth]
  moves := [ringMove]

/-- The four automata take their turns in seven cycles. In the last turn the train leaves. -/
def ringStint? : Option (ringTrain.Stint ringTrain.traces) :=
  ringTrain.stint? ringTrain.traces { detector := { debounceCycles := 0 } } ringOrders
    [.train ringTrain] 3 {} [.write ringBerth.here true]
    ((List.replicate 6 ((List.range 4).map .turn)).flatten ++ (List.range 3).map .turn)

theorem ringStint_shows : ∃ stint ∈ ringStint?, stint.start.get ringBerth.here = .ok true ∧
    stint.machine.get ringBerth.here = .ok false := by
  decide +kernel

end Ring

/-- On a move that ends where it begins a train gets lost. -/
theorem round_moves_lose_trains :
    ¬∀ (schedule : Schedule) (stint : schedule.Stint schedule.traces),
      (∀ berth ∈ schedule.berths, schedule.isSensitive berth = false) →
      (∃ place ∈ schedule.berths, ∀ berth ∈ schedule.berths,
        stint.start.get berth.here = .ok (decide (berth = place))) →
      ∃ place ∈ schedule.berths, ∀ berth ∈ schedule.berths,
        stint.machine.get berth.here = .ok (decide (berth = place)) := by
  intro stays
  obtain ⟨stint, -, starts, ends⟩ := ringStint_shows
  have only : ∀ berth ∈ ringTrain.berths, berth = ringBerth := by
    simp [ringTrain]
  obtain ⟨place, known, shows⟩ := stays ringTrain stint (fun _ _ => rfl)
    ⟨ringBerth, List.mem_cons_self, fun berth member => by simpa [only berth member] using starts⟩
  have here := shows ringBerth List.mem_cons_self
  simp [ends, only place known] at here

/-- A train is never in two blocks, and it is always in one if its schedule has no move that ends
where it begins. Take any run in which exactly one of the bits that say where the train is is 1
before the first turn of the schedule, and these bits and those of its moves are left to the
schedule from then on. Nothing else is assumed of detectors, routes and permissions. -/
theorem train_is_in_one_block {schedule : Schedule} (stint : schedule.Stint schedule.traces)
    (insensitive : ∀ berth ∈ schedule.berths, schedule.isSensitive berth = false) {place : Berth}
    (known : place ∈ schedule.berths)
    (begins : ∀ berth ∈ schedule.berths,
      stint.start.get berth.here = .ok (decide (berth = place))) :
    ∃ now : Option Berth, (∀ berth ∈ now, berth ∈ schedule.berths) ∧
      (∀ berth ∈ schedule.berths,
        stint.machine.get berth.here = .ok (decide (now = some berth))) ∧
      ((∀ move ∈ schedule.moves, move.source ≠ move.target) → now ≠ none) := by
  have sees : stint.program.Sees stint.index schedule.Located stint.machine := by
    refine stint.sees (fun _ _ state _ bits located => located.congr state bits) ?_
      (Schedule.Located.turn stint.listed insensitive stint.spares _) id
    intro view initial _ bits
    refine ⟨.inl initial, some place, ⟨by simpa using known, fun berth member => ?_, ?_⟩, nofun⟩
    · rw [bits, (Memory.read_eq_ok.mp (begins berth member)).2]
      simp [eq_comm]
    · rw [initial]
      exact fun preparing => absurd preparing (by decide)
  obtain ⟨cell, -, -, now, stands, lost⟩ := sees.sees
  refine ⟨now, stands.known, fun berth member => ?_, fun straight gone => ?_⟩
  · exact stint.get_eq_ok sees.size (Schedule.bit_mem_own (Schedule.here_mem_entries.mpr member))
      (stands.here berth member)
  · obtain ⟨move, listed, round⟩ := lost gone
    exact straight move listed round

section Shuttle

/-- The train starts in the first block, and in the third turn it leaves. -/
def shuttleTour? : Option (shuttle.Stint shuttle.traces) :=
  shuttle.stint? shuttle.traces { detector := { debounceCycles := 0 } } shuttleOrders
    [.train shuttle] 6 {} [.write shuttleSource.routeOut true, .write shuttleSource.here true]
    [.turn 6, .turn 6]

theorem shuttleTour_shows : ∃ stint ∈ shuttleTour?,
    stint.start.get shuttleSource.here = .ok true ∧
    stint.start.get shuttleTarget.here = .ok false ∧
    stint.machine.get shuttleSource.here = .ok false := by
  decide +kernel

end Shuttle

theorem train_is_in_one_block_on_shuttle : ∃ stint ∈ shuttleTour?,
    stint.start.get shuttleSource.here = .ok true ∧
    stint.start.get shuttleTarget.here = .ok false ∧
    stint.machine.get shuttleSource.here = .ok false ∧
    stint.machine.get shuttleTarget.here = .ok true := by
  obtain ⟨stint, started, source, target, left⟩ := shuttleTour_shows
  obtain ⟨now, known, shows, one⟩ := train_is_in_one_block stint (fun _ _ => rfl)
    (List.mem_cons_self : shuttleSource ∈ shuttle.berths) (by
      simpa [shuttle, shuttleSource, shuttleTarget] using ⟨source, target⟩)
  obtain ⟨berth, reached⟩ := Option.ne_none_iff_exists'.mp (one (by decide))
  have atSource := shows shuttleSource List.mem_cons_self
  have atTarget := shows shuttleTarget (by simp [shuttle])
  obtain rfl | rfl : berth = shuttleSource ∨ berth = shuttleTarget := by
    simpa [shuttle] using known berth reached
  · simp [left, reached] at atSource
  · exact ⟨stint, started, source, target, left, by simpa [reached] using atTarget⟩

end Interlocking
