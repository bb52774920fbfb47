import Interlocking.Arena.Program
import Interlocking.Proofs.StoredPlans

/-!
# Depots

A depot is an arena together with the segments, arbiters and timetables declared on it. It comes
about by the same orders as a yard, and an order that fails leaves behind what it did up to its
failure. Whatever orders were given, and whether they failed or not, the depot stores the yard that
the same orders make. So what is compiled from the depot is what is compiled from the yard.
-/

namespace Interlocking

/-- An arena and what was declared on it. A changed arbiter or timetable is listed behind its
earlier states, which stay available. -/
structure Depot where
  arena : Arena
  segments : List Segment := []
  clients : List Client := []
  arbiters : List Arbiter := []
  timetables : List Timetable := []
  deriving DecidableEq, Repr

namespace Depot

/-- A depot on which nothing was built yet. -/
def empty (config : Config) : Depot where
  arena := .empty config

/-- Builds on the arena and declares the result. -/
def build {α : Type} (depot : Depot) (action : Assembly α) (declare : α → Depot → Depot) : Depot :=
  match action depot.arena with
  | .ok result arena => declare result { depot with arena }
  | .error _ arena => { depot with arena }

/-- Works on a timetable. -/
def plan {α : Type} (depot : Depot) (timetable : Timetable) (action : Charting α) : Depot :=
  match action (timetable, depot.arena) with
  | .ok _ (timetable, arena) | .error _ (timetable, arena) =>
      { depot with arena, timetables := depot.timetables ++ [timetable] }

/-- Carries an order out. An order for something that was not declared has no effect. -/
def perform (depot : Depot) : Order → Depot
  | .external name => depot.build (Arena.external name) fun _ depot => depot
  | .scope name count inner =>
      depot.build (Arena.onTable (Table.within name count inner.allocate)) fun _ depot => depot
  | .short name => depot.build (Arena.addShort name) fun _ depot => depot
  | .long name => depot.build (Arena.addLong name) fun _ depot => depot
  | .detector name sensor => depot.build (Arena.addDetector name sensor) fun _ depot => depot
  | .filtered name raw window =>
      depot.build (Arena.addFiltered name raw window) fun _ depot => depot
  | .signal name request aspect =>
      depot.build (Arena.addSignal name request aspect) fun _ depot => depot
  | .endpoint name => depot.build (Arena.addEndpoint name) fun _ depot => depot
  | .fixedTurnout name position =>
      depot.build (Arena.addFixedTurnout name position) fun _ depot => depot
  | .movableTurnout name motor =>
      depot.build (Arena.addMovableTurnout name motor) fun _ depot => depot
  | .join left right => depot.build (Arena.join left right) fun _ depot => depot
  | .joinPairs pairs => depot.build (Arena.joinPairs pairs) fun _ depot => depot
  | .joinRuns runs => depot.build (Arena.joinRuns runs) fun _ depot => depot
  | .block name => depot.build (Segment.make name) declareSegment
  | .filteredBlock name => depot.build (Segment.makeFiltered name) declareSegment
  | .arbiter name => { depot with arbiters := depot.arbiters ++ [{ name }] }
  | .client arbiter name =>
      match depot.arbiters[arbiter]? with
      | none => depot
      | some arbiter => depot.build (Arena.onTable (arbiter.clientBits name)) fun client depot =>
          { depot with
            clients := depot.clients ++ [client]
            arbiters := depot.arbiters ++ [arbiter.addClient client] }
  | .schedule name => depot.build (Timetable.make name) fun timetable depot =>
      { depot with timetables := depot.timetables ++ [timetable] }
  | .move timetable source target guards client turnouts =>
      match depot.timetables[timetable]?, depot.segments[source]?, depot.segments[target]? with
      | some timetable, some source, some target =>
          depot.plan timetable
            (Timetable.addLeg source target guards (client >>= (depot.clients[·]?)) turnouts)
      | _, _, _ => depot
  | .stop timetable segment =>
      match depot.timetables[timetable]?, depot.segments[segment]? with
      | some timetable, some segment => depot.plan timetable (Timetable.stopAt segment)
      | _, _ => depot
  | .sensitive timetable segment value =>
      match depot.timetables[timetable]?, depot.segments[segment]? with
      | some timetable, some segment => depot.plan timetable (Timetable.setSensitive segment value)
      | _, _ => depot
where
  declareSegment (segment : Segment) (depot : Depot) : Depot :=
    { depot with segments := depot.segments ++ [segment] }

/-- Carries orders out one after another. -/
def performAll (depot : Depot) : List Order → Depot
  | [] => depot
  | order :: orders => (depot.perform order).performAll orders

/-- The automata that were declared besides those of the elements. -/
def supplies (depot : Depot) : List Supply :=
  depot.arbiters.map Supply.permission ++ depot.timetables.map Supply.train

end Depot

namespace Yard

/-- The depot that stores a yard. -/
def depot (yard : Yard) : Depot where
  arena := yard.layout.arena
  segments := yard.blocks.map Block.segment
  clients := yard.clients
  arbiters := yard.arbiters
  timetables := yard.schedules.map Schedule.timetable

theorem depot_empty (config : Config) : (empty config).depot = Depot.empty config := by
  simp [depot, empty, Layout.arena, Layout.empty, Depot.empty, Arena.empty]

variable {yard : Yard}

theorem depot_build {α β : Type} {convert : α → β} {stored : Assembly β} {built : Build α}
    (stores : yard.layout.Stores convert stored built) {declare : α → Yard → Yard}
    {enlist : β → Depot → Depot}
    (declared : ∀ result yard, (declare result yard).depot = enlist (convert result) yard.depot) :
    (yard.build built declare).depot = yard.depot.build stored enlist := by
  have same : stored yard.depot.arena =
    mapOutcome Layout.arena convert (built yard.layout) := stores
  rw [Depot.build, build, same]
  cases built yard.layout with
  | ok result after => exact declared result { yard with layout := after }
  | error failure after => rfl

/-- An operation that declares nothing. -/
theorem depot_build_of_stores {α β : Type} {convert : α → β} {stored : Assembly β}
    {built : Build α} (stores : yard.layout.Stores convert stored built) :
    (yard.build built fun _ yard => yard).depot = yard.depot.build stored fun _ depot => depot :=
  depot_build stores fun _ _ => rfl

theorem depot_plan {α β : Type} {convert : α → β} {schedule : Schedule} {stored : Charting β}
    {planned : Schedule.Planning α} (charts : schedule.Charts yard.layout convert stored planned) :
    (yard.plan schedule planned).depot = yard.depot.plan schedule.timetable stored := by
  have same : stored (schedule.timetable, yard.depot.arena) =
      mapOutcome Schedule.chart convert (planned (schedule, yard.layout)) := charts
  rw [Depot.plan, plan, same]
  cases planned (schedule, yard.layout) with
  | ok result state => simp [mapOutcome, Schedule.chart, depot]
  | error failure state => simp [mapOutcome, Schedule.chart, depot]

/-- An order does the same to a yard and to the depot that stores it. -/
theorem depot_perform {given : Var → Prop} (formed : yard.Formed given) (distinct : yard.Distinct)
    (order : Order) : (yard.perform order).depot = yard.depot.perform order := by
  have declared (block : Block) (yard : Yard) : (perform.declareBlock block yard).depot =
      Depot.perform.declareSegment block.segment yard.depot := by
    simp [perform.declareBlock, Depot.perform.declareSegment, depot]
  have timetable? (index : Nat) : yard.depot.timetables[index]? =
      yard.schedules[index]?.map Schedule.timetable := List.getElem?_map
  have segment? (index : Nat) : yard.depot.segments[index]? =
      yard.blocks[index]?.map Block.segment := List.getElem?_map
  cases order with
  | external name => exact depot_build_of_stores (Layout.stores_external name)
  | scope name count inner => exact depot_build_of_stores (Layout.stores_onTable _)
  | short name => exact depot_build_of_stores Layout.stores_addShort
  | long name => exact depot_build_of_stores Layout.stores_addLong
  | detector name sensor => exact depot_build_of_stores (Layout.stores_addDetector sensor)
  | filtered name raw window => exact depot_build_of_stores (Layout.stores_addFiltered raw window)
  | signal name request aspect =>
      exact depot_build_of_stores (Layout.stores_addSignal request aspect)
  | endpoint name => exact depot_build_of_stores Layout.stores_addEndpoint
  | fixedTurnout name position =>
      exact depot_build_of_stores (Layout.stores_addFixedTurnout position)
  | movableTurnout name motor => exact depot_build_of_stores (Layout.stores_addMovableTurnout motor)
  | join left right => exact depot_build_of_stores (Layout.stores_join left right)
  | joinPairs pairs => exact depot_build_of_stores (Layout.stores_joinPairs pairs)
  | joinRuns runs => exact depot_build_of_stores (Layout.stores_joinRuns runs)
  | block name => exact depot_build (Layout.stores_make name) declared
  | filteredBlock name => exact depot_build (Layout.stores_makeFiltered name) declared
  | arbiter name => rfl
  | client index name =>
      have same : yard.depot.arbiters[index]? = yard.arbiters[index]? := rfl
      simp only [perform, Depot.perform, same]
      cases yard.arbiters[index]? with
      | none => rfl
      | some arbiter => exact depot_build (Layout.stores_onTable _) fun _ _ => rfl
  | schedule name =>
      have stores : yard.layout.Stores Schedule.timetable (Timetable.make name)
          (Schedule.make name) := by
        apply (Layout.stores_external _).bind
        intro go after _
        exact .pure { name, go : Schedule }
      simp only [perform, Depot.perform]
      exact depot_build stores fun schedule yard => by simp [depot]
  | move index source target guards client turnouts =>
      have clients : yard.depot.clients = yard.clients := rfl
      simp only [perform, Depot.perform, timetable?, segment?, clients]
      cases foundSchedule : yard.schedules[index]? with
      | none => rfl
      | some schedule =>
      cases foundSource : yard.blocks[source]? with
      | none => rfl
      | some sourceBlock =>
      cases foundTarget : yard.blocks[target]? with
      | none => rfl
      | some targetBlock =>
      have listed := distinct.schedules schedule (List.mem_of_getElem? foundSchedule)
      exact depot_plan (Schedule.charts_addMove listed.toIndexed
        (formed.placed _ (List.mem_of_getElem? foundSource))
        (formed.placed _ (List.mem_of_getElem? foundTarget)) _ _ _)
  | stop index place =>
      simp only [perform, Depot.perform, timetable?, segment?]
      cases foundSchedule : yard.schedules[index]? with
      | none => rfl
      | some schedule =>
      cases foundBlock : yard.blocks[place]? with
      | none => rfl
      | some block =>
      have listed := distinct.schedules schedule (List.mem_of_getElem? foundSchedule)
      have placed := formed.placed block (List.mem_of_getElem? foundBlock)
      exact depot_plan (Schedule.charts_stopAt listed.toIndexed placed)
  | sensitive index place value =>
      simp only [perform, Depot.perform, timetable?, segment?]
      cases foundSchedule : yard.schedules[index]? with
      | none => rfl
      | some schedule =>
      cases foundBlock : yard.blocks[place]? with
      | none => rfl
      | some block =>
      have listed := distinct.schedules schedule (List.mem_of_getElem? foundSchedule)
      have placed := formed.placed block (List.mem_of_getElem? foundBlock)
      exact depot_plan (Schedule.charts_setSensitive listed.toIndexed placed value)

/-- After all orders, also those that failed, the depot stores the yard. -/
theorem depot_performAll (config : Config) (orders : List Order) :
    ((empty config).performAll orders).depot = (Depot.empty config).performAll orders := by
  suffices ∀ {yard : Yard}, yard.Formed (fun _ => True) → yard.Distinct →
      (yard.performAll orders).depot = yard.depot.performAll orders from
    depot_empty config ▸ this (.empty config) (empty_distinct config)
  induction orders with
  | nil => exact fun _ _ => rfl
  | cons order orders ih =>
      intro yard formed distinct
      rw [Depot.performAll, ← depot_perform formed distinct order]
      exact ih (perform_formed formed fun _ _ => trivial) (perform_distinct distinct order)

end Yard

/-! ## Programs -/

/-- The supply that stores a source. -/
def Source.supply : Source → Supply
  | .permission arbiter => .permission arbiter
  | .train schedule => .train schedule.timetable
  | .custom book => .custom book

theorem Yard.supplies_depot (yard : Yard) :
    yard.depot.supplies = yard.sources.map Source.supply := by
  simp [Depot.supplies, depot, sources, Function.comp_def, Source.supply]

theorem Source.build_supply {source : Source} {layout : Layout}
    (indexed : ∀ schedule, source = .train schedule → schedule.Indexed) :
    source.supply.build layout.arena = source.build layout := by
  cases source with
  | permission | custom => rfl
  | train schedule => exact (indexed schedule rfl).build_timetable

/-- What is compiled from a stored layout is what is compiled from the layout. -/
theorem Layout.Framed.compile_arena {layout : Layout} (framed : layout.Framed)
    {sources : List Source}
    (indexed : ∀ schedule, .train schedule ∈ sources → schedule.Indexed) :
    layout.arena.compile (sources.map Source.supply) = Program.compile layout sources := by
  have extra : (sources.map Source.supply).mapM (Supply.build layout.arena) =
      sources.mapM (Source.build layout) := by
    rw [List.mapM_map]
    apply mapM_congr
    intro source listed
    exact source.build_supply fun schedule same => indexed schedule (same ▸ listed)
  rw [Arena.compile, framed.validate_arena, framed.automata_arena, extra]
  rfl

theorem Yard.Distinct.indexed {yard : Yard} (distinct : yard.Distinct) {sources : List Source}
    (declared : sources ⊆ yard.sources) {schedule : Schedule} (listed : .train schedule ∈ sources) :
    schedule.Indexed := by
  have known : schedule ∈ yard.schedules := by simpa [Yard.sources] using declared listed
  exact (distinct.schedules schedule known).toIndexed

/-- The program of a depot is that of the yard which the same orders make. -/
theorem Yard.compile_depot (config : Config) (orders : List Order) {sources : List Source}
    (declared : sources ⊆ ((Yard.empty config).performAll orders).sources) :
    ((Depot.empty config).performAll orders).arena.compile (sources.map Source.supply) =
      Program.compile ((Yard.empty config).performAll orders).layout sources := by
  have formed : ((Yard.empty config).performAll orders).Formed fun _ => True :=
    performAll_formed (.empty config) fun _ _ _ _ => trivial
  rw [← depot_performAll]
  exact formed.layout.framed.compile_arena fun _ listed =>
    (performAll_distinct config orders).indexed declared listed

end Interlocking
