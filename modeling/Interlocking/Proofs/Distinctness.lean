import Interlocking.Proofs.Yard

/-!
# Whose bit is whose

The bits that an author gets for blocks, clients and schedules come from new addresses each
time. So within a yard the bits of a schedule are different from each other, from those of all
clients and from the requests of all blocks. This holds for every yard, whatever variables its
author hands to the library.
-/

namespace Interlocking

/-- Where the parts of all items are different, a part belongs to one item only. -/
theorem index_eq_of_mem_parts {α β : Type} {items : List α} {parts : α → List β}
    (nodup : (items.flatMap parts).Nodup) {first second : Nat} {left right : α}
    (atFirst : items[first]? = some left) (atSecond : items[second]? = some right) {part : β}
    (ofLeft : part ∈ parts left) (ofRight : part ∈ parts right) : first = second := by
  obtain ⟨insideFirst, rfl⟩ := List.getElem?_eq_some_iff.mp atFirst
  obtain ⟨insideSecond, rfl⟩ := List.getElem?_eq_some_iff.mp atSecond
  have apart := List.pairwise_iff_getElem.mp (List.nodup_flatMap.mp nodup).2
  rcases Nat.lt_trichotomy first second with less | same | greater
  · exact (apart first second insideFirst insideSecond less ofLeft ofRight).elim
  · exact same
  · exact (apart second first insideSecond insideFirst greater ofRight ofLeft).elim

/-- On a layout the action hands out variables as `handed` tells, ascending from the first
address that was not yet reserved. -/
def Build.Hands {α : Type} (action : Build α) (handed : α → List Var → Prop) : Prop :=
  ∀ layout, layout.table.InBounds → Outcome (action layout)
    (fun result after => (∃ vars, handed result vars ∧
      Ascends layout.table.span after.table.span vars) ∧ after.table.InBounds)
    (fun after => after.table.InBounds ∧ layout.table.span ≤ after.table.span)

/-- The action may reserve addresses, but hands out none that matters. -/
abbrev Build.Reserves {α : Type} (action : Build α) : Prop :=
  Build.Hands action fun _ vars => vars = []

namespace Build

variable {α β : Type} {action : Build α} {handed : α → List Var → Prop}

theorem Hands.pure {result : α} (none : handed result []) : Build.Hands (Pure.pure result) handed :=
  fun _ inBounds => ⟨⟨[], none, Nat.le_refl _⟩, inBounds⟩

theorem Hands.reserves (hands : Build.Hands action handed) : Build.Reserves action := by
  intro layout inBounds
  apply (hands layout inBounds).mono
  · intro result after ⟨⟨vars, _, ascends⟩, inBounds⟩
    exact ⟨⟨[], rfl, ascends.le⟩, inBounds⟩
  · exact fun _ failed => failed

/-- The variables of two actions in sequence follow one another. -/
theorem Hands.bind {next : α → Build β} {handed' : β → List Var → Prop}
    (hands : Build.Hands action handed)
    (continued : ∀ value vars, handed value vars →
      Build.Hands (next value) (fun result others => handed' result (vars ++ others))) :
    Build.Hands (action >>= next) handed' := by
  intro layout inBounds
  refine Outcome.bind (hands layout inBounds) ?_
  intro value middle ⟨⟨vars, fits, ascends⟩, inBounds⟩
  apply (continued value vars fits middle inBounds).mono
  · intro result after ⟨⟨others, fits', ascends'⟩, inBounds'⟩
    exact ⟨⟨vars ++ others, fits', ascends.append ascends'⟩, inBounds'⟩
  · intro after ⟨inBounds', larger⟩
    exact ⟨inBounds', Nat.le_trans ascends.le larger⟩

/-- An action that hands out nothing that matters may come first. -/
theorem Reserves.bind {next : α → Build β} {handed' : β → List Var → Prop}
    (reserves : Build.Reserves action) (continued : ∀ value, Build.Hands (next value) handed') :
    Build.Hands (action >>= next) handed' := by
  refine Hands.bind reserves ?_
  intro value vars none
  subst none
  exact continued value

end Build

namespace Layout

open Build (Hands)

theorem within_hands {α : Type} (name : String) (count : UInt32) {action : Scoped α}
    {handed : α → List Var → Prop} (hands : Scoped.Hands action handed) :
    Hands (onTable (Table.within name count action)) handed := by
  intro layout inBounds
  apply (onTable_outcome (Table.within_outcome name count hands inBounds)).mono
  · exact fun _ _ made => made.2
  · exact fun _ failed => failed.2

theorem external_hands (name : String) : Hands (external name) (fun var vars => vars = [var]) := by
  intro layout inBounds
  apply (onTable_outcome (Table.allocate_outcome name inBounds)).mono
  · intro var after ⟨_, address, spanEq, inBounds⟩
    exact ⟨⟨[var], rfl, Nat.le_of_eq address.symm, by simp [Ascends]; omega⟩, inBounds⟩
  · exact fun _ failed => failed.2

theorem addition_reserves {action : Build PieceId} (adds : Build.Adds action fun _ => True) :
    Build.Reserves action := by
  intro layout inBounds
  apply (adds_outcome adds inBounds).mono
  · rintro id after ⟨table, draft, name, vars, rfl, _, _, ascends, inBounds⟩
    exact ⟨⟨[], rfl, ascends.le⟩, inBounds⟩
  · exact fun after failed => failed.2

theorem ask_reserves {α : Type} (question : Layout → Except Failure α) :
    Build.Reserves (ask question) := by
  intro layout inBounds
  unfold ask
  cases question layout with
  | ok answer => exact ⟨⟨[], rfl, Nat.le_refl _⟩, inBounds⟩
  | error failure => exact ⟨inBounds, Nat.le_refl _⟩

theorem join_reserves (left right : SideId) : Build.Reserves (join left right) := by
  intro layout inBounds
  unfold join
  split
  · exact ⟨inBounds, Nat.le_refl _⟩
  · exact ⟨inBounds, Nat.le_refl _⟩
  · exact ⟨⟨[], rfl, Nat.le_refl _⟩, inBounds⟩

theorem joinPairs_reserves (pairs : List (SideId × SideId)) : Build.Reserves (joinPairs pairs) := by
  induction pairs with
  | nil => exact .pure rfl
  | cons pair pairs ih => exact (join_reserves pair.1 pair.2).bind fun _ => ih

theorem joinRuns_reserves (runs : List Run) : Build.Reserves (joinRuns runs) := by
  induction runs with
  | nil => exact .pure rfl
  | cons first runs ih =>
      cases runs with
      | nil => exact .pure rfl
      | cons second runs =>
          apply (ask_reserves _).bind
          intro exit
          apply (ask_reserves _).bind
          intro entry
          exact (join_reserves exit entry).bind fun _ => ih

end Layout

namespace Block

open Build (Hands)

theorem finish_hands (name : String) (approach body : PieceId) (detector : Var) :
    Hands (finish name approach body detector) (fun block vars => vars = [block.requestGreen]) := by
  apply (Layout.external_hands _).bind
  intro requestGreen _ handed
  subst handed
  apply (Layout.external_hands _).reserves.bind
  intro signal
  apply (Layout.addition_reserves (Layout.adds_signal _ trivial trivial)).bind
  intro signalPiece
  apply (Layout.joinRuns_reserves _).bind
  intro _
  apply (Layout.ask_reserves _).bind
  intro entrance
  apply (Layout.ask_reserves _).bind
  intro exit
  exact .pure rfl

theorem make_hands (name : String) :
    Hands (make name) (fun block vars => vars = [block.requestGreen]) := by
  apply (Layout.external_hands _).reserves.bind
  intro detector
  apply (Layout.addition_reserves (Layout.adds_long _)).bind
  intro approach
  apply (Layout.addition_reserves (Layout.adds_detector _ trivial)).bind
  intro body
  exact finish_hands name approach body detector

theorem makeFiltered_hands (name : String) :
    Hands (makeFiltered name) (fun block vars => vars = [block.requestGreen]) := by
  apply (Layout.external_hands _).reserves.bind
  intro raw
  apply (Layout.addition_reserves (Layout.adds_long _)).bind
  intro approach
  have noted : Build.Reserves (get : Build Layout) :=
    fun layout inBounds => ⟨⟨[], rfl, Nat.le_refl _⟩, inBounds⟩
  apply noted.bind
  intro layout
  apply (Layout.addition_reserves
    (Layout.adds_filtered _ layout.debounceCycles trivial)).bind
  intro body
  apply (Layout.ask_reserves _).bind
  intro piece
  exact finish_hands name approach body piece.occupancy

end Block

theorem Arbiter.allocateClient_hands (arbiter : Arbiter) (name : String) :
    Build.Hands (arbiter.allocateClient name) (fun client vars => vars = client.vars) :=
  Layout.within_hands _ _ (Client.allocate_hands name)

/-- Names that come from new addresses do not occur among the old ones. -/
theorem nodup_insert_of_ascends {before new after : List Var} {first limit : Nat}
    (nodup : (before ++ after).Nodup) (below : ∀ var ∈ before ++ after, var.index < first)
    (ascends : Ascends first limit new) : (before ++ new ++ after).Nodup := by
  have perm : List.Perm (before ++ new ++ after) (before ++ after ++ new) := by
    simp only [List.append_assoc]
    exact List.perm_append_comm.append_left before
  refine perm.nodup_iff.mpr (List.nodup_append.mpr ⟨nodup, ascends.nodup, ?_⟩)
  intro old listed var fresh same
  have lower := below old listed
  have upper := (ascends.bounds fresh).1
  rw [same] at lower
  omega

/-- The bits that were named for a schedule alone. -/
def Schedule.own (schedule : Schedule) : List Var :=
  schedule.go :: (schedule.berths.flatMap (fun berth => [berth.here, berth.coming]) ++
    schedule.moves.map Move.active)

/-- The bits that were named for blocks and for clients. -/
def Yard.common (yard : Yard) : List Var :=
  yard.blocks.map Block.requestGreen ++ yard.clients.flatMap Client.vars

/-- The berth is one of the block. -/
structure Berth.Shows (berth : Berth) (block : Block) : Prop where
  request : berth.requestGreen = block.requestGreen
  exit : berth.routeOut = block.routeOut

/-- The schedule knows one berth for each name, and refers to no others. -/
structure Schedule.Indexed (schedule : Schedule) : Prop where
  names : (schedule.berths.map Berth.block).Nodup
  ends : ∀ move ∈ schedule.moves, move.source ∈ schedule.berths ∧ move.target ∈ schedule.berths
  stops : ∀ stop ∈ schedule.stops, stop ∈ schedule.berths
  sensitive : schedule.sensitive ⊆ schedule.berths.map Berth.block

/-- The bits of the schedule are its own, and what else it refers to is known in the yard. -/
structure Schedule.Listed (schedule : Schedule) (yard : Yard) : Prop extends schedule.Indexed where
  distinct : (schedule.own ++ yard.common).Nodup
  below : ∀ var ∈ schedule.own, var.index < yard.layout.table.span
  blocks : ∀ berth ∈ schedule.berths, ∃ block ∈ yard.blocks, berth.Shows block
  clients : ∀ move ∈ schedule.moves, ∀ client ∈ move.client, client ∈ yard.clients

/-- No bit of a yard was named for two. -/
structure Yard.Distinct (yard : Yard) : Prop where
  inBounds : yard.layout.table.InBounds
  common : yard.common.Nodup
  below : ∀ var ∈ yard.common, var.index < yard.layout.table.span
  arbiters : ∀ arbiter ∈ yard.arbiters, arbiter.clients.Sublist yard.clients
  schedules : ∀ schedule ∈ yard.schedules, schedule.Listed yard

variable {yard : Yard} {schedule : Schedule}

namespace Schedule

/-- More reservations do no harm. -/
theorem Listed.grows (listed : schedule.Listed yard) {after : Layout}
    (larger : yard.layout.table.span ≤ after.table.span) :
    schedule.Listed { yard with layout := after } where
  toIndexed := listed.toIndexed
  distinct := listed.distinct
  below := fun var own => Nat.lt_of_lt_of_le (listed.below var own) larger
  blocks := listed.blocks
  clients := listed.clients

theorem insertBerth_perm (berth : Berth) (berths : List Berth) :
    List.Perm (insertBerth berth berths) (berth :: berths) := by
  induction berths with
  | nil => exact .refl _
  | cons first rest ih =>
      unfold insertBerth
      split
      · exact (ih.cons first).trans (.swap berth first rest)
      · exact .refl _

namespace Indexed

variable (indexed : schedule.Indexed)

include indexed

theorem withBerth {berth : Berth} (new : schedule.berth? berth.block = none) :
    ({ schedule with berths := insertBerth berth schedule.berths }).Indexed where
  names := by
    have perm := (insertBerth_perm berth schedule.berths).map Berth.block
    refine perm.nodup_iff.mpr (List.nodup_cons.mpr ⟨?_, indexed.names⟩)
    intro member
    obtain ⟨other, listed, same⟩ := List.mem_map.mp member
    exact List.find?_eq_none.mp new other listed (decide_eq_true same)
  ends := fun move member =>
    (indexed.ends move member).imp (mem_insertBerth.mpr <| .inr ·) (mem_insertBerth.mpr <| .inr ·)
  stops := fun stop member => mem_insertBerth.mpr (.inr (indexed.stops stop member))
  sensitive := by
    have perm := (insertBerth_perm berth schedule.berths).map Berth.block
    exact fun name member => perm.mem_iff.mpr (List.mem_cons_of_mem _ (indexed.sensitive member))

theorem withMove {move : Move}
    (ends : move.source ∈ schedule.berths ∧ move.target ∈ schedule.berths) :
    ({ schedule with moves := schedule.moves ++ [move] }).Indexed where
  names := indexed.names
  ends := List.forall_mem_append.mpr ⟨indexed.ends, List.forall_mem_singleton.mpr ends⟩
  stops := indexed.stops
  sensitive := indexed.sensitive

theorem withStop {stop : Berth} (known : stop ∈ schedule.berths) :
    ({ schedule with stops := schedule.stops ++ [stop] }).Indexed where
  names := indexed.names
  ends := indexed.ends
  stops := List.forall_mem_append.mpr ⟨indexed.stops, List.forall_mem_singleton.mpr known⟩
  sensitive := indexed.sensitive

theorem withSensitive {sensitive : List String}
    (known : sensitive ⊆ schedule.berths.map Berth.block) :
    ({ schedule with sensitive }).Indexed where
  names := indexed.names
  ends := indexed.ends
  stops := indexed.stops
  sensitive := known

end Indexed

/-- A new bit on the layout of a schedule that stays as it is. -/
theorem external_hands {layout : Layout} (inBounds : layout.table.InBounds) (name : String) :
    Outcome (onLayout (Layout.external name) (schedule, layout))
      (fun var state => state.1 = schedule ∧ state.2.table.InBounds ∧
        Ascends layout.table.span state.2.table.span [var])
      (fun state => state.1 = schedule ∧ state.2.table.InBounds ∧
        layout.table.span ≤ state.2.table.span) := by
  apply (onLayout_outcome (Layout.external_hands name layout inBounds)).mono
  · intro var state ⟨same, ⟨vars, handed, ascends⟩, inBounds⟩
    exact ⟨same, inBounds, handed ▸ ascends⟩
  · exact fun _ failed => failed

/-- What planning leaves behind, whether it succeeds or not. -/
structure Planned (yard : Yard) (state : Schedule × Layout) : Prop where
  inBounds : state.2.table.InBounds
  span : yard.layout.table.span ≤ state.2.table.span
  listed : state.1.Listed { yard with layout := state.2 }

theorem Planned.trans {state next : Schedule × Layout} (first : Planned yard state)
    (second : Planned { yard with layout := state.2 } next) : Planned yard next :=
  ⟨second.inBounds, Nat.le_trans first.span second.span, second.listed⟩

theorem Listed.withBerth (listed : schedule.Listed yard) {after : Layout} {berth : Berth}
    (below : ∀ var ∈ yard.common, var.index < yard.layout.table.span)
    (fresh : Ascends yard.layout.table.span after.table.span [berth.here, berth.coming])
    (new : schedule.berth? berth.block = none)
    (known : ∃ block ∈ yard.blocks, berth.Shows block) :
    ({ schedule with berths := insertBerth berth schedule.berths }).Listed
      { yard with layout := after } := by
  have perm : List.Perm ({ schedule with berths := insertBerth berth schedule.berths }).own
      ([schedule.go] ++ [berth.here, berth.coming] ++
        (schedule.berths.flatMap (fun berth => [berth.here, berth.coming]) ++
          schedule.moves.map Move.active)) := by
    refine List.Perm.cons _ ?_
    exact ((insertBerth_perm berth schedule.berths).flatMap_right _).append_right _
  have grown := listed.grows fresh.le
  refine ⟨listed.toIndexed.withBerth new, ?_, ?_, ?_, listed.clients⟩
  · refine (perm.append_right yard.common).nodup_iff.mpr ?_
    have before : ∀ var ∈ schedule.own ++ yard.common, var.index < yard.layout.table.span :=
      List.forall_mem_append.mpr ⟨listed.below, below⟩
    rw [List.append_assoc _ _ yard.common]
    exact nodup_insert_of_ascends listed.distinct before fresh
  · intro var own
    rw [perm.mem_iff, List.append_assoc, List.mem_append, List.mem_append] at own
    rcases own with go | new | rest
    · exact grown.below var (List.mem_cons.mpr (.inl (List.mem_singleton.mp go)))
    · exact (fresh.bounds new).2
    · exact grown.below var (List.mem_cons_of_mem _ rest)
  · intro other member
    rcases mem_insertBerth.mp member with rfl | member
    · exact known
    · exact listed.blocks other member

theorem Listed.withMove (listed : schedule.Listed yard) {after : Layout} {move : Move}
    (below : ∀ var ∈ yard.common, var.index < yard.layout.table.span)
    (fresh : Ascends yard.layout.table.span after.table.span [move.active])
    (ends : move.source ∈ schedule.berths ∧ move.target ∈ schedule.berths)
    (known : ∀ client ∈ move.client, client ∈ yard.clients) :
    ({ schedule with moves := schedule.moves ++ [move] }).Listed { yard with layout := after } := by
  have own : ({ schedule with moves := schedule.moves ++ [move] }).own =
      schedule.own ++ [move.active] := by simp [Schedule.own]
  have grown := listed.grows fresh.le
  refine ⟨listed.toIndexed.withMove ends, ?_, ?_, listed.blocks, ?_⟩
  · rw [own]
    exact nodup_insert_of_ascends listed.distinct
      (List.forall_mem_append.mpr ⟨listed.below, below⟩) fresh
  · rw [own]
    refine List.forall_mem_append.mpr ⟨grown.below, ?_⟩
    exact fun var new => (fresh.bounds new).2
  · exact List.forall_mem_append.mpr ⟨listed.clients, List.forall_mem_singleton.mpr known⟩

section Planning

variable (listed : schedule.Listed yard) (inBounds : yard.layout.table.InBounds)
  (below : ∀ var ∈ yard.common, var.index < yard.layout.table.span)

include listed inBounds below

/-- A block of the yard becomes known to a schedule. -/
theorem enter_planned {block : Block} (known : block ∈ yard.blocks) :
    Outcome (enter block (schedule, yard.layout))
      (fun berth state => Planned yard state ∧ berth ∈ state.1.berths ∧
        schedule.berths ⊆ state.1.berths ∧ berth.block = block.name)
      (Planned yard) := by
  cases found : schedule.berth? block.name with
  | some berth =>
      rw [enter_of_known found]
      exact ⟨⟨inBounds, Nat.le_refl _, listed⟩, List.mem_of_find?_eq_some found,
        List.Subset.refl _, by simpa using List.find?_some found⟩
  | none =>
      rw [enter_of_new found]
      have failed : ∀ state : Schedule × Layout, state.1 = schedule ∧ state.2.table.InBounds ∧
          yard.layout.table.span ≤ state.2.table.span → Planned yard state := by
        rintro ⟨same, after⟩ ⟨rfl, inBounds, larger⟩
        exact ⟨inBounds, larger, listed.grows larger⟩
      refine Outcome.bind ((external_hands inBounds _).mono (fun _ _ made => made) failed) ?_
      rintro here ⟨same, second⟩ ⟨rfl, inBoundsSecond, freshHere⟩
      refine Outcome.bind ((external_hands inBoundsSecond _).mono (fun _ _ made => made) ?_) ?_
      · rintro state ⟨equal, inBounds, larger⟩
        exact failed state ⟨equal, inBounds, Nat.le_trans freshHere.le larger⟩
      rintro coming ⟨same, third⟩ ⟨rfl, inBoundsThird, freshComing⟩
      have fresh : Ascends yard.layout.table.span third.table.span [here, coming] :=
        freshHere.append freshComing
      refine ⟨⟨inBoundsThird, fresh.le, ?_⟩, mem_insertBerth.mpr (.inl rfl), ?_, rfl⟩
      · exact listed.withBerth below fresh found ⟨block, known, rfl, rfl⟩
      · exact fun berth member => mem_insertBerth.mpr (.inr member)

theorem addMove_planned {source target : Block} (sourceKnown : source ∈ yard.blocks)
    (targetKnown : target ∈ yard.blocks) (guards : List (Var × Bool)) {client : Option Client}
    (clientKnown : ∀ known ∈ client, known ∈ yard.clients) (turnouts : List (Motor × Position)) :
    Outcome (addMove source target guards client turnouts (schedule, yard.layout))
      (fun _ => Planned yard) (Planned yard) := by
  apply (enter_planned listed inBounds below sourceKnown).bind
  intro sourceBerth ⟨first, second⟩ ⟨plannedSecond, sourceListed, _⟩
  have belowSecond : ∀ var ∈ yard.common, var.index < second.table.span :=
    fun var common => Nat.lt_of_lt_of_le (below var common) plannedSecond.span
  have entered := enter_planned plannedSecond.listed plannedSecond.inBounds belowSecond targetKnown
  refine Outcome.bind (entered.mono (fun _ _ made => made) fun _ => plannedSecond.trans) ?_
  intro targetBerth ⟨planned, third⟩ ⟨plannedThird, targetListed, kept, _⟩
  have named : Outcome (onLayout (Layout.external
      (qualify planned.name ("active_" ++ toString planned.moves.length))) (planned, third))
      (fun active state => state.1 = planned ∧ state.2.table.InBounds ∧
        Ascends third.table.span state.2.table.span [active])
      (Planned yard) := by
    apply (external_hands plannedThird.inBounds _).mono (fun _ _ made => made)
    intro ⟨same, after⟩ ⟨equal, inBoundsAfter, larger⟩
    simp only at equal
    subst equal
    exact plannedSecond.trans ⟨inBoundsAfter, Nat.le_trans plannedThird.span larger,
      plannedThird.listed.grows larger⟩
  apply named.bind
  intro active ⟨same, last⟩ ⟨equal, inBoundsLast, fresh⟩
  simp only at equal
  subst equal
  have belowThird : ∀ var ∈ yard.common, var.index < third.table.span :=
    fun var common => Nat.lt_of_lt_of_le (belowSecond var common) plannedThird.span
  refine plannedSecond.trans ⟨inBoundsLast, Nat.le_trans plannedThird.span fresh.le, ?_⟩
  exact plannedThird.listed.withMove belowThird fresh ⟨kept sourceListed, targetListed⟩ clientKnown

theorem stopAt_planned {block : Block} (known : block ∈ yard.blocks) :
    Outcome (stopAt block (schedule, yard.layout)) (fun _ => Planned yard) (Planned yard) := by
  apply (enter_planned listed inBounds below known).bind
  intro berth ⟨planned, after⟩ ⟨⟨inBoundsAfter, larger, listedAfter⟩, berthListed, _⟩
  exact ⟨inBoundsAfter, larger, listedAfter.toIndexed.withStop berthListed, listedAfter.distinct,
    listedAfter.below, listedAfter.blocks, listedAfter.clients⟩

theorem setSensitive_planned {block : Block} (known : block ∈ yard.blocks) (sensitive : Bool) :
    Outcome (setSensitive block sensitive (schedule, yard.layout)) (fun _ => Planned yard)
      (Planned yard) := by
  apply (enter_planned listed inBounds below known).bind
  intro berth ⟨planned, after⟩ ⟨⟨inBoundsAfter, larger, listedAfter⟩, berthListed, _, named⟩
  have others : planned.sensitive.filter (· ≠ block.name) ⊆ planned.berths.map Berth.block :=
    fun name member => listedAfter.sensitive (List.mem_of_mem_filter member)
  have own : block.name ∈ planned.berths.map Berth.block :=
    List.mem_map.mpr ⟨berth, berthListed, named⟩
  refine ⟨inBoundsAfter, larger, listedAfter.toIndexed.withSensitive ?_, listedAfter.distinct,
    listedAfter.below, listedAfter.blocks, listedAfter.clients⟩
  cases sensitive with
  | true => exact List.cons_subset.mpr ⟨own, others⟩
  | false => exact others

end Planning

end Schedule

namespace Yard

theorem empty_distinct (config : Config) : (empty config).Distinct where
  inBounds := (Layout.empty_sound config).inBounds
  common := List.nodup_nil
  below := by simp [Yard.common, empty]
  arbiters := by simp [empty]
  schedules := by simp [empty]

theorem Distinct.withLayout (distinct : yard.Distinct) {after : Layout}
    (inBounds : after.table.InBounds) (larger : yard.layout.table.span ≤ after.table.span) :
    ({ yard with layout := after }).Distinct where
  inBounds := inBounds
  common := distinct.common
  below := fun var common => Nat.lt_of_lt_of_le (distinct.below var common) larger
  arbiters := distinct.arbiters
  schedules := fun schedule member => (distinct.schedules schedule member).grows larger

theorem Distinct.declareSchedule (distinct : yard.Distinct) (listed : schedule.Listed yard) :
    ({ yard with schedules := yard.schedules ++ [schedule] }).Distinct where
  inBounds := distinct.inBounds
  common := distinct.common
  below := distinct.below
  arbiters := distinct.arbiters
  schedules := by
    intro other member
    rcases List.mem_append.mp member with member | member
    · obtain ⟨indexed, nodup, below, blocks, clients⟩ := distinct.schedules other member
      exact ⟨indexed, nodup, below, blocks, clients⟩
    · obtain rfl := List.mem_singleton.mp member
      obtain ⟨indexed, nodup, below, blocks, clients⟩ := listed
      exact ⟨indexed, nodup, below, blocks, clients⟩

theorem Distinct.declareBlock (distinct : yard.Distinct) {after : Layout} {block : Block}
    (inBounds : after.table.InBounds)
    (fresh : Ascends yard.layout.table.span after.table.span [block.requestGreen]) :
    (perform.declareBlock block { yard with layout := after }).Distinct := by
  obtain ⟨-, nodup, below, arbiters, schedules⟩ := distinct
  have common : (perform.declareBlock block { yard with layout := after }).common =
      yard.blocks.map Block.requestGreen ++ [block.requestGreen] ++
        yard.clients.flatMap Client.vars := by simp [Yard.common, perform.declareBlock]
  constructor
  · exact inBounds
  · rw [common]
    exact nodup_insert_of_ascends nodup below fresh
  · intro var member
    rw [common, List.append_assoc, List.mem_append, List.mem_append] at member
    rcases member with old | new | old
    · exact Nat.lt_of_lt_of_le (below var (List.mem_append_left _ old)) fresh.le
    · exact (fresh.bounds new).2
    · exact Nat.lt_of_lt_of_le (below var (List.mem_append_right _ old)) fresh.le
  · exact arbiters
  · intro schedule member
    have listed := schedules schedule member
    refine ⟨listed.toIndexed, ?_, (listed.grows fresh.le).below, ?_, listed.clients⟩
    · rw [common, List.append_assoc, ← List.append_assoc, ← List.append_assoc]
      refine nodup_insert_of_ascends ?_ ?_ fresh
      · rw [List.append_assoc]
        exact listed.distinct
      · rw [List.append_assoc]
        exact List.forall_mem_append.mpr ⟨listed.below, below⟩
    · intro berth berthListed
      obtain ⟨other, known, shows⟩ := listed.blocks berth berthListed
      exact ⟨other, List.mem_append_left _ known, shows⟩

theorem Distinct.declareClient (distinct : yard.Distinct) {after : Layout} {arbiter : Arbiter}
    (known : arbiter ∈ yard.arbiters) {client : Client} (inBounds : after.table.InBounds)
    (fresh : Ascends yard.layout.table.span after.table.span client.vars) :
    ({ yard with
      layout := after
      clients := yard.clients ++ [client]
      arbiters := yard.arbiters ++ [arbiter.addClient client] }).Distinct := by
  obtain ⟨-, nodup, below, arbiters, schedules⟩ := distinct
  have insert : ∀ {before : List Var}, before.Nodup →
      (∀ var ∈ before, var.index < yard.layout.table.span) → (before ++ client.vars).Nodup := by
    intro before nodup below
    have inserted : (before ++ client.vars ++ []).Nodup :=
      nodup_insert_of_ascends (by simpa using nodup) (by simpa using below) fresh
    simpa using inserted
  have common : ∀ arbiters, ({ yard with
      layout := after
      clients := yard.clients ++ [client]
      arbiters }).common = yard.common ++ client.vars := by simp [Yard.common]
  constructor
  · exact inBounds
  · rw [common]
    exact insert nodup below
  · rw [common]
    refine List.forall_mem_append.mpr ⟨?_, fun var new => (fresh.bounds new).2⟩
    exact fun var old => Nat.lt_of_lt_of_le (below var old) fresh.le
  · intro other member
    rcases List.mem_append.mp member with member | member
    · exact (arbiters other member).trans (List.sublist_append_left _ _)
    · obtain rfl := List.mem_singleton.mp member
      exact (arbiters arbiter known).append_right [client]
  · intro schedule member
    have listed := schedules schedule member
    refine ⟨listed.toIndexed, ?_, (listed.grows fresh.le).below, listed.blocks, ?_⟩
    · rw [common, ← List.append_assoc]
      exact insert listed.distinct (List.forall_mem_append.mpr ⟨listed.below, below⟩)
    · intro move moveListed other needed
      exact List.mem_append_left _ (listed.clients move moveListed other needed)

theorem build_distinct {α : Type} (distinct : yard.Distinct) {action : Build α}
    {declare : α → Yard → Yard} {handed : α → List Var → Prop} (hands : Build.Hands action handed)
    (declared : ∀ result after vars, handed result vars → after.table.InBounds →
      Ascends yard.layout.table.span after.table.span vars →
      (declare result { yard with layout := after }).Distinct) :
    (yard.build action declare).Distinct := by
  have outcome := hands yard.layout distinct.inBounds
  unfold build
  cases run : action yard.layout with
  | ok result after =>
      rw [run] at outcome
      obtain ⟨⟨vars, handed, ascends⟩, inBounds⟩ := outcome
      exact declared result after vars handed inBounds ascends
  | error failure after =>
      rw [run] at outcome
      exact distinct.withLayout outcome.1 outcome.2

/-- An operation that declares nothing. -/
theorem build_distinct_of_reserves {α : Type} (distinct : yard.Distinct) {action : Build α}
    (reserves : Build.Reserves action) : (yard.build action fun _ yard => yard).Distinct :=
  build_distinct distinct reserves fun _ _ _ _ inBounds ascends =>
    distinct.withLayout inBounds ascends.le

theorem plan_distinct {α : Type} (distinct : yard.Distinct) {action : Schedule.Planning α}
    (outcome : Outcome (action (schedule, yard.layout)) (fun _ => Schedule.Planned yard)
      (Schedule.Planned yard)) : (yard.plan schedule action).Distinct := by
  have planned : ∀ state : Schedule × Layout, Schedule.Planned yard state →
      ({ yard with layout := state.2, schedules := yard.schedules ++ [state.1] }).Distinct :=
    fun state planned =>
      (distinct.withLayout planned.inBounds planned.span).declareSchedule planned.listed
  unfold plan
  cases run : action (schedule, yard.layout) with
  | ok result state =>
      rw [run] at outcome
      exact planned state outcome
  | error failure state =>
      rw [run] at outcome
      exact planned state outcome

theorem perform_distinct (distinct : yard.Distinct) (order : Order) :
    (yard.perform order).Distinct := by
  have inBounds := distinct.inBounds
  have below := distinct.below
  have schedules := distinct.schedules
  cases addition : order.addition? with
  | some action =>
      rw [yard.perform_addition addition]
      exact build_distinct_of_reserves distinct
        (Layout.addition_reserves (order.adds addition fun _ _ => trivial))
  | none =>
  cases order with
  | short | long | detector | filtered | signal | endpoint | fixedTurnout | movableTurnout =>
      cases addition
  | external name => exact build_distinct_of_reserves distinct (Layout.external_hands name).reserves
  | scope name count inner =>
      exact build_distinct_of_reserves distinct
        (Layout.within_hands name count inner.allocate_hands).reserves
  | join left right => exact build_distinct_of_reserves distinct (Layout.join_reserves left right)
  | joinPairs pairs => exact build_distinct_of_reserves distinct (Layout.joinPairs_reserves pairs)
  | joinRuns runs => exact build_distinct_of_reserves distinct (Layout.joinRuns_reserves runs)
  | block name =>
      apply build_distinct distinct (Block.make_hands name)
      intro block after vars handed inBounds fresh
      exact distinct.declareBlock inBounds (handed ▸ fresh)
  | filteredBlock name =>
      apply build_distinct distinct (Block.makeFiltered_hands name)
      intro block after vars handed inBounds fresh
      exact distinct.declareBlock inBounds (handed ▸ fresh)
  | arbiter name =>
      refine ⟨inBounds, distinct.common, below, ?_, ?_⟩
      · intro arbiter member
        rcases List.mem_append.mp member with member | member
        · exact distinct.arbiters arbiter member
        · obtain rfl := List.mem_singleton.mp member
          exact List.nil_sublist _
      · intro schedule member
        obtain ⟨indexed, nodup, below, blocks, clients⟩ := schedules schedule member
        exact ⟨indexed, nodup, below, blocks, clients⟩
  | client index name =>
      simp only [perform]
      cases found : yard.arbiters[index]? with
      | none => exact distinct
      | some arbiter =>
          apply build_distinct distinct (arbiter.allocateClient_hands name)
          intro client after vars handed inBounds fresh
          exact distinct.declareClient (List.mem_of_getElem? found) inBounds (handed ▸ fresh)
  | schedule name =>
      have hands : Build.Hands (Schedule.make name) (fun schedule vars =>
          schedule = { name, go := schedule.go } ∧ vars = [schedule.go]) := by
        apply (Layout.external_hands _).bind
        intro go _ handed
        subst handed
        exact .pure ⟨rfl, rfl⟩
      simp only [perform]
      apply build_distinct distinct hands
      rintro schedule after vars ⟨made, handed⟩ inBounds fresh
      subst handed
      refine (distinct.withLayout inBounds fresh.le).declareSchedule ?_
      rw [made]
      refine ⟨⟨List.nodup_nil, by simp, by simp, by simp⟩, ?_, ?_, by simp, by simp⟩
      · have inserted : ([] ++ [schedule.go] ++ yard.common).Nodup :=
          nodup_insert_of_ascends distinct.common below fresh
        exact inserted
      · simpa [Schedule.own] using (fresh.bounds (List.mem_singleton.mpr rfl)).2
  | move index source target guards client turnouts =>
      simp only [perform]
      split
      · rename_i schedule sourceBlock targetBlock foundSchedule foundSource foundTarget
        apply plan_distinct distinct
        apply Schedule.addMove_planned
          (schedules schedule (List.mem_of_getElem? foundSchedule)) inBounds below
          (List.mem_of_getElem? foundSource) (List.mem_of_getElem? foundTarget)
        intro known chosen
        obtain ⟨place, _, found⟩ := Option.bind_eq_some_iff.mp chosen
        exact List.mem_of_getElem? found
      · exact distinct
  | stop index place =>
      simp only [perform]
      split
      · rename_i schedule block foundSchedule foundBlock
        exact plan_distinct distinct (Schedule.stopAt_planned
          (schedules schedule (List.mem_of_getElem? foundSchedule)) inBounds below
          (List.mem_of_getElem? foundBlock))
      · exact distinct
  | sensitive index place value =>
      simp only [perform]
      split
      · rename_i schedule block foundSchedule foundBlock
        exact plan_distinct distinct (Schedule.setSensitive_planned
          (schedules schedule (List.mem_of_getElem? foundSchedule)) inBounds below
          (List.mem_of_getElem? foundBlock)
          value)
      · exact distinct

/-- In every yard each bit was named for one purpose only. -/
theorem performAll_distinct (config : Config) (orders : List Order) :
    ((empty config).performAll orders).Distinct := by
  suffices ∀ {yard : Yard}, yard.Distinct → (yard.performAll orders).Distinct from
    this (empty_distinct config)
  induction orders with
  | nil => exact fun distinct => distinct
  | cons order orders ih => exact fun distinct => ih (perform_distinct distinct order)

end Yard

end Interlocking
