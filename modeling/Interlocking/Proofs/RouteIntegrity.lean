import Interlocking.Proofs.Addresses
import Interlocking.Proofs.RouteSafety
import Interlocking.Proofs.Stillness
import Interlocking.Proofs.TrainFree

/-!
# Integrity of the reserved routes

What can be said of the routes on a layout without trains. A reserved route is reserved all
the way to its terminus, and when nobody asks for a route and the layout is at rest, nothing
is reserved any longer.
-/

namespace Interlocking

namespace Layout

variable {layout : Layout} {panel : Panel}

/-- The route behind a reserved passage goes on, or it ends there. -/
theorem Undisturbed.goes_on (undisturbed : layout.Undisturbed panel)
    (orderly : layout.Orderly none panel) (sound : layout.Sound) {id : PieceId} {passage : Passage}
    (way : layout.Way id passage) {side : SideId} (joined : layout.mate? passage.exit = some side)
    (reserved : panel (.route passage) = true) :
    layout.Ends side ∨ ∃ next, layout.Asked next ∧ next.entry = side ∧
      panel (.route next) = true := by
  have inner := sound.exit_inner way
  have granted := (orderly.agreed.granted way joined reserved).1
  have requested := (orderly.agreed.requested joined inner).mpr ⟨id, passage, way, rfl, .inl reserved⟩
  exact undisturbed.backed (sound.paired joined) inner granted requested

section Rest

variable {machine : Machine} (calm : layout.Calm machine) (sound : layout.Sound)

include calm sound

/-- A layout on which no turn changes a variable is at rest. -/
theorem Calm.atRest (undetected : ∀ var ∈ layout.sensors, machine.get var = .ok false)
    (still : ∀ index next changed, machine.evaluate index = .ok (next, changed) →
      next.memory = machine.memory) : layout.AtRest (layout.panel machine.memory) := by
  intro id piece found
  obtain ⟨next, changed, evaluated⟩ := sound.evaluate_ok calm.automata calm.safe.size found
  obtain ⟨cell, known, runs, _⟩ := layout.runs_of_evaluate evaluated
  obtain ⟨cell', known', same⟩ := cell_of_piece calm.automata found
  obtain rfl := Option.some.inj (known.symm.trans known')
  rw [still _ _ _ evaluated, same] at runs
  have steady : layout.Steady (fun id => layout.panel machine.memory (.position id)) none
      (layout.panel machine.memory) := ⟨calm.safe.orderly, fun _ => rfl⟩
  exact sound.rests_of_still found
    ⟨⟨steady, calm.vacant undetected⟩, calm.undisturbed.announced⟩ runs

variable (unasked : ∀ var ∈ layout.requests, machine.get var = .ok false)

include unasked

theorem Calm.not_requested {side mate : SideId} (joined : layout.mate? side = some mate)
    (outer : ¬layout.Inner side) : layout.panel machine.memory (.request side) = false := by
  obtain ⟨record, known, _⟩ := Option.bind_eq_some_iff.mp joined
  obtain ⟨⟨name, occupancy, body⟩, found, listed⟩ := sound.owned known
  have owner : layout.owner? side = some { name, occupancy, body } := by
    simp [owner?, known, found]
  obtain ⟨own, rfl⟩ : ∃ own, body = .endpoint own := by
    by_contra inner
    exact outer ⟨_, owner, fun own same => inner ⟨own, same⟩⟩
  obtain rfl : side = own := by simpa [Piece.sides] using listed
  have member : record.bits.request ∈ layout.requests :=
    List.mem_flatMap.mpr ⟨_, mem_pieces.mpr ⟨record.owner, found⟩, by simp [known]⟩
  exact Except.ok.inj ((calm.safe.get_side sound known).1.symm.trans (unasked _ member))

omit calm sound in
theorem signal_not_requested {id : PieceId} {piece : Piece} {straight : Straight}
    {request aspect used : Var} (found : layout.piece? id = some piece)
    (body : piece.body = .straight straight) (kind : straight.kind = .signal request aspect used) :
    layout.panel machine.memory (layout.role request) = false := by
  have member : request ∈ layout.requests := by
    refine List.mem_flatMap.mpr ⟨piece, mem_pieces.mpr ⟨id, found⟩, ?_⟩
    obtain ⟨⟨seen, ab, ba⟩, _, a, b⟩ := straight
    subst kind
    simp [body]
  rw [panel_role]
  exact (Memory.read_eq_ok.mp (unasked request member)).2

end Rest

end Layout

section Terminus

/-- On the junction a route from `w` to `e` is set, without any train. -/
def quietJunction : Operation :=
  (Operation.start? {} junction [] {} [
    .write ⟨2⟩ true, .turn 1, .turn 2, .turn 3, .turn 2, .turn 1]).get (by decide +kernel)

theorem quietJunction_shows :
    quietJunction.TrainFree ∧
    quietJunction.layout.piece? ⟨1⟩ = some junctionTurnout ∧
    quietJunction.layout.mate? ⟨2⟩ = some ⟨4⟩ ∧
    quietJunction.layout.owner? ⟨4⟩ = some junctionShort ∧
    quietJunction.machine.get ⟨44⟩ = .ok true := by
  decide +kernel

end Terminus

/-- Without trains a reserved route leads on from passage to passage until it ends at an
endpoint or in front of a signal, or the track ends. -/
theorem routes_reach_their_terminus (operation : Operation) (free : operation.TrainFree)
    {id : PieceId} {piece : Piece} (found : operation.layout.piece? id = some piece)
    {passage : Passage} (member : passage ∈ piece.passages)
    (reserved : operation.machine.get passage.route = .ok true) {side : SideId}
    (joined : operation.layout.mate? passage.exit = some side) {neighbour : Piece}
    (owner : operation.layout.owner? side = some neighbour) :
    (∃ own, neighbour.body = .endpoint own) ∨
      (∃ straight request aspect used, neighbour.body = .straight straight ∧
        straight.kind = .signal request aspect used ∧ side = straight.a) ∨
      ∃! next, next ∈ neighbour.passages ∧ next.entry = side ∧
        operation.machine.get next.route = .ok true := by
  have sound : operation.layout.Sound := operation.sound.layout
  have safe := operation.safe
  have way : operation.layout.Way id passage := ⟨piece, found, member⟩
  have routed : operation.layout.panel operation.machine.memory (.route passage) = true :=
    Except.ok.inj ((safe.get_way sound way).1.symm.trans reserved)
  rcases free.calm.undisturbed.goes_on safe.orderly sound way joined routed with
    ⟨terminal, known, ends⟩ | ⟨next, asked, enters, follows⟩
  · obtain rfl := Option.some.inj (owner.symm.trans known)
    exact ends.imp_right .inl
  · right
    right
    obtain ⟨record, foundSide, foundNeighbour⟩ := Option.bind_eq_some_iff.mp owner
    obtain ⟨neighbour', foundNeighbour', listed⟩ := sound.owned foundSide
    obtain rfl := Option.some.inj (foundNeighbour.symm.trans foundNeighbour')
    have ways : ∀ other ∈ neighbour.passages, operation.layout.Way record.owner other :=
      fun other own => ⟨neighbour, foundNeighbour, own⟩
    have own := Layout.mem_passages_of_mem_asked (sound.mem_asked foundNeighbour listed asked enters)
    refine ⟨next, ⟨own, enters, ?_⟩, ?_⟩
    · rw [(safe.get_way sound (ways next own)).1, follows]
    · intro other ⟨rival, _, set⟩
      rw [(safe.get_way sound (ways other rival)).1, Except.ok.injEq] at set
      exact safe.orderly.exclusive.alone (ways other rival) (ways next own) (.inl set) (.inl follows)

theorem routes_reach_their_terminus_at_junction :
    quietJunction.TrainFree ∧ quietJunction.layout.piece? ⟨1⟩ = some junctionTurnout ∧
      quietJunction.machine.get ⟨44⟩ = .ok true ∧
      quietJunction.layout.mate? ⟨2⟩ = some ⟨4⟩ ∧
      quietJunction.layout.owner? ⟨4⟩ = some junctionShort ∧
      ∃! next, next ∈ junctionShort.passages ∧ next.entry = ⟨4⟩ ∧
        quietJunction.machine.get next.route = .ok true := by
  obtain ⟨free, found, joined, owner, reserved⟩ := quietJunction_shows
  refine ⟨free, found, reserved, joined, owner, ?_⟩
  have follows := routes_reach_their_terminus quietJunction free found
    (show ⟨⟨1⟩, ⟨2⟩, ⟨44⟩, ⟨45⟩, some .closed⟩ ∈ junctionTurnout.passages by decide) reserved joined
    owner
  simpa [junctionShort] using follows

section Leftovers

/-- On the junction a route from `w` to `e` was set and has been given up again. -/
def clearedJunction : Operation :=
  (Operation.start? {} junction [] {} [
    .write ⟨2⟩ true, .turn 1, .turn 2, .turn 3, .turn 2, .turn 1, .turn 0,
    .write ⟨2⟩ false, .turn 1, .turn 2, .turn 3, .turn 1, .turn 2]).get (by decide +kernel)

theorem clearedJunction_shows :
    clearedJunction.TrainFree ∧
    (∀ var ∈ clearedJunction.layout.requests, clearedJunction.machine.get var = .ok false) ∧
    (∀ index < clearedJunction.machine.cells.size,
      (clearedJunction.machine.evaluate index).map (·.1.memory) =
        .ok clearedJunction.machine.memory) ∧
    clearedJunction.layout.piece? ⟨1⟩ = some junctionTurnout := by
  decide +kernel

end Leftovers

/-- Without trains nothing is left over: when no endpoint and no signal asks for a route and
no turn would change a variable, no passage is in use and no side shows anything. -/
theorem no_reservation_is_left_over (operation : Operation) (free : operation.TrainFree)
    (unasked : ∀ var ∈ operation.layout.requests, operation.machine.get var = .ok false)
    (still : ∀ index next changed, operation.machine.evaluate index = .ok (next, changed) →
      next.memory = operation.machine.memory) :
    (∀ id piece, operation.layout.piece? id = some piece →
      (∀ passage ∈ piece.passages, operation.machine.get passage.route = .ok false ∧
        operation.machine.get passage.pending = .ok false) ∧
      ∀ seen ∈ piece.seen?, operation.machine.get seen = .ok false) ∧
    ∀ side record mate, operation.layout.side? side = some record → record.mate = some mate →
      operation.machine.get record.bits.request = .ok false ∧
        operation.machine.get record.bits.granted = .ok false ∧
        operation.machine.get record.bits.denied = .ok false ∧
        operation.machine.get record.bits.released = .ok false := by
  have sound : operation.layout.Sound := operation.sound.layout
  have calm := free.calm
  have orderly := calm.safe.orderly
  have undetected := free.undetected _ _ (List.prefix_refl _) operation.played
  have rest : operation.layout.AtRest (operation.layout.panel operation.machine.memory) :=
    calm.atRest sound undetected still
  have unreserved : ∀ {id passage}, operation.layout.Way id passage →
      operation.layout.panel operation.machine.memory (.route passage) = false :=
    rest.not_route sound orderly free.vacant calm.undisturbed (calm.not_requested sound unasked)
      (Layout.signal_not_requested unasked)
  have settled : ∀ {id passage}, operation.layout.Way id passage →
      operation.layout.panel operation.machine.memory (.pending passage) = false :=
    rest.not_pending sound orderly calm.undisturbed
  constructor
  · intro id piece found
    refine ⟨fun passage member => ?_, fun seen known => ?_⟩
    · have way : operation.layout.Way id passage := ⟨piece, found, member⟩
      rw [(calm.safe.get_way sound way).1, (calm.safe.get_way sound way).2, unreserved way,
        settled way]
      exact ⟨rfl, rfl⟩
    · have member : (.seen id, seen) ∈ piece.roles id := by
        simp [Piece.roles, Option.mem_def.mp known]
      rw [calm.safe.get_eq sound (Layout.mem_roles_piece found member), calm.unnoticed.seen]
  · intro side record mate known bound
    have joined : operation.layout.mate? side = some mate := by simp [Layout.mate?, known, bound]
    have unrequested :
        operation.layout.panel operation.machine.memory (.request side) = false := by
      by_cases inner : operation.layout.Inner side
      · by_contra requested
        obtain ⟨id, passage, way, _, held⟩ :=
          (orderly.agreed.requested joined inner).mp (by simpa using requested)
        simp [Panel.Held, unreserved way, settled way] at held
      · exact calm.not_requested sound unasked joined inner
    obtain ⟨ungranted, undenied⟩ := rest.unanswered sound joined unrequested
    have unreleased := rest.unreleased sound calm.undisturbed.announced joined ungranted
    obtain ⟨request, granted, denied, released⟩ := calm.safe.get_side sound known
    rw [request, granted, denied, released, unrequested, ungranted, undenied, unreleased]
    exact ⟨rfl, rfl, rfl, rfl⟩

theorem no_reservation_is_left_over_at_junction :
    clearedJunction.TrainFree ∧
      (∀ var ∈ clearedJunction.layout.requests, clearedJunction.machine.get var = .ok false) ∧
      clearedJunction.layout.piece? ⟨1⟩ = some junctionTurnout ∧
      ∀ passage ∈ junctionTurnout.passages, clearedJunction.machine.get passage.route = .ok false ∧
        clearedJunction.machine.get passage.pending = .ok false := by
  obtain ⟨free, unasked, still, found⟩ := clearedJunction_shows
  refine ⟨free, unasked, found, ?_⟩
  refine ((no_reservation_is_left_over clearedJunction free unasked ?_).1 ⟨1⟩ junctionTurnout
    found).1
  intro index next changed evaluated
  obtain ⟨cell, turn, placed, _⟩ := Machine.evaluate_eq_ok evaluated
  have stays := still index (Array.getElem?_eq_some_iff.mp placed).1
  rw [evaluated] at stays
  exact Except.ok.inj stays

end Interlocking
