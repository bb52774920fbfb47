import Interlocking.Proofs.Operation

/-!
# Safety of the reserved routes

The safety properties of a layout in operation, read off the bits of the machine: the
directions of a piece exclude one another, no two routes meet head-on at a joint, a turnout
never moves under a reservation, and the handshake bits agree with the reservations for
which they stand.
-/

namespace Interlocking

namespace Layout

variable {layout : Layout} {machine : Machine}

section Reading

variable (sound : layout.Sound) (size : machine.memory.bits.size = layout.table.span)

include sound size

/-- A bit of the layout can be read, and shows what the panel shows. -/
theorem Sound.get_eq {role : Role} {var : Var} (member : (role, var) ∈ layout.roles) :
    machine.get var = .ok (layout.panel machine.memory role) := by
  apply Memory.read_eq_ok.mpr
  constructor
  · rw [size]
    exact sound.reserved _ member
  · rw [← panel_role, sound.role_eq member]

theorem Sound.get_way {id : PieceId} {passage : Passage} (way : layout.Way id passage) :
    machine.get passage.route = .ok (layout.panel machine.memory (.route passage)) ∧
      machine.get passage.pending = .ok (layout.panel machine.memory (.pending passage)) :=
  ⟨sound.get_eq size way.mem_roles.1, sound.get_eq size way.mem_roles.2⟩

theorem Sound.get_side {side : SideId} {record : Side} (found : layout.side? side = some record) :
    machine.get record.bits.request = .ok (layout.panel machine.memory (.request side)) ∧
      machine.get record.bits.granted = .ok (layout.panel machine.memory (.granted side)) ∧
      machine.get record.bits.denied = .ok (layout.panel machine.memory (.denied side)) ∧
      machine.get record.bits.released = .ok (layout.panel machine.memory (.released side)) := by
  have shown : ∀ entry ∈ record.bits.roles side,
      machine.get entry.2 = .ok (layout.panel machine.memory entry.1) :=
    fun _ member => sound.get_eq size (mem_roles_side found member)
  simpa [Handshake.roles] using shown

end Reading

theorem Safe.get_eq (safe : layout.Safe machine) (sound : layout.Sound) {role : Role} {var : Var}
    (member : (role, var) ∈ layout.roles) :
    machine.get var = .ok (layout.panel machine.memory role) :=
  sound.get_eq safe.size member

theorem Safe.get_way (safe : layout.Safe machine) (sound : layout.Sound) {id : PieceId}
    {passage : Passage} (way : layout.Way id passage) :
    machine.get passage.route = .ok (layout.panel machine.memory (.route passage)) ∧
      machine.get passage.pending = .ok (layout.panel machine.memory (.pending passage)) :=
  sound.get_way safe.size way

/-- The reading of the bits tells whether a passage is in use. -/
theorem Safe.held_iff (safe : layout.Safe machine) (sound : layout.Sound) {id : PieceId}
    {passage : Passage} (way : layout.Way id passage) :
    machine.get passage.route = .ok true ∨ machine.get passage.pending = .ok true ↔
      (layout.panel machine.memory).Held passage := by
  obtain ⟨reserved, pending⟩ := safe.get_way sound way
  simp only [reserved, pending, Except.ok.injEq, Panel.Held]

theorem Safe.get_side (safe : layout.Safe machine) (sound : layout.Sound) {side : SideId}
    {record : Side} (found : layout.side? side = some record) :
    machine.get record.bits.request = .ok (layout.panel machine.memory (.request side)) ∧
      machine.get record.bits.granted = .ok (layout.panel machine.memory (.granted side)) ∧
      machine.get record.bits.denied = .ok (layout.panel machine.memory (.denied side)) ∧
      machine.get record.bits.released = .ok (layout.panel machine.memory (.released side)) :=
  sound.get_side safe.size found

/-- At most one of the bits of a list of passages of one piece is set. -/
theorem Exclusive.count_le_one {panel : Panel} (exclusive : layout.Exclusive panel) {id : PieceId}
    {passages : List Passage} (nodup : passages.Nodup)
    (ways : ∀ passage ∈ passages, layout.Way id passage) :
    (passages.flatMap fun passage =>
      [panel (.route passage), panel (.pending passage)]).count true ≤ 1 := by
  induction passages with
  | nil => exact Nat.zero_le _
  | cons passage passages ih =>
      obtain ⟨absent, nodup⟩ := List.nodup_cons.mp nodup
      obtain ⟨way, ways⟩ := List.forall_mem_cons.mp ways
      rw [List.flatMap_cons, List.count_append]
      -- If the first passage is in use, no other one shows a bit; otherwise it shows none itself.
      by_cases held : panel.Held passage
      · have others : (passages.flatMap fun passage =>
            [panel (.route passage), panel (.pending passage)]).count true = 0 := by
          apply List.count_eq_zero.mpr
          intro member
          obtain ⟨other, listed, shown⟩ := List.mem_flatMap.mp member
          simp only [List.mem_cons, List.not_mem_nil, or_false] at shown
          have used : panel.Held other := shown.imp Eq.symm Eq.symm
          exact absent (exclusive.alone way (ways other listed) held used ▸ listed)
        have settled := exclusive.settled way
        rw [others]
        cases reserved : panel (.route passage) <;> cases pending : panel (.pending passage) <;>
          simp_all
      · have unset : [panel (.route passage), panel (.pending passage)].count true = 0 := by
          simp_all [Panel.Held]
        rw [unset, Nat.zero_add]
        exact ih nodup ways

/-- The bits of passages can be read one after another. -/
theorem Safe.mapM_get (safe : layout.Safe machine) (sound : layout.Sound) {id : PieceId}
    {passages : List Passage} (ways : ∀ passage ∈ passages, layout.Way id passage) :
    (passages.flatMap fun passage => [passage.route, passage.pending]).mapM machine.get =
      .ok (passages.flatMap fun passage => [layout.panel machine.memory (.route passage),
        layout.panel machine.memory (.pending passage)]) := by
  induction passages with
  | nil => rfl
  | cons passage passages ih =>
      obtain ⟨way, ways⟩ := List.forall_mem_cons.mp ways
      obtain ⟨reserved, pending⟩ := safe.get_way sound way
      simp only [List.flatMap_cons, List.cons_append, List.nil_append, List.mapM_cons, reserved,
        pending, ih ways]
      rfl

section Piece

variable {id : PieceId} {piece : Piece} {passage : Passage}

/-- The position bit of a movable turnout suits a passage in use. -/
theorem Safe.get_position (safe : layout.Safe machine) (sound : layout.Sound)
    (found : layout.piece? id = some piece) {position : Var}
    (movable : piece.position? = some position) (member : passage ∈ piece.passages)
    (held : (layout.panel machine.memory).Held passage) :
    ∃ needed, passage.position = some needed ∧ machine.get position = .ok needed.bit := by
  obtain ⟨needed, needs⟩ := (sound.shaped found).position_of_movable movable member
  have stands := safe.orderly.exclusive.aligned ⟨piece, found, member⟩ held needed needs
  exact ⟨needed, needs, stands ▸ safe.get_eq sound (mem_roles_position found movable)⟩

theorem Safe.get_of_free (safe : layout.Safe machine) (sound : layout.Sound)
    (free : layout.Free (layout.panel machine.memory) id) (way : layout.Way id passage) :
    machine.get passage.route = .ok false ∧ machine.get passage.pending = .ok false := by
  obtain ⟨reserved, pending⟩ := safe.get_way sound way
  rw [reserved, pending]
  simpa [Panel.Held] using free passage way

end Piece

section Side

variable {side mate : SideId} {record : Side} {piece : Piece}

/-- The request bit tells whether a passage that leaves through the side is in use. -/
theorem Safe.request_iff (safe : layout.Safe machine) (sound : layout.Sound)
    (found : layout.side? side = some record) (joined : layout.mate? side = some mate)
    (owner : layout.piece? record.owner = some piece) (inner : ∀ own, piece.body ≠ .endpoint own) :
    machine.get record.bits.request = .ok true ↔
      ∃ passage ∈ piece.passages, passage.exit = side ∧
        (machine.get passage.route = .ok true ∨ machine.get passage.pending = .ok true) := by
  have owned : layout.Inner side := ⟨piece, by simp [owner?, found, owner], inner⟩
  rw [(safe.get_side sound found).1, Except.ok.injEq, safe.orderly.agreed.requested joined owned]
  constructor
  · rintro ⟨id, passage, way, exits, held⟩
    obtain ⟨piece', known, listed⟩ := sound.owned found
    obtain rfl := Option.some.inj (owner.symm.trans known)
    exact ⟨passage, sound.mem_passages owner listed way exits, exits,
      (safe.held_iff sound way).mpr held⟩
  · rintro ⟨passage, member, exits, held⟩
    have way : layout.Way record.owner passage := ⟨piece, owner, member⟩
    exact ⟨_, passage, way, exits, (safe.held_iff sound way).mp held⟩

/-- A route over a joint stands on a grant that nobody has taken back. -/
theorem Safe.get_of_route (safe : layout.Safe machine) (sound : layout.Sound)
    (found : layout.side? side = some record) (joined : layout.mate? side = some mate)
    {id : PieceId} {passage : Passage} (way : layout.Way id passage) (exits : passage.exit = side)
    (route : machine.get passage.route = .ok true) :
    machine.get record.bits.granted = .ok true ∧ machine.get record.bits.denied = .ok false ∧
      machine.get record.bits.released = .ok false := by
  obtain ⟨-, granted, denied, released⟩ := safe.get_side sound found
  rw [(safe.get_way sound way).1, Except.ok.injEq] at route
  subst exits
  have stands := safe.orderly.agreed.granted way joined route
  rw [granted, denied, released, stands.1, stands.2.1, stands.2.2]
  exact ⟨rfl, rfl, rfl⟩

end Side

end Layout

section Junction

/-- A turnout between the endpoint `w` and, on its closed branch, a short piece and the
endpoint `e`. Besides, there is an arbiter with one client. -/
def junction : List Order := [
  .external "c", .external "d", .endpoint "w", .movableTurnout "t" ⟨⟨0⟩, ⟨1⟩⟩, .short "s",
  .endpoint "e", .join ⟨0⟩ ⟨1⟩, .join ⟨2⟩ ⟨4⟩, .join ⟨5⟩ ⟨6⟩, .arbiter "f", .client 0 "k"]

/-- The arbiter of the junction. -/
def junctionArbiter : Source := .permission ⟨"f", [⟨"k", ⟨114⟩, ⟨115⟩, ⟨116⟩⟩]⟩

/-- The turnout of the junction. -/
def junctionTurnout : Piece where
  name := "t"
  occupancy := ⟨42⟩
  body := .turnout {
    kind := .movable ⟨⟨0⟩, ⟨1⟩⟩ ⟨52⟩ ⟨53⟩
    points := ⟨1⟩
    closed := ⟨2⟩
    thrown := ⟨3⟩
    seen := ⟨43⟩
    passages := [
      ⟨⟨1⟩, ⟨2⟩, ⟨44⟩, ⟨45⟩, some .closed⟩, ⟨⟨1⟩, ⟨3⟩, ⟨46⟩, ⟨47⟩, some .thrown⟩,
      ⟨⟨2⟩, ⟨1⟩, ⟨48⟩, ⟨49⟩, some .closed⟩, ⟨⟨3⟩, ⟨1⟩, ⟨50⟩, ⟨51⟩, some .thrown⟩] }

/-- The short piece of the junction. -/
def junctionShort : Piece where
  name := "s"
  occupancy := ⟨82⟩
  body := .straight {
    kind := .short
    a := ⟨4⟩
    b := ⟨5⟩
    seen := ⟨83⟩
    ab := ⟨⟨4⟩, ⟨5⟩, ⟨84⟩, ⟨85⟩, none⟩
    ba := ⟨⟨5⟩, ⟨4⟩, ⟨86⟩, ⟨87⟩, none⟩ }

/-- A route from `w` to `e` is set; then the turnout is told to move. -/
def reservedJunction : Operation :=
  (Operation.start? {} junction [junctionArbiter] {} [
    .write ⟨2⟩ true, .turn 1, .turn 2, .turn 3, .turn 2, .turn 1, .write ⟨0⟩ true, .turn 4,
    .turn 1]).get (by decide +kernel)

theorem reservedJunction_shows :
    reservedJunction.layout.piece? ⟨1⟩ = some junctionTurnout ∧
    reservedJunction.layout.piece? ⟨2⟩ = some junctionShort ∧
    reservedJunction.layout.side? ⟨2⟩ = some ⟨"closed", ⟨1⟩, ⟨⟨26⟩, ⟨27⟩, ⟨28⟩, ⟨29⟩⟩, some ⟨4⟩⟩ ∧
    reservedJunction.layout.side? ⟨4⟩ = some ⟨"a", ⟨2⟩, ⟨⟨66⟩, ⟨67⟩, ⟨68⟩, ⟨69⟩⟩, some ⟨2⟩⟩ ∧
    reservedJunction.machine.get ⟨44⟩ = .ok true := by
  decide +kernel

/-- The turnout is told to move while no route is set. -/
def vacantJunction : Operation :=
  (Operation.start? {} junction [junctionArbiter] {} [.write ⟨0⟩ true]).get (by decide +kernel)

theorem vacantJunction_moves :
    vacantJunction.layout.piece? ⟨1⟩ = some junctionTurnout ∧
    vacantJunction.machine.get ⟨52⟩ = .ok false ∧
    (vacantJunction.machine.react (.turn 1) >>= fun next => next.get ⟨52⟩) = .ok true := by
  decide +kernel

end Junction

/-- At most one of all route and pending bits of a piece is set, whatever happens. -/
theorem directions_exclude_one_another (operation : Operation) {id : PieceId} {piece : Piece}
    (found : operation.layout.piece? id = some piece) :
    ∃ values,
      (piece.passages.flatMap fun passage => [passage.route, passage.pending]).mapM
        operation.machine.get = .ok values ∧ values.count true ≤ 1 := by
  have sound : operation.layout.Sound := operation.sound.layout
  have ways : ∀ passage ∈ piece.passages, operation.layout.Way id passage :=
    fun passage member => ⟨piece, found, member⟩
  exact ⟨_, operation.safe.mapM_get sound ways,
    operation.safe.orderly.exclusive.count_le_one (sound.shaped found).nodup ways⟩

theorem directions_exclude_one_another_at_junction :
    reservedJunction.layout.piece? ⟨1⟩ = some junctionTurnout ∧ ∃ values,
      (junctionTurnout.passages.flatMap fun passage => [passage.route, passage.pending]).mapM
        reservedJunction.machine.get = .ok values ∧ values.count true ≤ 1 := by
  obtain ⟨found, _⟩ := reservedJunction_shows
  exact ⟨found, directions_exclude_one_another reservedJunction found⟩

/-- No route leaves a piece through a side while a route leaves the neighbour through the
side joined to it. -/
theorem no_head_on_routes (operation : Operation) {left right : SideId}
    (joined : operation.layout.mate? left = some right) {piece neighbour : Piece}
    (owner : operation.layout.owner? left = some piece)
    (other : operation.layout.owner? right = some neighbour) {passage opposite : Passage}
    (member : passage ∈ piece.passages) (leaves : passage.exit = left)
    (against : opposite ∈ neighbour.passages) (meets : opposite.exit = right) :
    operation.machine.get passage.route = .ok false ∨
      operation.machine.get opposite.route = .ok false := by
  have sound : operation.layout.Sound := operation.sound.layout
  obtain ⟨record, _, found⟩ := Option.bind_eq_some_iff.mp owner
  obtain ⟨record', _, found'⟩ := Option.bind_eq_some_iff.mp other
  have way : operation.layout.Way record.owner passage := ⟨piece, found, member⟩
  have way' : operation.layout.Way record'.owner opposite := ⟨neighbour, found', against⟩
  rw [(operation.safe.get_way sound way).1, (operation.safe.get_way sound way').1]
  by_contra both
  simp only [Except.ok.injEq, not_or, Bool.not_eq_false] at both
  exact operation.safe.orderly.apart joined
    ⟨⟨_, passage, way, leaves, .inl both.1⟩, ⟨_, opposite, way', meets, .inl both.2⟩⟩

theorem no_head_on_routes_at_junction :
    reservedJunction.layout.mate? ⟨2⟩ = some ⟨4⟩ ∧
      reservedJunction.layout.owner? ⟨2⟩ = some junctionTurnout ∧
      reservedJunction.layout.owner? ⟨4⟩ = some junctionShort ∧
      reservedJunction.machine.get ⟨44⟩ = .ok true ∧
      reservedJunction.machine.get ⟨86⟩ = .ok false := by
  obtain ⟨foundTurnout, foundShort, closed, a, route⟩ := reservedJunction_shows
  have joined : reservedJunction.layout.mate? ⟨2⟩ = some ⟨4⟩ := by simp [Layout.mate?, closed]
  have owner : reservedJunction.layout.owner? ⟨2⟩ = some junctionTurnout := by
    simp [Layout.owner?, closed, foundTurnout]
  have other : reservedJunction.layout.owner? ⟨4⟩ = some junctionShort := by
    simp [Layout.owner?, a, foundShort]
  have apart := no_head_on_routes reservedJunction joined owner other
    (show ⟨⟨1⟩, ⟨2⟩, ⟨44⟩, ⟨45⟩, some .closed⟩ ∈ junctionTurnout.passages by decide) rfl
    (show ⟨⟨5⟩, ⟨4⟩, ⟨86⟩, ⟨87⟩, none⟩ ∈ junctionShort.passages by decide) rfl
  refine ⟨joined, owner, other, route, apart.resolve_left ?_⟩
  rw [route]
  decide

/-- A movable turnout stands as the reserved passage needs it, and it moves only in a turn
at the end of which none of its passages is in use. -/
theorem turnout_stands_under_reservation (operation : Operation) {id : PieceId} {piece : Piece}
    (found : operation.layout.piece? id = some piece) {position : Var}
    (movable : piece.position? = some position) :
    (∀ passage ∈ piece.passages,
      operation.machine.get passage.route = .ok true ∨
        operation.machine.get passage.pending = .ok true →
      ∃ needed, passage.position = some needed ∧
        operation.machine.get position = .ok needed.bit) ∧
    ∀ event next, operation.layout.Permits event → operation.machine.react event = .ok next →
      next.get position ≠ operation.machine.get position →
      (∃ index, event = .turn index) ∧ ∀ passage ∈ piece.passages,
        next.get passage.route = .ok false ∧ next.get passage.pending = .ok false := by
  have sound : operation.layout.Sound := operation.sound.layout
  constructor
  · intro passage member held
    have way : operation.layout.Way id passage := ⟨piece, found, member⟩
    have used := (operation.safe.held_iff sound way).mp held
    exact operation.safe.get_position sound found movable member used
  · intro event next permitted reacted moved
    have positioned := Layout.mem_roles_position found movable
    obtain ⟨safe, stands⟩ := operation.safe.react sound permitted reacted
    rw [safe.get_eq sound positioned, operation.safe.get_eq sound positioned] at moved
    rcases stands id with same | ⟨turn, free⟩
    · exact absurd (congrArg Except.ok same) moved
    · exact ⟨turn, fun passage member => safe.get_of_free sound free ⟨piece, found, member⟩⟩

theorem turnout_stands_under_reservation_at_junction :
    reservedJunction.layout.piece? ⟨1⟩ = some junctionTurnout ∧
      junctionTurnout.position? = some ⟨52⟩ ∧ reservedJunction.machine.get ⟨44⟩ = .ok true ∧
      reservedJunction.machine.get ⟨52⟩ = .ok Position.closed.bit ∧
      ∃ next, vacantJunction.machine.react (.turn 1) = .ok next ∧
        next.get ⟨52⟩ ≠ vacantJunction.machine.get ⟨52⟩ ∧ ∀ passage ∈ junctionTurnout.passages,
          next.get passage.route = .ok false ∧ next.get passage.pending = .ok false := by
  obtain ⟨found, _, _, _, route⟩ := reservedJunction_shows
  obtain ⟨foundVacant, stood, stands⟩ := vacantJunction_moves
  have aligned := (turnout_stands_under_reservation reservedJunction found rfl).1
    ⟨⟨1⟩, ⟨2⟩, ⟨44⟩, ⟨45⟩, some .closed⟩ (by decide) (.inl route)
  obtain ⟨needed, needs, aligned⟩ := aligned
  obtain rfl := Option.some.inj needs
  cases reacted : vacantJunction.machine.react (.turn 1) with
  | error failure => simp [reacted, bind, Except.bind] at stands
  | ok next =>
      have moved : next.get ⟨52⟩ ≠ vacantJunction.machine.get ⟨52⟩ := by
        simp only [reacted, bind, Except.bind] at stands
        rw [stands, stood]
        decide
      have free := (turnout_stands_under_reservation vacantJunction foundVacant rfl).2
        (.turn 1) next trivial reacted moved
      exact ⟨found, rfl, route, aligned, next, rfl, moved, free.2⟩

/-- The handshake bits of a side that is joined to another. A piece asks at the side exactly
while it holds a passage that leaves there, a route over the side has a standing grant, and
no request is both granted and denied. -/
theorem handshake_tells_reservations (operation : Operation) {side mate : SideId} {record : Side}
    (found : operation.layout.side? side = some record) (joined : record.mate = some mate)
    {piece : Piece} (owner : operation.layout.piece? record.owner = some piece) :
    ((∀ own, piece.body ≠ .endpoint own) →
      (operation.machine.get record.bits.request = .ok true ↔
        ∃ passage ∈ piece.passages, passage.exit = side ∧
          (operation.machine.get passage.route = .ok true ∨
            operation.machine.get passage.pending = .ok true)) ∧
      ∀ passage ∈ piece.passages, passage.exit = side →
        operation.machine.get passage.route = .ok true →
        operation.machine.get record.bits.granted = .ok true ∧
          operation.machine.get record.bits.denied = .ok false ∧
          operation.machine.get record.bits.released = .ok false) ∧
    ∃ granted denied, operation.machine.get record.bits.granted = .ok granted ∧
      operation.machine.get record.bits.denied = .ok denied ∧
      ¬(granted = true ∧ denied = true) := by
  have sound : operation.layout.Sound := operation.sound.layout
  have safe := operation.safe
  have bound : operation.layout.mate? side = some mate := by
    simp [Layout.mate?, found, joined]
  obtain ⟨-, granted, denied, -⟩ := safe.get_side sound found
  refine ⟨?_, _, _, granted, denied, ?_⟩
  · intro inner
    refine ⟨safe.request_iff sound found bound owner inner, ?_⟩
    intro passage member exits route
    exact safe.get_of_route sound found bound ⟨piece, owner, member⟩ exits route
  · rintro ⟨yes, no⟩
    rw [safe.orderly.agreed.answered side yes] at no
    cases no

theorem handshake_tells_reservations_at_junction :
    reservedJunction.layout.side? ⟨2⟩ = some ⟨"closed", ⟨1⟩, ⟨⟨26⟩, ⟨27⟩, ⟨28⟩, ⟨29⟩⟩, some ⟨4⟩⟩ ∧
      reservedJunction.layout.piece? ⟨1⟩ = some junctionTurnout ∧
      reservedJunction.machine.get ⟨26⟩ = .ok true ∧ reservedJunction.machine.get ⟨27⟩ = .ok true ∧
      reservedJunction.machine.get ⟨28⟩ = .ok false ∧
      reservedJunction.machine.get ⟨29⟩ = .ok false := by
  obtain ⟨found, _, closed, _, route⟩ := reservedJunction_shows
  have member : ⟨⟨1⟩, ⟨2⟩, ⟨44⟩, ⟨45⟩, some .closed⟩ ∈ junctionTurnout.passages := by decide
  obtain ⟨requested, granted⟩ := (handshake_tells_reservations reservedJunction closed rfl found).1
    (by simp [junctionTurnout])
  exact ⟨closed, found, requested.mpr ⟨_, member, rfl, .inl route⟩, granted _ member rfl route⟩

end Interlocking
