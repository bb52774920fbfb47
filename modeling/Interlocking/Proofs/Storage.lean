import Interlocking.Arena.Timetable

/-!
# How layouts are stored

A layout is a theory of an arena: each of its pieces has exactly the bits, sides and passages of its
kind, where the record of an element has optional bits and lists. To every layout belongs the arena
in which it is stored. Whatever is built on a layout, the same operation on the arena does the same
to the stored layout, fails in the same way and leaves the same behind when it fails.
-/

namespace Interlocking

/-! ## Records -/

/-- The kind of a straight piece, without the bits of its own. -/
def StraightKind.track : StraightKind → TrackKind
  | .short => .short
  | .long => .long
  | .detector sensor => .detector sensor
  | .filtered raw window _ => .filtered raw window
  | .signal request aspect _ => .signal request aspect

/-- The bit that only a filter or a signal has. -/
def StraightKind.helper? : StraightKind → Option Var
  | .filtered _ _ shadow => some shadow
  | .signal _ _ used => some used
  | _ => none

/-- The kind of a turnout, without the bits of its own. -/
def TurnoutKind.drive : TurnoutKind → DriveKind
  | .fixed position => .fixed position
  | .movable motor _ _ => .movable motor

/-- The kind of the element that stores a piece. -/
def Body.kind : Body → ElementKind
  | .straight { kind, .. } => .straight kind.track
  | .turnout { kind, .. } => .turnout kind.drive
  | .endpoint _ => .endpoint

/-- The element that stores a piece. -/
def Piece.element (piece : Piece) : Element where
  name := piece.name
  kind := piece.body.kind
  sides := piece.sides
  occupancy := piece.occupancy
  seen := piece.seen?
  helper := piece.helper?
  passages := piece.passages
  position := piece.position?
  anyRoute := piece.anyRoute?

/-- The arena that stores a layout. -/
def Layout.arena (layout : Layout) : Arena where
  table := layout.table
  sides := layout.sides
  elements := layout.pieces.map Piece.element
  names := layout.names
  debounceCycles := layout.debounceCycles

/-! ## Corresponding actions -/

section Corresponding

variable {σ τ α β γ δ : Type}

/-- What an action has come to, in terms of other states and results. -/
def mapOutcome (store : σ → τ) (convert : α → β) :
    EStateM.Result Failure σ α → EStateM.Result Failure τ β
  | .ok result state => .ok (convert result) (store state)
  | .error failure state => .error failure (store state)

/-- From a state and from what stores it, the actions come to the same. -/
def Corresponds (store : σ → τ) (convert : α → β) (stored : EStateM Failure τ β)
    (built : EStateM Failure σ α) (state : σ) : Prop :=
  stored (store state) = mapOutcome store convert (built state)

variable {store : σ → τ} {convert : α → β} {convert' : γ → δ} {stored : EStateM Failure τ β}
  {built : EStateM Failure σ α} {state : σ}

theorem Corresponds.get : Corresponds store store MonadState.get MonadState.get state := rfl

theorem Corresponds.pure (result : α) :
    Corresponds store convert (Pure.pure (convert result)) (Pure.pure result) state := rfl

/-- Sequences of corresponding actions correspond. -/
theorem Corresponds.bind {stored' : β → EStateM Failure τ δ} {built' : α → EStateM Failure σ γ}
    (first : Corresponds store convert stored built state)
    (next : ∀ result after, built state = .ok result after →
      Corresponds store convert' (stored' (convert result)) (built' result) after) :
    Corresponds store convert' (stored >>= stored') (built >>= built') state := by
  unfold Corresponds at first ⊢
  cases run : built state with
  | ok result after =>
      have later := next result after run
      rw [run] at first
      simp only [Bind.bind, EStateM.bind, first, run, mapOutcome]
      exact later
  | error failure after =>
      rw [run] at first
      simp only [Bind.bind, EStateM.bind, first, run, mapOutcome]

/-- Actions of which the images come to the same fail alike, or give results with the same image. -/
theorem alike_of_map_eq {left : EStateM Failure σ α} {right : EStateM Failure σ β} {f : α → γ}
    {g : β → γ} (same : (f <$> left) state = (g <$> right) state) :
    (∃ failure after, left state = .error failure after ∧ right state = .error failure after) ∨
      ∃ a b after, left state = .ok a after ∧ right state = .ok b after ∧ f a = g b := by
  simp only [Functor.map, EStateM.map] at same
  generalize left state = first, right state = second at same ⊢
  cases first with
  | error failure after =>
      cases second with
      | error =>
          cases same
          exact .inl ⟨failure, after, rfl, rfl⟩
      | ok => cases same
  | ok a after =>
      cases second with
      | error => cases same
      | ok b later =>
          obtain ⟨image, rfl⟩ := EStateM.Result.ok.inj same
          exact .inr ⟨a, b, after, rfl, rfl, image⟩

end Corresponding

/-- On a layout and on the arena that stores it, the actions come to the same. -/
abbrev Layout.Stores {α β : Type} (layout : Layout) (convert : α → β) (stored : Assembly β)
    (built : Build α) : Prop :=
  Corresponds Layout.arena convert stored built layout

namespace Layout

variable {layout : Layout} {α : Type}

theorem stores_onTable (action : EStateM Failure Table α) :
    layout.Stores id (Arena.onTable action) (onTable action) := by
  have same : layout.arena.table = layout.table := rfl
  unfold Stores Corresponds Arena.onTable onTable
  rw [same]
  cases action layout.table <;> rfl

theorem stores_external (name : String) :
    layout.Stores id (Arena.external name) (external name) := stores_onTable _

end Layout

/-! ## Additions -/

/-- The element that an addition has prepared. -/
def Draft.element (draft : Draft) (name : String) : Element :=
  Piece.element { name, occupancy := draft.occupancy, body := draft.body }

section Elements

variable (sides : List Side) (occupancy : Var) (name : String)

@[simp]
theorem Draft.element_straight (straight : Straight) :
    Draft.element ⟨sides, occupancy, .straight straight⟩ name = {
      name, occupancy
      kind := .straight straight.kind.track
      sides := [straight.a, straight.b]
      seen := some straight.seen
      helper := straight.kind.helper?
      passages := [straight.ab, straight.ba] } := by
  obtain ⟨lane, kind, a, b⟩ := straight
  cases kind <;> rfl

@[simp]
theorem Draft.element_fixed (position : Position) (points closed thrown : SideId) (seen : Var)
    (passages : List Passage) :
    Draft.element ⟨sides, occupancy, .turnout ⟨.fixed position, points, closed, thrown, seen,
      passages⟩⟩ name = {
        name, occupancy, passages
        kind := .turnout (.fixed position)
        sides := [points, closed, thrown]
        seen := some seen } := rfl

@[simp]
theorem Draft.element_movable (motor : Motor) (position anyRoute : Var)
    (points closed thrown : SideId) (seen : Var) (passages : List Passage) :
    Draft.element ⟨sides, occupancy, .turnout ⟨.movable motor position anyRoute, points, closed,
      thrown, seen, passages⟩⟩ name = {
        name, occupancy, passages
        kind := .turnout (.movable motor)
        sides := [points, closed, thrown]
        seen := some seen
        position := some position
        anyRoute := some anyRoute } := rfl

@[simp]
theorem Draft.element_endpoint (side : SideId) :
    Draft.element ⟨sides, occupancy, .endpoint side⟩ name =
      { name, occupancy, kind := .endpoint, sides := [side] } := rfl

end Elements

theorem Table.within_map {α β : Type} (name : String) (count : UInt32) (convert : α → β)
    (action : Scoped α) : Table.within name count (convert <$> action) =
      convert <$> Table.within name count action := by
  funext table
  simp only [Table.within, Functor.map, EStateM.map]
  cases Table.reserve count name table with
  | error failure after => rfl
  | ok first after =>
      dsimp only
      cases action
        ({ path := qualify after.name name, next := first, limit := first + count }, after) <;> rfl

namespace Layout

variable {layout : Layout} {name : String}

/-- An element is added as a piece is, if both prepare the same sides and the same record. -/
theorem stores_addPiece {kind : ElementKind} {count : UInt32} {labels : List String}
    {fill : List SideId → Scoped Parts} {draft : PieceId → Nat → Scoped Draft}
    (prepared : ∀ id first,
      (fun (sides, numbers, parts) =>
        (sides, { toParts := parts, name, kind, sides := numbers : Element })) <$>
          Arena.prepare labels fill id first =
        (fun draft => (draft.sides, draft.element name)) <$> draft id first) :
    layout.Stores id (Arena.insertElement name kind count labels fill)
      (addPiece name count draft) := by
  unfold Stores Corresponds Arena.insertElement addPiece
  by_cases known : name ∈ layout.names
  · have stored : name ∈ layout.arena.names := known
    rw [if_pos stored, if_pos known]
    rfl
  · have stored : name ∉ layout.arena.names := known
    have size : layout.arena.elements.size = layout.pieces.size := Array.size_map
    rw [if_neg stored, if_neg known, size]
    have same := congrArg (Table.within name count · layout.table)
      (prepared ⟨layout.pieces.size⟩ layout.sides.size)
    simp only [Table.within_map] at same
    have table : layout.arena.table = layout.table := rfl
    have sides : layout.arena.sides = layout.sides := rfl
    simp only [table, sides]
    rcases alike_of_map_eq same with
      ⟨failure, after, assembled, drafted⟩ | ⟨parts, made, after, assembled, drafted, image⟩
    · rw [assembled, drafted]
      rfl
    · obtain ⟨sides, element⟩ := Prod.mk.inj image
      simp only [assembled, drafted, mapOutcome, sides, element]
      simp [Layout.arena, Draft.element]

/-- The bits of a straight element, once its sides have their numbers. -/
theorem prepare_straight (occupancy : Option Var) (helper : Option String) (id : PieceId)
    (first : Nat) : Arena.prepare ["a", "b"] (Parts.straight occupancy helper) id first = do
      let sideA ← Side.allocate "a" id
      let sideB ← Side.allocate "b" id
      let occupancy ← occupancy.elim (Scope.allocate "simulated_occ") pure
      let seen ← Scope.allocate "tmp_seen_train_in_next"
      let helper ← helper.mapM Scope.allocate
      let ab ← Passage.allocate "ab" ⟨first⟩ ⟨first + 1⟩ none
      let ba ← Passage.allocate "ba" ⟨first + 1⟩ ⟨first⟩ none
      return ([sideA, sideB], [⟨first⟩, ⟨first + 1⟩],
        { occupancy, seen := some seen, helper, passages := [ab, ba] }) := by
  simp [Arena.prepare, Parts.straight, Blades.side, MonadExcept.ofExcept, List.range_succ]

/-- A straight element is added as a straight piece is, if the additional bit that it names makes
the kind of the piece. -/
theorem stores_addStraight {track : TrackKind} {occupancy : Option Var} {helper : Option String}
    {kind : Scoped StraightKind}
    (kinds : (fun bit => (track, bit)) <$> helper.mapM Scope.allocate =
      (fun kind => (kind.track, kind.helper?)) <$> kind) :
    layout.Stores id
      (Arena.insertElement name (.straight track) Straight.bitCount ["a", "b"]
        (Parts.straight occupancy helper))
      (addStraight name (occupancy.elim (Scope.allocate "simulated_occ") pure) kind) := by
  apply stores_addPiece
  intro id first
  -- Both name the same bits; only in the middle one names a bit and the other makes a kind of it.
  have assembled (rest : TrackKind × Option Var → Scoped (List Side × Element)) :
      (do rest (track, ← helper.mapM Scope.allocate)) = (do
        let kind ← kind
        rest (kind.track, kind.helper?)) := by
    have same := congrArg (· >>= rest) kinds
    simpa using same
  rw [prepare_straight]
  simp only [Straight.draft, map_bind, map_pure, Draft.element_straight]
  refine bind_congr fun sideA => bind_congr fun sideB => bind_congr fun occupancy =>
    bind_congr fun seen => ?_
  exact assembled fun (track, helper) => do
    let ab ← Passage.allocate "ab" ⟨first⟩ ⟨first + 1⟩ none
    let ba ← Passage.allocate "ba" ⟨first + 1⟩ ⟨first⟩ none
    return ([sideA, sideB], {
      name, occupancy, helper
      kind := .straight track
      sides := [⟨first⟩, ⟨first + 1⟩]
      seen := some seen
      passages := [ab, ba] })

theorem stores_addShort : layout.Stores id (Arena.addShort name) (addShort name) :=
  stores_addStraight (by simp [StraightKind.track, StraightKind.helper?])

theorem stores_addLong : layout.Stores id (Arena.addLong name) (addLong name) :=
  stores_addStraight (by simp [StraightKind.track, StraightKind.helper?])

theorem stores_addDetector (sensor : Var) :
    layout.Stores id (Arena.addDetector name sensor) (addDetector name sensor) :=
  stores_addStraight (by simp [StraightKind.track, StraightKind.helper?])

theorem stores_addFiltered (raw : Var) (window : UInt8) :
    layout.Stores id (Arena.addFiltered name raw window) (addFiltered name raw window) :=
  stores_addStraight (by simp [StraightKind.track, StraightKind.helper?])

theorem stores_addSignal (request aspect : Var) :
    layout.Stores id (Arena.addSignal name request aspect) (addSignal name request aspect) :=
  stores_addStraight (by simp [StraightKind.track, StraightKind.helper?])

theorem stores_addEndpoint : layout.Stores id (Arena.addEndpoint name) (addEndpoint name) := by
  apply stores_addPiece
  intro id first
  simp [Arena.prepare, Parts.endpoint, Piece.endpointDraft]

theorem stores_addFixedTurnout (position : Position) :
    layout.Stores id (Arena.addFixedTurnout name position) (addFixedTurnout name position) := by
  apply stores_addPiece
  intro id first
  cases position <;>
    simp [Arena.prepare, Parts.turnout, Turnout.draft, DriveKind.plans, PassagePlan.all,
      PassagePlan.allocate, Blades.side, Blades.points, Blades.branch, MonadExcept.ofExcept,
      List.range_succ]

theorem stores_addMovableTurnout (motor : Motor) :
    layout.Stores id (Arena.addMovableTurnout name motor) (addMovableTurnout name motor) := by
  apply stores_addPiece
  intro id first
  simp [Arena.prepare, Parts.turnout, Turnout.draft, DriveKind.plans, PassagePlan.all,
    PassagePlan.allocate, Blades.side, Blades.points, Blades.branch, MonadExcept.ofExcept,
    List.range_succ]

/-! ## Lookups and joints -/

theorem side_arena (side : SideId) : layout.arena.side side = layout.side side := rfl

theorem toList_elements_arena :
    layout.arena.elements.toList = layout.pieces.toList.map Piece.element :=
  Array.toList_map ..

theorem getElem?_elements_arena (index : Nat) :
    layout.arena.elements[index]? = layout.pieces[index]?.map Piece.element :=
  Array.getElem?_map

theorem element_arena (piece : PieceId) :
    layout.arena.element piece = (layout.piece piece).map Piece.element := by
  rw [Arena.element, getElem?_elements_arena, Layout.piece, piece?]
  cases layout.pieces[piece.index]? <;> rfl

theorem owner_arena (side : SideId) :
    layout.arena.owner side = (layout.owner side).map Piece.element := by
  simp only [Arena.owner, side_arena, getElem?_elements_arena, Layout.owner, owner?, Layout.side,
    piece?]
  cases layout.side? side with
  | none => rfl
  | some record =>
      simp only [bind, Except.bind, Option.bind]
      cases layout.pieces[record.owner.index]? <;> rfl

theorem checkFree_arena (a b side : SideId) :
    layout.arena.checkFree a b side = layout.checkFree a b side := by
  simp only [Arena.checkFree, checkFree, side_arena, owner_arena]
  cases layout.side side with
  | error failure => rfl
  | ok record => cases layout.owner side <;> rfl

theorem stores_join (a b : SideId) : layout.Stores id (Arena.join a b) (join a b) := by
  unfold Stores Corresponds Arena.join join
  rw [checkFree_arena, checkFree_arena]
  cases layout.checkFree a b a with
  | error failure => rfl
  | ok free => cases layout.checkFree a b b <;> rfl

theorem stores_joinPairs (pairs : List (SideId × SideId)) :
    layout.Stores id (Arena.joinPairs pairs) (joinPairs pairs) := by
  induction pairs generalizing layout with
  | nil => exact .pure ()
  | cons pair pairs ih => exact (stores_join pair.1 pair.2).bind fun _ _ _ => ih

theorem stores_ask {α β : Type} {convert : α → β} {stored : Arena → Except Failure β}
    {question : Layout → Except Failure α}
    (same : stored layout.arena = (question layout).map convert) :
    layout.Stores convert (Arena.ask stored) (ask question) := by
  unfold Stores Corresponds Arena.ask ask
  rw [same]
  cases question layout <;> rfl

theorem entryOf_arena (run : Run) : layout.arena.entryOf run = (run.entry layout).map id := by
  simp only [Arena.entryOf, Arena.straightSide, element_arena, Run.entry, sideA, straight]
  cases layout.piece run.first with
  | error failure => rfl
  | ok piece =>
      obtain ⟨name, occupancy, body⟩ := piece
      cases body <;> rfl

theorem exitOf_arena (run : Run) : layout.arena.exitOf run = (run.exit layout).map id := by
  simp only [Arena.exitOf, Arena.straightSide, element_arena, Run.exit, sideB, straight]
  cases layout.piece run.last with
  | error failure => rfl
  | ok piece =>
      obtain ⟨name, occupancy, body⟩ := piece
      cases body <;> rfl

theorem stores_joinRuns (runs : List Run) :
    layout.Stores id (Arena.joinRuns runs) (joinRuns runs) := by
  induction runs generalizing layout with
  | nil => exact .pure ()
  | cons first runs ih =>
      cases runs with
      | nil => exact .pure ()
      | cons second runs =>
          apply (stores_ask (exitOf_arena first)).bind
          intro exit between _
          apply (stores_ask (entryOf_arena second)).bind
          intro entry before _
          exact (stores_join exit entry).bind fun _ _ _ => ih

end Layout

end Interlocking
