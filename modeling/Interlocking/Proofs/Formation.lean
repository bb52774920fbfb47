import Interlocking.Proofs.Yard

/-!
# How layouts are formed

A piece is put together in stages, and any stage may fail after earlier ones have changed the
variable table. What a layout is made of keeps its form all the same: after every sequence of
operations, the failed ones included and whatever variables the author has handed over, pieces
have different names, each side belongs to the one piece that lists it, mates are mutual, and no
variable was allocated for two things.

The same induction follows the variables themselves. All that occur in a piece or in something
declared on the layout were reserved in the table or come from the author.
-/

namespace Interlocking

namespace Layout

/-- The variable was reserved, or `given` holds of it. -/
def Knows (given : Var → Prop) (layout : Layout) (var : Var) : Prop :=
  given var ∨ var.index < layout.table.span

/-- The form of a layout whose author has handed over variables of which `given` holds. -/
structure Formed (given : Var → Prop) (layout : Layout) : Prop where
  framed : layout.Framed
  names : (layout.pieces.toList.map (·.name)).Nodup
  apart : ∀ side, layout.mate? side ≠ some side
  supplied : ∀ {id piece}, layout.piece? id = some piece →
    ∀ var ∈ piece.supplied, layout.Knows given var

variable {given : Var → Prop} {layout : Layout}

theorem Knows.grows {after : Layout} {var : Var} (known : layout.Knows given var)
    (larger : layout.table.span ≤ after.table.span) : after.Knows given var :=
  known.imp id fun below => Nat.lt_of_lt_of_le below larger

namespace Formed

theorem empty (config : Config) : (Layout.empty config).Formed given where
  framed := (empty_sound config).toFramed
  names := by simp [Layout.empty]
  apart := by simp [mate?, side?, Layout.empty]
  supplied := by simp [piece?, Layout.empty]

theorem withTable (formed : layout.Formed given) {table : Table} (inBounds : table.InBounds)
    (larger : layout.table.span ≤ table.span) : ({ layout with table }).Formed given where
  framed := formed.framed.withTable inBounds larger
  names := formed.names
  apart := formed.apart
  supplied := fun found var member => (formed.supplied found var member).grows larger

/-- A piece with a new name. -/
theorem extend (formed : layout.Formed given) {table : Table} {draft : Draft} {name : String}
    {vars : List Var} (fresh : name ∉ layout.names)
    (fits : draft.Fits name ⟨layout.pieces.size⟩ layout.sides.size (layout.Knows given) vars)
    (ascends : Ascends layout.table.span table.span vars) (inBounds : table.InBounds) :
    (layout.extend table draft name).Formed given where
  framed := formed.framed.extend fits ascends inBounds
  names := by
    have listed : (layout.extend table draft name).pieces.toList.map (·.name) =
        layout.pieces.toList.map (·.name) ++ [name] := by simp [Layout.extend, Draft.piece]
    rw [listed]
    apply List.nodup_append.mpr ⟨formed.names, List.nodup_singleton _, ?_⟩
    intro other member last isLast same
    obtain ⟨piece, isPiece, rfl⟩ := List.mem_map.mp member
    exact fresh (formed.framed.named.mpr
      ⟨piece, isPiece, same.trans (List.mem_singleton.mp isLast)⟩)
  apart := by
    intro side joined
    obtain ⟨record, found, mate⟩ := Option.bind_eq_some_iff.mp joined
    rcases side?_extend_cases found with old | ⟨later, new⟩
    · exact formed.apart side (Option.bind_eq_some_iff.mpr ⟨record, old, mate⟩)
    · rw [(new_side_of_fits fits later new).2.1] at mate
      cases mate
  supplied := by
    intro id piece found var member
    rcases piece?_extend_cases found with old | ⟨rfl, rfl⟩
    · exact (formed.supplied old var member).grows ascends.le
    · exact (fits.supplied var member).grows ascends.le

theorem join (formed : layout.Formed given) {left right : SideId} {leftSide rightSide : Side}
    (leftFound : layout.side? left = some leftSide) (leftFree : leftSide.mate = none)
    (rightFound : layout.side? right = some rightSide) (rightFree : rightSide.mate = none)
    (differ : left ≠ right) : ((layout.setMate left right).setMate right left).Formed given where
  framed := formed.framed.join leftFound leftFree rightFound rightFree differ
  names := formed.names
  apart := by
    intro side joined
    have rightStill : (layout.setMate left right).side? right = some rightSide := by
      simp [side?_setMate, rightFound, differ.symm]
    rw [mate?_setMate rightStill, mate?_setMate leftFound] at joined
    split at joined
    · rename_i isRight
      exact differ ((Option.some.inj joined).trans isRight)
    · split at joined
      · rename_i isLeft
        exact differ ((Option.some.inj joined).trans isLeft).symm
      · exact formed.apart side joined
  supplied := formed.supplied

end Formed

/-- What an operation leaves of a layout, whether it fails or not. -/
structure Becomes (given : Var → Prop) (before after : Layout) : Prop where
  formed : after.Formed given
  span : before.table.span ≤ after.table.span
  pieces : ∀ {id piece}, before.piece? id = some piece → after.piece? id = some piece

theorem Becomes.refl (formed : layout.Formed given) : layout.Becomes given layout :=
  ⟨formed, Nat.le_refl _, fun found => found⟩

theorem Becomes.trans {first second third : Layout} (early : first.Becomes given second)
    (late : second.Becomes given third) : first.Becomes given third :=
  ⟨late.formed, Nat.le_trans early.span late.span, fun found => late.pieces (early.pieces found)⟩

/-- A layout of which only the table has changed. -/
theorem Becomes.withTable {after : Layout} (formed : layout.Formed given)
    (same : after = { layout with table := after.table }) (inBounds : after.table.InBounds)
    (larger : layout.table.span ≤ after.table.span) : layout.Becomes given after := by
  refine ⟨same ▸ formed.withTable inBounds larger, larger, ?_⟩
  intro id piece found
  rw [same]
  exact found

/-- On this layout the action keeps the form, and what it makes is as `made` tells. -/
def Forms {α : Type} (given : Var → Prop) (layout : Layout) (action : Build α)
    (made : α → Layout → Prop) : Prop :=
  Outcome (action layout) (fun result after => layout.Becomes given after ∧ made result after)
    (fun after => layout.Becomes given after)

theorem Forms.bind {α β : Type} {first : Build α} {next : α → Build β}
    {made : α → Layout → Prop} {made' : β → Layout → Prop}
    (forms : layout.Forms given first made)
    (continued : ∀ value after, layout.Becomes given after → made value after →
      after.Forms given (next value) made') :
    layout.Forms given (first >>= next) made' := by
  apply Outcome.bind forms
  intro value middle ⟨becomes, holds⟩
  apply (continued value middle becomes holds).mono
  · intro result after ⟨later, holds'⟩
    exact ⟨becomes.trans later, holds'⟩
  · intro after later
    exact becomes.trans later

theorem Forms.mono {α : Type} {action : Build α} {made made' : α → Layout → Prop}
    (forms : layout.Forms given action made)
    (weaker : ∀ result after, made result after → made' result after) :
    layout.Forms given action made' :=
  Outcome.mono forms (fun result after ⟨becomes, holds⟩ => ⟨becomes, weaker result after holds⟩)
    fun _ becomes => becomes

section Operations

variable (formed : layout.Formed given)

include formed

theorem forms_ask {α : Type} (question : Layout → Except Failure α) :
    layout.Forms given (ask question)
      (fun answer after => after = layout ∧ question layout = .ok answer) := by
  unfold Forms ask
  cases question layout with
  | ok answer => exact ⟨.refl formed, rfl, rfl⟩
  | error failure => exact .refl formed

/-- Variables in a scope of their own. -/
theorem forms_within {α : Type} (name : String) (count : UInt32) {action : Scoped α}
    {handed : α → List Var → Prop} (hands : Scoped.Hands action handed) :
    layout.Forms given (onTable (Table.within name count action))
      (fun result after => ∃ vars, handed result vars ∧ ∀ var ∈ vars, after.Knows given var) := by
  have made := Table.within_outcome name count hands formed.framed.inBounds
  apply (onTable_outcome made).mono
  · intro result after ⟨same, ⟨vars, handed, ascends⟩, inBounds⟩
    refine ⟨.withTable formed same inBounds ascends.le, vars, handed, ?_⟩
    exact fun var member => .inr (ascends.bounds member).2
  · intro after ⟨same, inBounds, larger⟩
    exact .withTable formed same inBounds larger

theorem forms_external (name : String) :
    layout.Forms given (external name) (fun var after => after.Knows given var) := by
  apply (onTable_outcome (Table.allocate_outcome name formed.framed.inBounds)).mono
  · intro var after ⟨same, address, spanEq, inBounds⟩
    have larger : layout.table.span ≤ after.table.span := by omega
    exact ⟨.withTable formed same inBounds larger, .inr (by omega)⟩
  · intro after ⟨same, inBounds, larger⟩
    exact .withTable formed same inBounds larger

theorem forms_addition {action : Build PieceId} (adds : Build.Adds action (layout.Knows given)) :
    layout.Forms given action (fun _ _ => True) := by
  apply (adds_outcome adds formed.framed.inBounds).mono
  · rintro id after ⟨table, draft, name, vars, rfl, fresh, fits, ascends, inBounds⟩
    have extended := formed.extend fresh fits ascends inBounds
    exact ⟨⟨extended, ascends.le, piece?_extend_of_some⟩, trivial⟩
  · intro after ⟨same, inBounds, larger⟩
    exact .withTable formed same inBounds larger

theorem forms_join (left right : SideId) :
    layout.Forms given (join left right) (fun _ _ => True) := by
  apply (join_outcome left right).mono
  · rintro _ after ⟨rfl, differ, ⟨leftSide, leftFound, leftFree⟩, rightSide, rightFound, rightFree⟩
    have joined := formed.join leftFound leftFree rightFound rightFree differ
    exact ⟨⟨joined, Nat.le_refl _, fun found => found⟩, trivial⟩
  · rintro after rfl
    exact .refl formed

end Operations

theorem forms_joinPairs (formed : layout.Formed given) (pairs : List (SideId × SideId)) :
    layout.Forms given (joinPairs pairs) (fun _ _ => True) := by
  induction pairs generalizing layout with
  | nil => exact ⟨.refl formed, trivial⟩
  | cons pair pairs ih =>
      exact (forms_join formed pair.1 pair.2).bind fun _ _ becomes _ => ih becomes.formed

theorem forms_joinRuns (formed : layout.Formed given) (runs : List Run) :
    layout.Forms given (joinRuns runs) (fun _ _ => True) := by
  induction runs generalizing layout with
  | nil => exact ⟨.refl formed, trivial⟩
  | cons first runs ih =>
      cases runs with
      | nil => exact ⟨.refl formed, trivial⟩
      | cons second runs =>
          apply (forms_ask formed first.exit).bind
          intro exit between becomesBetween _
          apply (forms_ask becomesBetween.formed second.entry).bind
          intro entry before becomesBefore _
          apply (forms_join becomesBefore.formed exit entry).bind
          intro _ after becomes _
          exact ih becomes.formed

/-- The occupancy bit of a piece is its own or was handed to it. -/
theorem Formed.knows_occupancy (formed : layout.Formed given) {id : PieceId} {piece : Piece}
    (found : layout.piece? id = some piece) : layout.Knows given piece.occupancy := by
  cases sensed : piece.sensed with
  | true => exact formed.supplied found _ (piece.occupancy_supplied sensed)
  | false =>
      have listed : (Role.occupancy id, piece.occupancy) ∈ layout.roles :=
        mem_roles.mpr (.inr ⟨id, piece, found, piece.mem_roles_occupancy id sensed⟩)
      exact .inr (formed.framed.reserved _ listed)

theorem piece_eq_ok {id : PieceId} {piece : Piece} (found : layout.piece id = .ok piece) :
    layout.piece? id = some piece := by
  unfold Layout.piece at found
  split at found
  · rename_i known
    exact known.trans (congrArg some (Except.ok.inj found))
  · cases found

/-- The variable is the route bit of the first passage of a straight piece. -/
def HasFirstRoute (layout : Layout) (id : PieceId) (route : Var) : Prop :=
  ∃ straight, layout.straight id = .ok straight ∧ straight.ab.route = route

theorem HasFirstRoute.grows {after : Layout} {id : PieceId} {route : Var}
    (first : layout.HasFirstRoute id route)
    (pieces : ∀ {id piece}, layout.piece? id = some piece → after.piece? id = some piece) :
    after.HasFirstRoute id route := by
  obtain ⟨straight, found, same⟩ := first
  obtain ⟨piece, known, body⟩ := straight_eq_ok found
  refine ⟨straight, ?_, same⟩
  simp only [Layout.straight, Layout.piece, pieces known, bind, Except.bind, body]
  rfl

end Layout

variable {given : Var → Prop} {layout : Layout}

namespace Block

/-- The variables of a block that others refer to. -/
def vars (block : Block) : List Var := [block.detector, block.requestGreen, block.routeOut]

/-- The ways in and out of the block are passages of its approach and of its signal. -/
structure Placed (layout : Layout) (block : Block) : Prop where
  entrance : layout.HasFirstRoute block.approach block.routeIn
  exit : layout.HasFirstRoute block.signalPiece block.routeOut

theorem Placed.grows {after : Layout} {block : Block} (placed : block.Placed layout)
    (pieces : ∀ {id piece}, layout.piece? id = some piece → after.piece? id = some piece) :
    block.Placed after :=
  ⟨placed.entrance.grows pieces, placed.exit.grows pieces⟩

/-- What is true of a block after it was made. -/
structure Stands (given : Var → Prop) (layout : Layout) (block : Block) : Prop where
  known : ∀ var ∈ block.vars, layout.Knows given var
  placed : block.Placed layout

theorem forms_finish (formed : layout.Formed given) (name : String) (approach body : PieceId)
    {detector : Var} (detectorKnown : layout.Knows given detector) :
    layout.Forms given (finish name approach body detector)
      (fun block after => block.Stands given after) := by
  apply (Layout.forms_external formed _).bind
  intro requestGreen second becomesSecond requestKnown
  have detectorKnown := detectorKnown.grows becomesSecond.span
  apply (Layout.forms_external becomesSecond.formed _).bind
  intro signal third becomesThird signalKnown
  have detectorKnown := detectorKnown.grows becomesThird.span
  have requestKnown := requestKnown.grows becomesThird.span
  apply (Layout.forms_addition becomesThird.formed
    (Layout.adds_signal _ requestKnown signalKnown)).bind
  intro signalPiece fourth becomesFourth _
  have detectorKnown := detectorKnown.grows becomesFourth.span
  have requestKnown := requestKnown.grows becomesFourth.span
  apply (Layout.forms_joinRuns becomesFourth.formed _).bind
  intro _ fifth becomesFifth _
  have detectorKnown := detectorKnown.grows becomesFifth.span
  have requestKnown := requestKnown.grows becomesFifth.span
  apply (Layout.forms_ask becomesFifth.formed _).bind
  rintro entrance _ becomesSixth ⟨rfl, foundEntrance⟩
  apply (Layout.forms_ask becomesSixth.formed _).bind
  rintro exit _ becomesLast ⟨rfl, found⟩
  obtain ⟨piece, known, body⟩ := Layout.straight_eq_ok found
  have reserved : Layout.HasRoute _ exit.ab.route :=
    ⟨signalPiece, piece, known, exit.ab, by simp [Piece.passages, body], rfl⟩
  obtain ⟨role, listed⟩ := reserved.mem_roles
  have exitKnown := becomesLast.formed.framed.reserved _ listed
  refine ⟨.refl becomesLast.formed, ?_, ⟨entrance, foundEntrance, rfl⟩, ⟨exit, found, rfl⟩⟩
  intro var member
  simp only [vars, List.mem_cons, List.not_mem_nil, or_false] at member
  rcases member with rfl | rfl | rfl
  · exact detectorKnown
  · exact requestKnown
  · exact .inr exitKnown

theorem forms_make (formed : layout.Formed given) (name : String) :
    layout.Forms given (make name) (fun block after => block.Stands given after) := by
  apply (Layout.forms_external formed _).bind
  intro detector second becomesSecond detectorKnown
  apply (Layout.forms_addition becomesSecond.formed (Layout.adds_long _)).bind
  intro approach third becomesThird _
  have detectorKnown := detectorKnown.grows becomesThird.span
  apply (Layout.forms_addition becomesThird.formed (Layout.adds_detector _ detectorKnown)).bind
  intro body fourth becomesFourth _
  exact forms_finish becomesFourth.formed name approach body
    (detectorKnown.grows becomesFourth.span)

theorem forms_makeFiltered (formed : layout.Formed given) (name : String) :
    layout.Forms given (makeFiltered name) (fun block after => block.Stands given after) := by
  apply (Layout.forms_external formed _).bind
  intro raw second becomesSecond rawKnown
  apply (Layout.forms_addition becomesSecond.formed (Layout.adds_long _)).bind
  intro approach third becomesThird _
  have rawKnown := rawKnown.grows becomesThird.span
  apply Layout.Forms.bind (Layout.forms_addition becomesThird.formed
    (Layout.adds_filtered _ third.debounceCycles rawKnown))
  intro body fourth becomesFourth _
  apply (Layout.forms_ask becomesFourth.formed _).bind
  rintro piece _ becomesFifth ⟨rfl, found⟩
  exact forms_finish becomesFifth.formed name approach body
    (becomesFifth.formed.knows_occupancy (Layout.piece_eq_ok found))

end Block

theorem Arbiter.forms_allocateClient (formed : layout.Formed given) (arbiter : Arbiter)
    (name : String) : layout.Forms given (arbiter.allocateClient name)
      (fun client after => ∀ var ∈ client.vars, after.Knows given var) := by
  apply (Layout.forms_within formed _ _ (Client.allocate_hands name)).mono
  rintro client after ⟨vars, rfl, known⟩
  exact known

/-- All variables of a berth. -/
def Berth.vars (berth : Berth) : List Var :=
  [berth.here, berth.coming, berth.detector, berth.requestGreen, berth.routeOut]

section Berths

variable (berth : Berth)

@[simp] theorem Berth.here_mem_vars : berth.here ∈ berth.vars := by simp [vars]

@[simp] theorem Berth.coming_mem_vars : berth.coming ∈ berth.vars := by simp [vars]

@[simp] theorem Berth.detector_mem_vars : berth.detector ∈ berth.vars := by simp [vars]

@[simp] theorem Berth.requestGreen_mem_vars : berth.requestGreen ∈ berth.vars := by simp [vars]

@[simp] theorem Berth.routeOut_mem_vars : berth.routeOut ∈ berth.vars := by simp [vars]

end Berths

/-- The variables with which an author describes a move. -/
def Move.terms (guards : List (Var × Bool)) (turnouts : List (Motor × Position)) : List Var :=
  guards.map (·.1) ++ turnouts.flatMap fun (motor, _) => [motor.command, motor.current]

/-- All variables of a move. -/
def Move.vars (move : Move) : List Var :=
  move.active :: (move.source.vars ++ move.target.vars ++ move.client.toList.flatMap Client.vars ++
    Move.terms move.guards move.turnouts)

namespace Schedule

/-- All variables of a schedule. -/
def vars (schedule : Schedule) : List Var :=
  schedule.go :: (schedule.berths.flatMap Berth.vars ++ schedule.moves.flatMap Move.vars ++
    schedule.stops.flatMap Berth.vars)

variable {schedule : Schedule}

theorem mem_vars {var : Var} : var ∈ schedule.vars ↔ var = schedule.go ∨
    (∃ berth ∈ schedule.berths, var ∈ berth.vars) ∨ (∃ move ∈ schedule.moves, var ∈ move.vars) ∨
      ∃ stop ∈ schedule.stops, var ∈ stop.vars := by
  simp [vars]

/-- What planning leaves of a layout and of the schedule that is planned on it. -/
structure Laid (given : Var → Prop) (layout : Layout) (state : Schedule × Layout) : Prop where
  becomes : layout.Becomes given state.2
  known : ∀ var ∈ state.1.vars, state.2.Knows given var

theorem Laid.trans {state next : Schedule × Layout} (early : Laid given layout state)
    (late : Laid given state.2 next) : Laid given layout next :=
  ⟨early.becomes.trans late.becomes, late.known⟩

/-- A schedule that stays as it is while the layout grows. -/
theorem Laid.still {after : Layout} (becomes : layout.Becomes given after)
    (known : ∀ var ∈ schedule.vars, layout.Knows given var) :
    Laid given layout (schedule, after) :=
  ⟨becomes, fun var member => (known var member).grows becomes.span⟩

section Planning

variable (formed : layout.Formed given) (known : ∀ var ∈ schedule.vars, layout.Knows given var)

include formed known

theorem external_laid (name : String) :
    Outcome (onLayout (Layout.external name) (schedule, layout))
      (fun var state => state.1 = schedule ∧ Laid given layout state ∧ state.2.Knows given var)
      (Laid given layout) := by
  apply (onLayout_outcome (Layout.forms_external formed name)).mono
  · rintro var ⟨same, after⟩ ⟨rfl, becomes, varKnown⟩
    exact ⟨rfl, .still becomes known, varKnown⟩
  · rintro ⟨same, after⟩ ⟨rfl, becomes⟩
    exact .still becomes known

theorem enter_laid {block : Block} (blockKnown : ∀ var ∈ block.vars, layout.Knows given var) :
    Outcome (enter block (schedule, layout))
      (fun berth state => Laid given layout state ∧ ∀ var ∈ berth.vars, state.2.Knows given var)
      (Laid given layout) := by
  cases found : schedule.berth? block.name with
  | some berth =>
      rw [enter_of_known found]
      refine ⟨.still (.refl formed) known, ?_⟩
      intro var member
      exact known var (mem_vars.mpr (.inr (.inl ⟨berth, List.mem_of_find?_eq_some found, member⟩)))
  | none =>
      rw [enter_of_new found]
      refine Outcome.bind (external_laid formed known _) ?_
      rintro here ⟨same, second⟩ ⟨rfl, laidSecond, hereKnown⟩
      refine Outcome.bind ((external_laid laidSecond.becomes.formed laidSecond.known _).mono
        (fun _ _ made => made) fun _ => laidSecond.trans) ?_
      rintro coming ⟨same, third⟩ ⟨rfl, laidThird, comingKnown⟩
      have laid := laidSecond.trans laidThird
      have berthKnown : ∀ var, var = here ∨ var = coming ∨ var ∈ block.vars →
          third.Knows given var := by
        intro var which
        rcases which with rfl | rfl | member
        · exact hereKnown.grows laidThird.becomes.span
        · exact comingKnown
        · exact (blockKnown var member).grows laid.becomes.span
      refine ⟨⟨laid.becomes, ?_⟩, ?_⟩
      · intro var member
        simp only [mem_vars, mem_insertBerth] at member
        rcases member with same | ⟨berth, rfl | listed, member⟩ | member
        · exact laid.known var (mem_vars.mpr (.inl same))
        · exact berthKnown var (by simpa [Berth.vars, Block.vars] using member)
        · exact laid.known var (mem_vars.mpr (.inr (.inl ⟨berth, listed, member⟩)))
        · exact laid.known var (mem_vars.mpr (.inr (.inr member)))
      · intro var member
        exact berthKnown var (by simpa [Berth.vars, Block.vars] using member)

theorem addMove_laid {source target : Block}
    (sourceKnown : ∀ var ∈ source.vars, layout.Knows given var)
    (targetKnown : ∀ var ∈ target.vars, layout.Knows given var) {guards : List (Var × Bool)}
    {client : Option Client}
    (clientKnown : ∀ var ∈ client.toList.flatMap Client.vars, layout.Knows given var)
    {turnouts : List (Motor × Position)}
    (termsKnown : ∀ var ∈ Move.terms guards turnouts, layout.Knows given var) :
    Outcome (addMove source target guards client turnouts (schedule, layout))
      (fun _ => Laid given layout) (Laid given layout) := by
  apply (enter_laid formed known sourceKnown).bind
  intro sourceBerth second ⟨laidSecond, sourceBits⟩
  have targetKnown := fun var member => (targetKnown var member).grows laidSecond.becomes.span
  refine Outcome.bind ((enter_laid laidSecond.becomes.formed laidSecond.known targetKnown).mono
    (fun _ _ made => made) fun _ => laidSecond.trans) ?_
  intro targetBerth ⟨planned, third⟩ ⟨laidThird, targetBits⟩
  have laidBefore := laidSecond.trans laidThird
  have named := (external_laid laidThird.becomes.formed laidThird.known
    (qualify planned.name ("active_" ++ toString planned.moves.length))).mono
    (fun _ _ made => made) fun _ => laidBefore.trans
  apply named.bind
  rintro active ⟨same, last⟩ ⟨rfl, laidLast, activeKnown⟩
  have laid := laidBefore.trans laidLast
  refine ⟨laid.becomes, ?_⟩
  intro var member
  simp only [mem_vars, List.mem_append, List.mem_singleton] at member
  rcases member with same | berth | ⟨move, listed | rfl, member⟩ | stop
  · exact laid.known var (mem_vars.mpr (.inl same))
  · exact laid.known var (mem_vars.mpr (.inr (.inl berth)))
  · exact laid.known var (mem_vars.mpr (.inr (.inr (.inl ⟨move, listed, member⟩))))
  · simp only [Move.vars, List.mem_cons, List.mem_append] at member
    rcases member with rfl | ((source | target) | client) | term
    · exact activeKnown
    · exact (sourceBits var source).grows
        (Nat.le_trans laidThird.becomes.span laidLast.becomes.span)
    · exact (targetBits var target).grows laidLast.becomes.span
    · exact (clientKnown var client).grows laid.becomes.span
    · exact (termsKnown var term).grows laid.becomes.span
  · exact laid.known var (mem_vars.mpr (.inr (.inr (.inr stop))))

theorem stopAt_laid {block : Block} (blockKnown : ∀ var ∈ block.vars, layout.Knows given var) :
    Outcome (stopAt block (schedule, layout)) (fun _ => Laid given layout)
      (Laid given layout) := by
  apply (enter_laid formed known blockKnown).bind
  intro berth after ⟨laid, bits⟩
  refine ⟨laid.becomes, ?_⟩
  intro var member
  simp only [mem_vars, List.mem_append, List.mem_singleton] at member
  rcases member with same | berths | moves | ⟨stop, listed | rfl, member⟩
  · exact laid.known var (mem_vars.mpr (.inl same))
  · exact laid.known var (mem_vars.mpr (.inr (.inl berths)))
  · exact laid.known var (mem_vars.mpr (.inr (.inr (.inl moves))))
  · exact laid.known var (mem_vars.mpr (.inr (.inr (.inr ⟨stop, listed, member⟩))))
  · exact bits var member

theorem setSensitive_laid {block : Block}
    (blockKnown : ∀ var ∈ block.vars, layout.Knows given var) (sensitive : Bool) :
    Outcome (setSensitive block sensitive (schedule, layout)) (fun _ => Laid given layout)
      (Laid given layout) := by
  apply (enter_laid formed known blockKnown).bind
  intro berth after ⟨laid, _⟩
  exact ⟨laid.becomes, laid.known⟩

end Planning

end Schedule

/-- All variables with which an author describes what an order asks for. -/
def Order.mentions : Order → List Var
  | .move _ _ _ guards _ turnouts => Move.terms guards turnouts
  | order => order.supplied

namespace Yard

/-- All variables of what was declared on the layout. -/
def vars (yard : Yard) : List Var :=
  yard.blocks.flatMap Block.vars ++ yard.clients.flatMap Client.vars ++
    yard.arbiters.flatMap (fun arbiter => arbiter.clients.flatMap Client.vars) ++
    yard.schedules.flatMap Schedule.vars

/-- The layout has its form, its blocks are in place, and all variables are known that occur in
what was declared. -/
structure Formed (given : Var → Prop) (yard : Yard) : Prop where
  layout : yard.layout.Formed given
  placed : ∀ block ∈ yard.blocks, block.Placed yard.layout
  known : ∀ var ∈ yard.vars, yard.layout.Knows given var

variable {yard : Yard}

theorem mem_vars {var : Var} : var ∈ yard.vars ↔
    (∃ block ∈ yard.blocks, var ∈ block.vars) ∨ (∃ client ∈ yard.clients, var ∈ client.vars) ∨
      (∃ arbiter ∈ yard.arbiters, ∃ client ∈ arbiter.clients, var ∈ client.vars) ∨
      ∃ schedule ∈ yard.schedules, var ∈ schedule.vars := by
  simp [vars]

namespace Formed

theorem block (formed : yard.Formed given) {block : Block} (listed : block ∈ yard.blocks) :
    ∀ var ∈ block.vars, yard.layout.Knows given var :=
  fun var member => formed.known var (mem_vars.mpr (.inl ⟨block, listed, member⟩))

theorem client (formed : yard.Formed given) {client : Client} (listed : client ∈ yard.clients) :
    ∀ var ∈ client.vars, yard.layout.Knows given var :=
  fun var member => formed.known var (mem_vars.mpr (.inr (.inl ⟨client, listed, member⟩)))

theorem arbiter (formed : yard.Formed given) {arbiter : Arbiter} (listed : arbiter ∈ yard.arbiters)
    {client : Client} (served : client ∈ arbiter.clients) :
    ∀ var ∈ client.vars, yard.layout.Knows given var :=
  fun var member =>
    formed.known var (mem_vars.mpr (.inr (.inr (.inl ⟨arbiter, listed, client, served, member⟩))))

theorem schedule (formed : yard.Formed given) {schedule : Schedule}
    (listed : schedule ∈ yard.schedules) : ∀ var ∈ schedule.vars, yard.layout.Knows given var :=
  fun var member => formed.known var (mem_vars.mpr (.inr (.inr (.inr ⟨schedule, listed, member⟩))))

theorem empty (config : Config) : (Yard.empty config).Formed given where
  layout := .empty config
  placed := by simp [Yard.empty]
  known := by simp [vars, Yard.empty]

theorem withLayout (formed : yard.Formed given) {after : Layout}
    (becomes : yard.layout.Becomes given after) :
    ({ yard with layout := after }).Formed given where
  layout := becomes.formed
  placed := fun block member => (formed.placed block member).grows becomes.pieces
  known := fun var member => (formed.known var member).grows becomes.span

/-- Declaring something whose variables are known. -/
theorem declare (formed : yard.Formed given) {next : Yard} (same : next.layout = yard.layout)
    (placed : ∀ block ∈ next.blocks, block.Placed yard.layout)
    (new : ∀ var ∈ next.vars, var ∈ yard.vars ∨ yard.layout.Knows given var) :
    next.Formed given where
  layout := same ▸ formed.layout
  placed := same ▸ placed
  known := by
    intro var member
    rw [same]
    exact (new var member).elim (formed.known var) id

theorem declareBlock (formed : yard.Formed given) {block : Block}
    (stands : block.Stands given yard.layout) :
    (perform.declareBlock block yard).Formed given := by
  refine formed.declare ?_ ?_ ?_
  · rfl
  · exact List.forall_mem_append.mpr ⟨formed.placed, List.forall_mem_singleton.mpr stands.placed⟩
  intro var member
  simp only [mem_vars, perform.declareBlock, List.mem_append, List.mem_singleton] at member ⊢
  rcases member with ⟨other, listed | rfl, member⟩ | rest
  · exact .inl (.inl ⟨other, listed, member⟩)
  · exact .inr (stands.known var member)
  · exact .inl (.inr rest)

theorem declareClient (formed : yard.Formed given) {arbiter : Arbiter} {client : Client}
    (listed : arbiter ∈ yard.arbiters) (known : ∀ var ∈ client.vars, yard.layout.Knows given var) :
    ({ yard with
      clients := yard.clients ++ [client]
      arbiters := yard.arbiters ++ [arbiter.addClient client] }).Formed given := by
  refine formed.declare ?_ formed.placed ?_
  · rfl
  intro var member
  simp only [mem_vars, List.mem_append, List.mem_singleton] at member ⊢
  rcases member with block | ⟨other, old | rfl, member⟩ | ⟨other, old | rfl, served, member⟩ | rest
  · exact .inl (.inl block)
  · exact .inl (.inr (.inl ⟨other, old, member⟩))
  · exact .inr (known var member)
  · exact .inl (.inr (.inr (.inl ⟨other, old, served, member⟩)))
  · obtain ⟨known', member⟩ := member
    rcases List.mem_append.mp known' with earlier | new
    · exact .inl (.inr (.inr (.inl ⟨arbiter, listed, served, earlier, member⟩)))
    · exact .inr (known var (List.mem_singleton.mp new ▸ member))
  · exact .inl (.inr (.inr (.inr rest)))

theorem declareSchedule (formed : yard.Formed given) {schedule : Schedule}
    (known : ∀ var ∈ schedule.vars, yard.layout.Knows given var) :
    ({ yard with schedules := yard.schedules ++ [schedule] }).Formed given := by
  refine formed.declare ?_ formed.placed ?_
  · rfl
  intro var member
  simp only [mem_vars, List.mem_append, List.mem_singleton] at member ⊢
  rcases member with block | client | arbiter | ⟨other, listed | rfl, member⟩
  · exact .inl (.inl block)
  · exact .inl (.inr (.inl client))
  · exact .inl (.inr (.inr (.inl arbiter)))
  · exact .inl (.inr (.inr (.inr ⟨other, listed, member⟩)))
  · exact .inr (known var member)

end Formed

theorem build_formed {α : Type} (formed : yard.Formed given) {action : Build α}
    {declare : α → Yard → Yard} {made : α → Layout → Prop}
    (forms : yard.layout.Forms given action made)
    (declared : ∀ result after, ({ yard with layout := after }).Formed given →
      made result after → (declare result { yard with layout := after }).Formed given) :
    (yard.build action declare).Formed given := by
  unfold Layout.Forms at forms
  unfold build
  cases run : action yard.layout with
  | ok result after =>
      rw [run] at forms
      exact declared result after (formed.withLayout forms.1) forms.2
  | error failure after =>
      rw [run] at forms
      exact formed.withLayout forms

/-- An operation that declares nothing. -/
theorem build_formed_of_forms {α : Type} (formed : yard.Formed given) {action : Build α}
    {made : α → Layout → Prop} (forms : yard.layout.Forms given action made) :
    (yard.build action fun _ yard => yard).Formed given :=
  build_formed formed forms fun _ _ next _ => next

theorem plan_formed {α : Type} (formed : yard.Formed given) {schedule : Schedule}
    {action : Schedule.Planning α}
    (outcome : Outcome (action (schedule, yard.layout))
      (fun _ => Schedule.Laid given yard.layout) (Schedule.Laid given yard.layout)) :
    (yard.plan schedule action).Formed given := by
  have planned := fun (state : Schedule × Layout) (laid : Schedule.Laid given yard.layout state) =>
    (formed.withLayout laid.becomes).declareSchedule laid.known
  unfold plan
  cases run : action (schedule, yard.layout) with
  | ok result state =>
      rw [run] at outcome
      exact planned state outcome
  | error failure state =>
      rw [run] at outcome
      exact planned state outcome

/-- Orders keep the form of a yard, whether they fail or not. -/
theorem perform_formed (formed : yard.Formed given) {order : Order}
    (handed : ∀ var ∈ order.mentions, given var) : (yard.perform order).Formed given := by
  have layout := formed.layout
  cases addition : order.addition? with
  | some action =>
      rw [yard.perform_addition addition]
      apply build_formed_of_forms formed (Layout.forms_addition layout (order.adds addition _))
      intro var member
      cases order <;> first | exact .inl (handed var member) | cases addition
  | none =>
  cases order with
  | short | long | detector | filtered | signal | endpoint | fixedTurnout | movableTurnout =>
      cases addition
  | external name => exact build_formed_of_forms formed (Layout.forms_external layout name)
  | scope name count inner =>
      exact build_formed_of_forms formed
        (Layout.forms_within layout name count inner.allocate_hands)
  | join left right => exact build_formed_of_forms formed (Layout.forms_join layout left right)
  | joinPairs pairs => exact build_formed_of_forms formed (Layout.forms_joinPairs layout pairs)
  | joinRuns runs => exact build_formed_of_forms formed (Layout.forms_joinRuns layout runs)
  | block name =>
      apply build_formed formed (Block.forms_make layout name)
      intro block after next stands
      exact next.declareBlock stands
  | filteredBlock name =>
      apply build_formed formed (Block.forms_makeFiltered layout name)
      intro block after next stands
      exact next.declareBlock stands
  | arbiter name =>
      refine formed.declare ?_ formed.placed ?_
      · rfl
      intro var member
      simp only [perform, mem_vars, List.mem_append, List.mem_singleton] at member ⊢
      rcases member with block | client | ⟨other, listed | rfl, served, inside, member⟩ | schedule
      · exact .inl (.inl block)
      · exact .inl (.inr (.inl client))
      · exact .inl (.inr (.inr (.inl ⟨other, listed, served, inside, member⟩)))
      · cases inside
      · exact .inl (.inr (.inr (.inr schedule)))
  | client index name =>
      simp only [perform]
      cases found : yard.arbiters[index]? with
      | none => exact formed
      | some arbiter =>
          apply build_formed formed (arbiter.forms_allocateClient layout name)
          intro client after next known
          exact next.declareClient (List.mem_of_getElem? found) known
  | schedule name =>
      have forms : yard.layout.Forms given (Schedule.make name)
          (fun schedule after => ∀ var ∈ schedule.vars, after.Knows given var) := by
        apply (Layout.forms_external layout _).bind
        intro go after becomes known
        refine ⟨.refl becomes.formed, ?_⟩
        intro var member
        obtain rfl : var = go := by simpa [Schedule.vars] using member
        exact known
      simp only [perform]
      apply build_formed formed forms
      intro schedule after next known
      exact next.declareSchedule known
  | move index source target guards client turnouts =>
      simp only [perform]
      split
      · rename_i schedule sourceBlock targetBlock foundSchedule foundSource foundTarget
        apply plan_formed formed
        apply Schedule.addMove_laid layout
        · exact formed.schedule (List.mem_of_getElem? foundSchedule)
        · exact formed.block (List.mem_of_getElem? foundSource)
        · exact formed.block (List.mem_of_getElem? foundTarget)
        · intro var member
          obtain ⟨known, chosen, owned⟩ := List.mem_flatMap.mp member
          obtain ⟨place, _, found⟩ := Option.bind_eq_some_iff.mp (Option.mem_toList.mp chosen)
          exact formed.client (List.mem_of_getElem? found) var owned
        · exact fun var member => .inl (handed var member)
      · exact formed
  | stop index place =>
      simp only [perform]
      split
      · rename_i schedule block foundSchedule foundBlock
        exact plan_formed formed (Schedule.stopAt_laid layout
          (formed.schedule (List.mem_of_getElem? foundSchedule))
          (formed.block (List.mem_of_getElem? foundBlock)))
      · exact formed
  | sensitive index place value =>
      simp only [perform]
      split
      · rename_i schedule block foundSchedule foundBlock
        exact plan_formed formed (Schedule.setSensitive_laid layout
          (formed.schedule (List.mem_of_getElem? foundSchedule))
          (formed.block (List.mem_of_getElem? foundBlock)) value)
      · exact formed

/-- Every yard has its form, whatever orders were given for it. -/
theorem performAll_formed (formed : yard.Formed given) {orders : List Order}
    (handed : ∀ order ∈ orders, ∀ var ∈ order.mentions, given var) :
    (yard.performAll orders).Formed given := by
  induction orders generalizing yard with
  | nil => exact formed
  | cons order orders ih =>
      obtain ⟨first, rest⟩ := List.forall_mem_cons.mp handed
      exact ih (perform_formed formed first) rest

end Yard

namespace Layout

/-- Every side is listed once, by one piece. -/
theorem Framed.sides_perm (framed : layout.Framed) :
    List.Perm (layout.pieces.toList.flatMap Piece.sides)
      ((List.range layout.sides.size).map SideId.mk) := by
  have atPlace {index : Nat} (inside : index < layout.pieces.toList.length) :
      layout.piece? ⟨index⟩ = some layout.pieces.toList[index] := by
    simp [piece?, ← Array.getElem?_toList, List.getElem?_eq_getElem inside]
  have nodup : (layout.pieces.toList.flatMap Piece.sides).Nodup := by
    apply List.nodup_flatMap.mpr
    constructor
    · intro piece member
      obtain ⟨id, found⟩ := mem_pieces.mp member
      exact (framed.shaped found).sides
    · apply List.pairwise_iff_getElem.mpr
      intro first second insideFirst insideSecond before side ofFirst ofSecond
      obtain ⟨record, known, owner⟩ := framed.listed (atPlace insideFirst) side ofFirst
      obtain ⟨record', known', owner'⟩ := framed.listed (atPlace insideSecond) side ofSecond
      obtain rfl := Option.some.inj (known.symm.trans known')
      have same := congrArg PieceId.index (owner.symm.trans owner')
      exact Nat.ne_of_lt before same
  have ids : ((List.range layout.sides.size).map SideId.mk).Nodup :=
    List.nodup_range.map fun _ _ same => congrArg SideId.index same
  apply (List.perm_ext_iff_of_nodup nodup ids).mpr
  intro side
  simp only [List.mem_flatMap, List.mem_map, List.mem_range]
  constructor
  · rintro ⟨piece, member, listed⟩
    obtain ⟨id, found⟩ := mem_pieces.mp member
    obtain ⟨record, known, _⟩ := framed.listed found side listed
    exact ⟨side.index, (Array.getElem?_eq_some_iff.mp known).1, rfl⟩
  · rintro ⟨index, inside, rfl⟩
    obtain ⟨piece, found, listed⟩ := framed.owned (Array.getElem?_eq_getElem inside)
    exact ⟨piece, mem_pieces.mpr ⟨_, found⟩, listed⟩

/-- What a layout is made of is consistent, and operations that fail leave it alone. -/
structure Consistent (layout : Layout) : Prop where
  names : (layout.pieces.toList.map (·.name)).Nodup
  /-- The names on record are those of the pieces. -/
  named : ∀ name, name ∈ layout.names ↔ ∃ piece ∈ layout.pieces.toList, piece.name = name
  /-- The sides of the pieces are all sides, each of them once. -/
  partition : List.Perm (layout.pieces.toList.flatMap Piece.sides)
    ((List.range layout.sides.size).map SideId.mk)
  owners : ∀ id piece, layout.piece? id = some piece → ∀ side ∈ piece.sides,
    ∃ record, layout.side? side = some record ∧ record.owner = id
  passages : ∀ id piece, layout.piece? id = some piece → ∀ passage ∈ piece.passages,
    passage.entry ∈ piece.sides ∧ passage.exit ∈ piece.sides ∧ passage.entry ≠ passage.exit
  symmetric : ∀ left right, layout.mate? left = some right → layout.mate? right = some left
  irreflexive : ∀ side, layout.mate? side ≠ some side
  /-- No two sides have the same mate. -/
  single : ∀ left right mate, layout.mate? left = some mate → layout.mate? right = some mate →
    left = right
  /-- No variable was allocated for two things, be it for sides, passages or pieces. -/
  distinct : (layout.roles.map (·.2)).Nodup
  failedAddition : ∀ (order : Order) (action : Build PieceId), order.addition? = some action →
    ∀ failure after, action layout = .error failure after →
      after = { layout with table := after.table }
  failedJoin : ∀ left right failure after, join left right layout = .error failure after →
    after = layout

theorem Formed.consistent (formed : layout.Formed given) : layout.Consistent where
  names := formed.names
  named := fun _ => formed.framed.named
  partition := formed.framed.sides_perm
  owners := fun _ _ found => formed.framed.listed found
  passages := fun _ _ found _ member => (formed.framed.shaped found).leads member
  symmetric := fun _ _ joined => formed.framed.paired joined
  irreflexive := formed.apart
  single := by
    intro left right mate ofLeft ofRight
    have back := (formed.framed.paired ofLeft).symm.trans (formed.framed.paired ofRight)
    exact Option.some.inj back
  distinct := formed.framed.distinct
  failedAddition := by
    intro order action addition failure after failed
    have adds := order.adds addition fun _ _ => trivial
    have outcome := adds_outcome adds formed.framed.inBounds
    rw [failed] at outcome
    exact outcome.1
  failedJoin := by
    intro left right failure after failed
    have outcome : Outcome (Layout.join left right layout) _ _ := join_outcome left right
    rw [failed] at outcome
    exact outcome

/-- Whatever orders were given, whether they failed or not and whatever variables were handed
over with them, the layout is consistent. -/
theorem consistent_of_orders (config : Config) (orders : List Order) :
    ((Yard.empty config).performAll orders).layout.Consistent := by
  have formed : ((Yard.empty config).performAll orders).Formed fun _ => True :=
    Yard.performAll_formed (.empty config) fun _ _ _ _ => trivial
  exact formed.layout.consistent

end Layout

end Interlocking
