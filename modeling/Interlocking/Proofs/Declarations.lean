import Interlocking.Proofs.Construction
import Interlocking.Schedule.Basic

/-!
# Blocks, arbiters and schedules

What is declared on a layout besides its pieces. The variables that an arbiter or a
schedule writes are listed here as its outputs; all of them are outside variables of the
layout on which it was declared.
-/

namespace Interlocking

variable {base layout : Layout}

/-- The variable tells whether a passage of the layout is reserved. -/
def Layout.HasRoute (layout : Layout) (var : Var) : Prop :=
  ∃ id piece, layout.piece? id = some piece ∧ ∃ passage ∈ piece.passages, passage.route = var

theorem Layout.HasRoute.mem_roles {var : Var} (reserved : layout.HasRoute var) :
    ∃ role, (role, var) ∈ layout.roles := by
  obtain ⟨id, piece, found, passage, listed, rfl⟩ := reserved
  refine ⟨.route passage, Layout.mem_roles.mpr (.inr ⟨id, piece, found, ?_⟩)⟩
  simp only [Piece.roles, List.mem_append, List.mem_flatMap]
  exact .inl (.inl (.inr ⟨passage, listed, by simp [Passage.roles]⟩))

theorem Layout.HasRoute.not_outside {var : Var} (reserved : layout.HasRoute var) :
    ¬layout.Outside var := by
  obtain ⟨role, member⟩ := reserved.mem_roles
  exact fun outside => outside.2 (List.mem_map.mpr ⟨_, member, rfl⟩)

theorem Layout.HasRoute.lt_span {var : Var} (reserved : layout.HasRoute var)
    (sound : layout.Sound) : var.index < layout.table.span := by
  obtain ⟨role, member⟩ := reserved.mem_roles
  exact sound.reserved _ member

theorem Layout.straight_eq_ok {id : PieceId} {straight : Straight}
    (found : layout.straight id = .ok straight) :
    ∃ piece, layout.piece? id = some piece ∧ piece.body = .straight straight := by
  unfold Layout.straight Layout.piece at found
  cases known : layout.piece? id with
  | none => simp [known, bind, Except.bind] at found
  | some piece =>
      simp only [known, bind, Except.bind] at found
      split at found
      · rename_i body
        exact ⟨piece, rfl, body.trans (congrArg _ (Except.ok.inj found))⟩
      · cases found

theorem Layout.ask_outcome {α : Type} (question : Layout → Except Failure α) :
    Outcome (ask question layout)
      (fun answer after => after = layout ∧ question layout = .ok answer)
      (fun after => after = layout) := by
  unfold ask
  cases question layout with
  | ok answer => exact ⟨rfl, rfl⟩
  | error failure => exact rfl

namespace Block

/-- The request of the block is outside, and its way out is a passage of the layout. -/
structure Fits (layout : Layout) (block : Block) : Prop where
  request : layout.Outside block.requestGreen
  exit : layout.HasRoute block.routeOut

theorem Fits.grows {after : Layout} {block : Block} (fits : block.Fits layout)
    (grows : layout.Grows after) : block.Fits after := by
  obtain ⟨outside, id, piece, found, reserved⟩ := fits
  exact ⟨grows.outside outside, id, piece, grows.pieces found, reserved⟩

theorem finish_outcome (kept : base.Keeps layout) (name : String) (approach body : PieceId)
    (detector : Var) :
    Outcome (finish name approach body detector layout)
      (fun block after => base.Keeps after ∧ block.Fits after)
      (fun after => base.Keeps after) := by
  apply (Layout.external_outcome kept _).bind
  intro requestGreen second ⟨keptSecond, _, requestOutside⟩
  apply (Layout.external_outcome keptSecond _).bind
  intro signal third ⟨keptThird, growsThird, signalOutside⟩
  have requestOutside := growsThird.outside requestOutside
  apply Outcome.bind (Layout.allows_addition keptThird
    (Layout.adds_signal _ requestOutside signalOutside))
  intro signalPiece fourth ⟨keptFourth, growsFourth⟩
  have requestOutside := growsFourth.outside requestOutside
  apply Outcome.bind (Layout.allows_joinRuns keptFourth _)
  intro _ fifth ⟨keptFifth, growsFifth⟩
  have requestOutside := growsFifth.outside requestOutside
  apply Outcome.bind (Layout.allows_ask keptFifth _)
  intro entrance sixth ⟨keptSixth, growsSixth⟩
  have requestOutside := growsSixth.outside requestOutside
  apply Outcome.bind ((Layout.ask_outcome _).mono (fun _ _ told => told)
    fun _ same => same ▸ keptSixth)
  rintro exit last ⟨rfl, found⟩
  obtain ⟨piece, known, body⟩ := Layout.straight_eq_ok found
  refine ⟨keptSixth, requestOutside, signalPiece, piece, known, exit.ab, ?_, rfl⟩
  simp [Piece.passages, body]

theorem make_outcome (kept : base.Keeps layout) (name : String) :
    Outcome (make name layout)
      (fun block after => base.Keeps after ∧ block.Fits after)
      (fun after => base.Keeps after) := by
  apply (Layout.external_outcome kept _).bind
  intro detector second ⟨keptSecond, _, detectorOutside⟩
  apply Outcome.bind (Layout.allows_addition keptSecond (Layout.adds_long _))
  intro approach third ⟨keptThird, growsThird⟩
  have detectorOutside := growsThird.outside detectorOutside
  apply Outcome.bind (Layout.allows_addition keptThird (Layout.adds_detector _ detectorOutside))
  intro body fourth ⟨keptFourth, _⟩
  exact finish_outcome keptFourth name approach body detector

theorem makeFiltered_outcome (kept : base.Keeps layout) (name : String) :
    Outcome (makeFiltered name layout)
      (fun block after => base.Keeps after ∧ block.Fits after)
      (fun after => base.Keeps after) := by
  apply (Layout.external_outcome kept _).bind
  intro raw second ⟨keptSecond, _, rawOutside⟩
  apply Outcome.bind (Layout.allows_addition keptSecond (Layout.adds_long _))
  intro approach third ⟨keptThird, growsThird⟩
  have rawOutside := growsThird.outside rawOutside
  apply Outcome.bind (Layout.allows_addition keptThird
    (Layout.adds_filtered _ third.debounceCycles rawOutside))
  intro body fourth ⟨keptFourth, _⟩
  apply Outcome.bind (Layout.allows_ask keptFourth _)
  intro piece fifth ⟨keptFifth, _⟩
  exact finish_outcome keptFifth name approach body piece.occupancy

end Block

/-- The variables that belong to a client. -/
def Client.vars (client : Client) : List Var := [client.request, client.granted, client.taken]

/-- The variables that an arbiter writes. -/
def Arbiter.outputs (arbiter : Arbiter) : List Var :=
  arbiter.clients.flatMap fun client => [client.granted, client.taken]

theorem Client.allocate_hands (name : String) :
    Scoped.Hands
      (do
        let request ← Scope.allocate "request"
        let granted ← Scope.allocate "granted"
        let taken ← Scope.allocate "taken"
        return { name, request, granted, taken : Client })
      (fun client vars => vars = client.vars) := by
  apply (Scope.allocate_hands _).bind
  intro request _ handedRequest
  apply (Scope.allocate_hands _).bind
  intro granted _ handedGranted
  apply (Scope.allocate_hands _).bind
  intro taken _ handedTaken
  subst handedRequest handedGranted handedTaken
  exact .pure rfl

theorem Arbiter.allocateClient_outcome (kept : base.Keeps layout) (arbiter : Arbiter)
    (name : String) :
    Outcome (arbiter.allocateClient name layout)
      (fun client after => base.Keeps after ∧ ∀ var ∈ client.vars, after.Outside var)
      (fun after => base.Keeps after) := by
  have made := Table.within_outcome (qualify arbiter.name name) clientBitCount
    (Client.allocate_hands name) kept.sound.inBounds
  apply (Layout.onTable_outcome made).mono
  · intro client after ⟨same, ⟨vars, handed, ascends⟩, inBounds⟩
    refine ⟨(kept.withTable same inBounds ascends.le).1, ?_⟩
    intro var member
    have bounds := ascends.bounds (handed ▸ member)
    rw [same]
    exact kept.sound.fresh_outside bounds.1 bounds.2
  · intro after ⟨same, inBounds, larger⟩
    exact (kept.withTable same inBounds larger).1

/-- The bits of a berth that a schedule writes. -/
def Berth.outputs (berth : Berth) : List Var := [berth.here, berth.coming, berth.requestGreen]

/-- The bits that a schedule writes for a move. -/
def Move.outputs (move : Move) : List Var :=
  move.active :: (move.source.outputs ++ move.target.outputs ++
    move.client.toList.flatMap Client.vars ++
    move.turnouts.map (fun (motor, _) => motor.command))

namespace Schedule

/-- The variables that a schedule writes. -/
def outputs (schedule : Schedule) : List Var :=
  schedule.go :: (schedule.berths.flatMap Berth.outputs ++ schedule.moves.flatMap Move.outputs)

theorem mem_outputs {schedule : Schedule} {var : Var} : var ∈ schedule.outputs ↔
    var = schedule.go ∨ (∃ berth ∈ schedule.berths, var ∈ berth.outputs) ∨
      ∃ move ∈ schedule.moves, var ∈ move.outputs := by
  simp [outputs]

/-- The schedule writes nothing that belongs to a piece of the layout. -/
def Drives (layout : Layout) (schedule : Schedule) : Prop :=
  ∀ var ∈ schedule.outputs, layout.Outside var

variable {schedule : Schedule}

theorem Drives.grows {after : Layout} (drives : schedule.Drives layout)
    (grows : layout.Grows after) : schedule.Drives after :=
  fun var member => grows.outside (drives var member)

theorem mem_insertBerth {berth other : Berth} {berths : List Berth} :
    other ∈ insertBerth berth berths ↔ other = berth ∨ other ∈ berths := by
  induction berths with
  | nil => simp [insertBerth]
  | cons first rest ih =>
      unfold insertBerth
      split
      · rw [List.mem_cons, ih, List.mem_cons]
        exact or_left_comm
      · rw [List.mem_cons]

theorem make_outcome (kept : base.Keeps layout) (name : String) :
    Outcome (make name layout)
      (fun schedule after => base.Keeps after ∧ schedule.Drives after)
      (fun after => base.Keeps after) := by
  apply (Layout.external_outcome kept _).bind
  intro go after ⟨keptAfter, _, outside⟩
  refine ⟨keptAfter, ?_⟩
  intro var member
  simp only [outputs, List.flatMap_nil, List.append_nil, List.mem_singleton] at member
  exact member ▸ outside

theorem onLayout_outcome {α : Type} {action : Build α} {ok : α → Layout → Prop}
    {error : Layout → Prop} (outcome : Outcome (action layout) ok error) :
    Outcome (onLayout action (schedule, layout))
      (fun result state => state.1 = schedule ∧ ok result state.2)
      (fun state => state.1 = schedule ∧ error state.2) := by
  unfold onLayout
  simp only
  cases run : action layout with
  | ok result after =>
      rw [run] at outcome
      exact ⟨rfl, outcome⟩
  | error failure after =>
      rw [run] at outcome
      exact ⟨rfl, outcome⟩

/-- A new outside variable for a schedule that goes on to drive only such variables. -/
theorem external_outcome (kept : base.Keeps layout) (drives : schedule.Drives layout)
    (name : String) :
    Outcome (onLayout (Layout.external name) (schedule, layout))
      (fun var state => state.1 = schedule ∧ base.Keeps state.2 ∧ layout.Grows state.2 ∧
        state.2.Outside var ∧ schedule.Drives state.2)
      (fun state => base.Keeps state.2 ∧ state.1.Drives state.2) := by
  have within : layout.Keeps layout := ⟨kept.sound, .refl layout⟩
  apply (onLayout_outcome (Layout.external_outcome within name)).mono
  · intro var ⟨same, after⟩ ⟨equal, keptAfter, grows, outside⟩
    exact ⟨equal, kept.step keptAfter.sound grows, grows, outside, drives.grows grows⟩
  · intro ⟨same, after⟩ ⟨equal, keptAfter⟩
    simp only at equal
    subst equal
    exact ⟨kept.step keptAfter.sound keptAfter.grows, drives.grows keptAfter.grows⟩

section Enter

variable {block : Block}

theorem get_bind {α : Type} (next : Schedule × Layout → Planning α) (state : Schedule × Layout) :
    (get >>= next) state = next state state := rfl

/-- A block that is known already is found again. -/
theorem enter_of_known {berth : Berth} (known : schedule.berth? block.name = some berth) :
    enter block (schedule, layout) = .ok berth (schedule, layout) := by
  rw [enter, get_bind]
  simp only [known]
  rfl

/-- Another one gets two variables and a berth. -/
theorem enter_of_new (unknown : schedule.berth? block.name = none) :
    enter block (schedule, layout) = (do
      let path := qualify schedule.name block.name
      let here ← onLayout (Layout.external (qualify path "permaloc"))
      let coming ← onLayout (Layout.external (qualify path "routingloc"))
      let berth : Berth := {
        block := block.name, here, coming
        detector := block.detector
        requestGreen := block.requestGreen
        routeOut := block.routeOut }
      adjust fun schedule => { schedule with berths := insertBerth berth schedule.berths }
      return berth : Planning Berth) (schedule, layout) := by
  rw [enter, get_bind]
  simp only [unknown]

end Enter

/-- A block whose request for proceed is outside can become known to a schedule. -/
theorem enter_outcome (kept : base.Keeps layout) (drives : schedule.Drives layout)
    {block : Block} (outside : layout.Outside block.requestGreen) :
    Outcome (enter block (schedule, layout))
      (fun berth state => base.Keeps state.2 ∧ layout.Grows state.2 ∧
        state.1.Drives state.2 ∧ ∀ var ∈ berth.outputs, state.2.Outside var)
      (fun state => base.Keeps state.2 ∧ state.1.Drives state.2) := by
  cases known : schedule.berth? block.name with
  | some berth =>
      rw [enter_of_known known]
      refine ⟨kept, .refl layout, drives, ?_⟩
      intro var member
      have listed := List.mem_of_find?_eq_some known
      exact drives var (mem_outputs.mpr (.inr (.inl ⟨berth, listed, member⟩)))
  | none =>
      rw [enter_of_new known]
      apply (external_outcome kept drives _).bind
      rintro here ⟨same, second⟩ ⟨rfl, keptSecond, growsSecond, hereOutside, drivesSecond⟩
      apply (external_outcome keptSecond drivesSecond _).bind
      rintro coming ⟨same, third⟩ ⟨rfl, keptThird, growsThird, comingOutside, drivesThird⟩
      have bits : ∀ var, var = here ∨ var = coming ∨ var = block.requestGreen →
          third.Outside var := by
        intro var which
        rcases which with rfl | rfl | rfl
        · exact growsThird.outside hereOutside
        · exact comingOutside
        · exact growsThird.outside (growsSecond.outside outside)
      refine ⟨keptThird, growsSecond.trans growsThird, ?_, ?_⟩
      · intro var member
        simp only [mem_outputs, mem_insertBerth] at member
        rcases member with same | ⟨berth, rfl | listed, member⟩ | member
        · exact drivesThird var (mem_outputs.mpr (.inl same))
        · exact bits var (by simpa [Berth.outputs] using member)
        · exact drivesThird var (mem_outputs.mpr (.inr (.inl ⟨berth, listed, member⟩)))
        · exact drivesThird var (mem_outputs.mpr (.inr (.inr member)))
      · intro var member
        exact bits var (by simpa [Berth.outputs] using member)

/-- A move whose client and turnouts are driven through outside variables. -/
theorem addMove_outcome (kept : base.Keeps layout) (drives : schedule.Drives layout)
    {source target : Block} (sourceOutside : layout.Outside source.requestGreen)
    (targetOutside : layout.Outside target.requestGreen) (guards : List (Var × Bool))
    {client : Option Client} (clientOutside : ∀ var ∈ client.toList.flatMap Client.vars,
      layout.Outside var)
    {turnouts : List (Motor × Position)} (turnoutsOutside : ∀ entry ∈ turnouts,
      layout.Outside entry.1.command) :
    Outcome (addMove source target guards client turnouts (schedule, layout))
      (fun _ state => base.Keeps state.2 ∧ state.1.Drives state.2)
      (fun state => base.Keeps state.2 ∧ state.1.Drives state.2) := by
  apply (enter_outcome kept drives sourceOutside).bind
  intro sourceBerth ⟨first, second⟩ ⟨keptSecond, growsSecond, drivesSecond, sourceBits⟩
  have targetOutside := growsSecond.outside targetOutside
  apply (enter_outcome keptSecond drivesSecond targetOutside).bind
  intro targetBerth ⟨planned, third⟩ ⟨keptThird, growsThird, drivesThird, targetBits⟩
  apply (external_outcome keptThird drivesThird
    (qualify planned.name ("active_" ++ toString planned.moves.length))).bind
  intro active ⟨same, last⟩ ⟨equal, keptLast, growsLast, activeOutside, drivesLast⟩
  simp only at equal
  subst equal
  refine ⟨keptLast, ?_⟩
  intro var member
  rcases mem_outputs.mp member with same | berth | ⟨move, listed, written⟩
  · exact drivesLast var (mem_outputs.mpr (.inl same))
  · exact drivesLast var (mem_outputs.mpr (.inr (.inl berth)))
  · rcases List.mem_append.mp listed with listed | listed
    · exact drivesLast var (mem_outputs.mpr (.inr (.inr ⟨move, listed, written⟩)))
    · obtain rfl := List.mem_singleton.mp listed
      simp only [Move.outputs, List.mem_cons, List.mem_append, List.mem_map] at written
      have grows := growsThird.trans growsLast
      rcases written with rfl | ((source | target) | client) | ⟨entry, listed, rfl⟩
      · exact activeOutside
      · exact grows.outside (sourceBits var source)
      · exact growsLast.outside (targetBits var target)
      · exact grows.outside (growsSecond.outside (clientOutside var client))
      · exact grows.outside (growsSecond.outside (turnoutsOutside entry listed))

theorem stopAt_outcome (kept : base.Keeps layout) (drives : schedule.Drives layout)
    {block : Block} (outside : layout.Outside block.requestGreen) :
    Outcome (stopAt block (schedule, layout))
      (fun _ state => base.Keeps state.2 ∧ state.1.Drives state.2)
      (fun state => base.Keeps state.2 ∧ state.1.Drives state.2) := by
  apply (enter_outcome kept drives outside).bind
  intro berth ⟨planned, after⟩ ⟨keptAfter, _, drivesAfter, _⟩
  exact ⟨keptAfter, drivesAfter⟩

theorem setSensitive_outcome (kept : base.Keeps layout) (drives : schedule.Drives layout)
    {block : Block} (outside : layout.Outside block.requestGreen) (sensitive : Bool) :
    Outcome (setSensitive block sensitive (schedule, layout))
      (fun _ state => base.Keeps state.2 ∧ state.1.Drives state.2)
      (fun state => base.Keeps state.2 ∧ state.1.Drives state.2) := by
  apply (enter_outcome kept drives outside).bind
  intro berth ⟨planned, after⟩ ⟨keptAfter, _, drivesAfter, _⟩
  exact ⟨keptAfter, drivesAfter⟩

end Schedule

end Interlocking
