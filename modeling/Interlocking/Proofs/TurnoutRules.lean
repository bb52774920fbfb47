import Interlocking.Proofs.PieceRules

/-!
# Turnouts follow the protocol

A turnout takes a commanded position over only at the end of its turn, after it has found
out that none of its passages is in use. With the turnouts, the turns of all pieces are
covered.
-/

namespace Interlocking.Layout

open Function (update)

variable {layout : Layout} {stand : PieceId → Bool}

/-- What holds after a turn before which the turnouts stood as given. -/
structure Turned (layout : Layout) (stand : PieceId → Bool) (panel : Panel) : Prop where
  orderly : layout.Orderly none panel
  moved : ∀ id, panel (.position id) = stand id ∨ layout.Free panel id

theorem Steady.turned {panel : Panel} (steady : layout.Steady stand none panel) :
    layout.Turned stand panel :=
  ⟨steady.orderly, fun id => .inl (steady.stands id)⟩

/-- A free turnout may move. -/
theorem Turned.move {panel : Panel} (turned : layout.Turned stand panel) {id : PieceId}
    (free : layout.Free panel id) (value : Bool) :
    layout.Turned stand (update panel (.position id) value) := by
  refine ⟨turned.orderly.move free value, ?_⟩
  intro other
  by_cases same : other = id
  · subst same
    right
    intro passage way
    simpa [Panel.Held] using free passage way
  · simpa [same, Free, Panel.Held] using turned.moved other

theorem Turned.report {panel : Panel} (turned : layout.Turned stand panel) (var : Var)
    (value : Bool) : layout.Turned stand (update panel (.outside var) value) := by
  refine ⟨turned.orderly.congr ((Panel.Alike.refl panel).aside rfl value), ?_⟩
  simpa [Free, Panel.Held] using turned.moved

/-- The bit that sums the routes of a turnout up is not 0 while one of the given bits is set. -/
structure Watches (layout : Layout) (stand : PieceId → Bool) (id : PieceId) (bits : List Var)
    (panel : Panel) : Prop where
  steady : layout.Steady stand none panel
  unset : panel (.anyRoute id) = false → ∀ bit ∈ bits, panel (layout.role bit) = false

/-- After its turn so far, a turnout whose routes sum up to none is free. -/
structure Guarded (layout : Layout) (stand : PieceId → Bool) (id : PieceId) (panel : Panel) :
    Prop where
  turned : layout.Turned stand panel
  free : panel (.anyRoute id) = false → layout.Free panel id

section Turnouts

variable {id : PieceId} {name : String} {occupancy : Var} {turnout : Turnout}

theorem rules_fixedTurnout {position : Position} (kind : turnout.kind = .fixed position) :
    (turnout.book layout name occupancy).build.rules =
      (turnout.site occupancy).seenRules layout ++ (turnout.site occupancy).clearRules ++
        (List.range (turnout.site occupancy).passages.length).flatMap
          ((turnout.site occupancy).passageRules layout) ++
        (layout.inlet? (turnout.deadSide position)).elim [] Turnout.deadBranchRules ++
        [RuleBook.startRule] := by
  simp [RuleBook.rules_build, Turnout.book, kind, Site.contributeTracking,
    inPhase_contributePassages, Phase.all]

theorem rules_movableTurnout {motor : Motor} {position anyRoute : Var}
    (kind : turnout.kind = .movable motor position anyRoute) :
    (turnout.book layout name occupancy).build.rules =
      (turnout.site occupancy).seenRules layout ++ (turnout.site occupancy).clearRules ++
        (List.range (turnout.site occupancy).passages.length).flatMap
          ((turnout.site occupancy).passageRules layout) ++
        Turnout.anyRouteRules turnout.passages anyRoute ++ Turnout.motorRules motor position anyRoute ++
        [RuleBook.startRule] := by
  simp [RuleBook.rules_build, Turnout.book, kind, Site.contributeTracking,
    inPhase_contributePassages, Phase.all]

variable (sound : layout.Sound)
  (found : layout.piece? id = some { name, occupancy, body := .turnout turnout })

include sound found

theorem Sound.describes_turnout :
    layout.Describes id { name, occupancy, body := .turnout turnout }
      (turnout.site occupancy) where
  passages := rfl
  position := by
    obtain ⟨kind, points, closed, thrown, seen, passages⟩ := turnout
    cases kind <;> rfl
  seen := sound.role_seen found rfl
  occupancy := rfl
  simulated := rfl
  apart := sound.occupancy_aside found

/-- No passage of a fixed turnout starts at its dead branch. -/
theorem Sound.deadSide_not_asked {position : Position} (kind : turnout.kind = .fixed position)
    {passage : Passage} (asked : layout.Asked passage) :
    passage.entry ≠ turnout.deadSide position := by
  intro entries
  obtain ⟨nodup, courses⟩ := sound.shaped found
  have listed : turnout.deadSide position ∈ turnout.sides := by
    cases position <;> simp [Turnout.deadSide, Turnout.sides]
  have member := (sound.shaped found).course_mem
    (mem_passages_of_mem_asked (sound.mem_asked found listed asked entries))
  simp only [Piece.courses, kind, List.mem_cons, List.not_mem_nil, or_false] at member
  have entry : passage.course.entry = turnout.deadSide position := entries
  rcases member with course | course <;> rw [course] at entry <;> cases position <;>
    simp_all [Piece.sides, Turnout.sides, Turnout.deadSide, Turnout.branch]

/-- What a turnout answers at its dead branch follows the protocol. -/
theorem Sound.maintains_deadBranchRules {position : Position} (kind : turnout.kind = .fixed position)
    {inlet : Handshake} {asker : SideId}
    (joined : layout.mate? (turnout.deadSide position) = some asker)
    (wired : layout.Wired inlet asker) :
    layout.Maintains (layout.Steady stand none) (Turnout.deadBranchRules inlet) := by
  refine List.forall_mem_cons.mpr ⟨?_, wired.maintains_answerResetRules sound⟩
  simp only [List.forall_mem_cons, Sees, wired.request, wired.granted, wired.denied, carry,
    List.foldl_cons, List.foldl_nil, act]
  rintro panel steady ⟨_, ungranted, _⟩
  apply steady.shift sound
  apply Shift.refuse joined ungranted
  intro passage asked entries
  exact absurd entries (sound.deadSide_not_asked found kind asked)

omit sound found in
/-- While the bits of a list are looked at one by one, `anyRoute` is raised if one of them
is set. -/
theorem takes_raiseRules {anyRoute : Var} (counts : layout.role anyRoute = .anyRoute id)
    (looked bits : List Var) : layout.Takes (layout.Watches stand id looked)
      (bits.map fun bit => { conditions := [.on bit, .off anyRoute], actions := [.raise anyRoute] })
      (layout.Watches stand id (looked ++ bits)) := by
  induction bits generalizing looked with
  | nil => simpa using Takes.weaken fun _ watches => watches
  | cons bit bits ih =>
      have head : layout.Takes (layout.Watches stand id looked)
          [{ conditions := [.on bit, .off anyRoute], actions := [.raise anyRoute] }]
          (layout.Watches stand id (looked ++ [bit])) := by
        apply Takes.single
        · intro panel watches _
          simp only [carry, List.foldl_cons, List.foldl_nil, act, counts]
          exact ⟨watches.steady.congr ((Panel.Alike.refl panel).aside rfl true), by simp⟩
        · rintro panel watches ⟨condition, member, misses⟩
          refine ⟨watches.steady, ?_⟩
          intro unset other listed
          simp only [List.mem_cons, List.not_mem_nil, or_false] at member
          rcases List.mem_append.mp listed with listed | listed
          · exact watches.unset unset other listed
          · obtain rfl := List.mem_singleton.mp listed
            rcases member with rfl | rfl
            · simpa [Misses] using misses
            · simp [Misses, counts, unset] at misses
      simpa using head.append (ih (looked ++ [bit]))

section Movable

variable {motor : Motor} {position anyRoute : Var}
  (kind : turnout.kind = .movable motor position anyRoute)

include kind

omit sound found in
/-- The bits that only a movable turnout has. -/
theorem turnout_of_movable :
    ({ name, occupancy, body := .turnout turnout } : Piece).position? = some position ∧
      ({ name, occupancy, body := .turnout turnout } : Piece).anyRoute? = some anyRoute ∧
      motor.current ∈ ({ name, occupancy, body := .turnout turnout } : Piece).supplied := by
  obtain ⟨_, points, closed, thrown, seen, passages⟩ := turnout
  subst kind
  exact ⟨rfl, rfl, by simp [Piece.supplied]⟩

/-- After the routes were summed up, a turnout without a route is free. -/
theorem Sound.takes_anyRouteRules : layout.Takes (layout.Steady stand none)
    (Turnout.anyRouteRules turnout.passages anyRoute) (layout.Guarded stand id) := by
  have counts := sound.role_anyRoute found (turnout_of_movable kind).2.1
  have watched : ∀ panel, (∀ bit ∈ Turnout.held turnout.passages, panel (layout.role bit) = false) →
      layout.Free panel id := by
    intro panel unset passage way
    have route := sound.role_route way
    have pending := sound.role_pending way
    obtain ⟨piece, known, member⟩ := way
    obtain rfl := Option.some.inj (found.symm.trans known)
    simp only [Piece.passages] at member
    have unreserved := unset passage.route (by
      simp only [Turnout.held, List.mem_append, List.mem_map]
      exact .inl ⟨passage, member, rfl⟩)
    have unpending := unset passage.pending (by
      simp only [Turnout.held, List.mem_append, List.mem_map]
      exact .inr ⟨passage, member, rfl⟩)
    rw [route] at unreserved
    rw [pending] at unpending
    simp [Panel.Held, unreserved, unpending]
  have started : layout.Takes (layout.Steady stand none) [] (layout.Watches stand id []) :=
    Takes.weaken fun _ steady => ⟨steady, by simp⟩
  refine (started.append (takes_raiseRules counts [] (Turnout.held turnout.passages))).append ?_
  apply Takes.single
  · intro panel watches sees
    have free : layout.Free panel id := by
      apply watched
      intro bit member
      exact sees (.off bit) (List.mem_append_left _ (List.mem_map.mpr ⟨bit, member, rfl⟩))
    simp only [carry, List.foldl_cons, List.foldl_nil, act, counts]
    refine ⟨(watches.steady.congr ((Panel.Alike.refl panel).aside rfl false)).turned, ?_⟩
    intro _ passage way
    simpa [Panel.Held] using free passage way
  · intro panel watches _
    exact ⟨watches.steady.turned, fun unset => watched panel (watches.unset unset)⟩

/-- The motor moves only if the turnout is free. -/
theorem Sound.takes_motorRules : layout.Takes (layout.Guarded stand id)
    (Turnout.motorRules motor position anyRoute) (layout.Guarded stand id) := by
  obtain ⟨positioned, counted, supplied⟩ := turnout_of_movable kind
  have stands := sound.role_position found positioned
  have counts := sound.role_anyRoute found counted
  have reports := role_of_outside (sound.supplied found _ supplied)
  apply Takes.each
  simp only [Maintains, Turnout.motorRules, List.forall_mem_cons, Sees, carry, List.foldl_cons, List.foldl_nil,
    act, stands, counts, reports]
  refine ⟨?_, ?_, ?_, ?_, by simp⟩
  · rintro panel ⟨turned, free⟩ ⟨unset, _⟩
    exact ⟨turned.move (free unset) true, by simpa [Free, Panel.Held] using free⟩
  · rintro panel ⟨turned, free⟩ ⟨unset, _⟩
    exact ⟨turned.move (free unset) false, by simpa [Free, Panel.Held] using free⟩
  · rintro panel ⟨turned, free⟩ _
    exact ⟨turned.report _ true, by simpa [Free, Panel.Held] using free⟩
  · rintro panel ⟨turned, free⟩ _
    exact ⟨turned.report _ false, by simpa [Free, Panel.Held] using free⟩

end Movable

end Turnouts

end Interlocking.Layout
