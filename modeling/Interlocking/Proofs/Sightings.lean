import Interlocking.Proofs.Alertness
import Interlocking.Proofs.RouteSafety
import Interlocking.Proofs.Vocabulary

/-!
# Trains that were seen

A piece notes that the train has reached the next piece, and a piece without a sensor counts as
occupied from then on. The note is made on a reserved passage and is dropped together with the
reservation. So the rules that remove stale notes find nothing to do, and no piece stays occupied
when its reservation is gone.
-/

namespace Interlocking.Layout

open Function (update)

variable {layout : Layout} {id : PieceId} {piece : Piece} {panel : Panel}

/-- A train is noted only on a reserved passage, and where no sensor tells of trains the piece
counts as occupied exactly while one is noted. -/
structure Accounted (layout : Layout) (panel : Panel) : Prop where
  reserved : ∀ {id piece}, layout.piece? id = some piece → panel (.seen id) = true →
    ∃ passage ∈ piece.passages, panel (.route passage) = true
  occupied : ∀ {id piece}, layout.piece? id = some piece → piece.simulated = true →
    panel (.occupancy id) = panel (.seen id)

/-- The value keeps the notes accounted for, whatever bit of this role gets it: no reservation is
dropped, and no note is made or dropped. -/
def Spared (layout : Layout) (value : Bool) : Role → Prop
  | .route _ => value = true
  | .seen _ => False
  | .occupancy id => ∀ piece, layout.piece? id = some piece → piece.simulated = false
  | _ => True

/-- The action keeps the notes accounted for. -/
def Innocent (layout : Layout) : Action → Prop
  | .set var value => layout.Spared value (layout.role var)
  | _ => True

/-- All actions of the rules keep the notes accounted for. -/
def Harmless (layout : Layout) (rules : List Rule) : Prop :=
  ∀ rule ∈ rules, ∀ action ∈ rule.actions, layout.Innocent action

theorem Accounted.zeros (layout : Layout) : layout.Accounted (fun _ => false) :=
  ⟨by simp, by simp⟩

theorem Accounted.write (accounted : layout.Accounted panel) {role : Role} {value : Bool}
    (spared : layout.Spared value role) : layout.Accounted (update panel role value) where
  reserved := by
    intro id piece found noted
    have unseen : Role.seen id ≠ role := by
      rintro rfl
      exact spared
    rw [Function.update_of_ne unseen] at noted
    obtain ⟨passage, member, route⟩ := accounted.reserved found noted
    refine ⟨passage, member, ?_⟩
    by_cases same : Role.route passage = role
    · subst same
      rw [Function.update_self]
      exact spared
    · rw [Function.update_of_ne same, route]
  occupied := by
    intro id piece found simulated
    have unseen : Role.seen id ≠ role := by
      rintro rfl
      exact spared
    have apart : Role.occupancy id ≠ role := by
      rintro rfl
      rw [spared piece found] at simulated
      cases simulated
    rw [Function.update_of_ne unseen, Function.update_of_ne apart]
    exact accounted.occupied found simulated

theorem Accounted.carry (accounted : layout.Accounted panel) {actions : List Action}
    (innocent : ∀ action ∈ actions, layout.Innocent action) :
    layout.Accounted (layout.carry panel actions) := by
  induction actions generalizing panel with
  | nil => exact accounted
  | cons action actions ih =>
      obtain ⟨first, innocent⟩ := List.forall_mem_cons.mp innocent
      refine ih ?_ innocent
      cases action with
      | set var value => exact accounted.write first
      | goto | loadTimer => exact accounted

theorem Harmless.maintains {rules : List Rule} (harmless : layout.Harmless rules) :
    layout.Maintains layout.Accounted rules :=
  fun rule member _ accounted _ => accounted.carry (harmless rule member)

theorem mem_roles_simulated (found : layout.piece? id = some piece)
    (simulated : piece.simulated = true) : (.occupancy id, piece.occupancy) ∈ layout.roles := by
  have unsensed : piece.sensed = false := by
    unfold Piece.simulated at simulated
    unfold Piece.sensed
    split at simulated <;> simp_all
  exact mem_roles_piece found (piece.mem_roles_occupancy id unsensed)

section Notes

variable {site : Site} (sound : layout.Sound) (found : layout.piece? id = some piece)
  (describes : layout.Describes id piece site)

include sound found

theorem Sound.role_simulated (simulated : piece.simulated = true) :
    layout.role piece.occupancy = .occupancy id :=
  sound.role_eq (mem_roles_simulated found simulated)

include describes

/-- What the notes of a piece show when both were given the same value. -/
theorem Describes.carry_note (panel : Panel) (value : Bool) (role : Role) :
    layout.carry panel (.set site.seen value ::
        if site.simulated then [.set site.occupancy value] else []) role =
      if role = .seen id ∨ piece.simulated = true ∧ role = .occupancy id then value
      else panel role := by
  rw [describes.simulated]
  cases simulated : piece.simulated with
  | false => simp [Layout.carry, act, describes.seen, Function.update_apply]
  | true =>
      have occupied := sound.role_simulated found simulated
      simp only [Layout.carry, if_true, List.foldl_cons, List.foldl_nil, act, describes.seen,
        describes.occupancy, occupied, Function.update_apply]
      grind

/-- Where the occupancy agreed with the note, it does so afterwards. -/
theorem Describes.occupied_note (value : Bool) {other : PieceId} {neighbour : Piece}
    (known : layout.piece? other = some neighbour) (simulated : neighbour.simulated = true)
    (agreed : panel (.occupancy other) = panel (.seen other)) :
    layout.carry panel (.set site.seen value ::
        if site.simulated then [.set site.occupancy value] else []) (.occupancy other) =
      layout.carry panel (.set site.seen value ::
        if site.simulated then [.set site.occupancy value] else []) (.seen other) := by
  rw [describes.carry_note sound found, describes.carry_note sound found]
  by_cases same : other = id
  · subst same
    obtain rfl := Option.some.inj (found.symm.trans known)
    simp [simulated]
  · simpa [same] using agreed

/-- A note can be made on a reserved passage. -/
theorem Accounted.note (accounted : layout.Accounted panel) {passage : Passage}
    (member : passage ∈ piece.passages) (route : panel (.route passage) = true) :
    layout.Accounted (layout.carry panel (.raise site.seen ::
      if site.simulated then [.raise site.occupancy] else [])) := by
  have shown := describes.carry_note sound found panel true
  constructor
  · intro other neighbour known noted
    rw [shown] at noted
    by_cases same : other = id
    · subst same
      obtain rfl := Option.some.inj (found.symm.trans known)
      exact ⟨passage, member, by simpa [shown] using route⟩
    · obtain ⟨rival, listed, set⟩ := accounted.reserved known (by simpa [same] using noted)
      exact ⟨rival, listed, by simpa [shown] using set⟩
  · intro other neighbour known simulated
    exact describes.occupied_note sound found true known simulated
      (accounted.occupied known simulated)

/-- A reservation is dropped together with the note. -/
theorem Accounted.release (accounted : layout.Accounted panel) {passage : Passage}
    (member : passage ∈ piece.passages) :
    layout.Accounted (layout.carry panel ([Action.clear passage.route, .clear site.seen] ++
      if site.simulated then [Action.clear site.occupancy] else [])) := by
  have way : layout.Way id passage := ⟨piece, found, member⟩
  have shown := describes.carry_note sound found (update panel (.route passage) false) false
  have cleared : layout.carry panel ([Action.clear passage.route, .clear site.seen] ++
      if site.simulated then [Action.clear site.occupancy] else []) =
        layout.carry (update panel (.route passage) false) (.clear site.seen ::
          if site.simulated then [.clear site.occupancy] else []) := by
    simp [Layout.carry, act, sound.role_route way]
  rw [cleared]
  constructor
  · intro other neighbour known noted
    rw [shown] at noted
    have differs : other ≠ id := by
      rintro rfl
      simp at noted
    obtain ⟨rival, listed, set⟩ := accounted.reserved known (by simpa [differs] using noted)
    -- The passage that was given up belongs to this piece and to no other.
    have elsewhere : rival ≠ passage := by
      rintro rfl
      exact differs (sound.same_piece ⟨neighbour, known, listed⟩ way rfl)
    exact ⟨rival, listed, by simpa [shown, elsewhere] using set⟩
  · intro other neighbour known simulated
    refine describes.occupied_note sound found false known simulated ?_
    simpa using accounted.occupied known simulated

theorem Describes.maintains_seenRules :
    layout.Maintains layout.Accounted (site.seenRules layout) := by
  intro rule member panel accounted sees
  obtain ⟨passage, listed, made⟩ := List.mem_filterMap.mp member
  obtain ⟨next, _, rfl⟩ := Option.map_eq_some_iff.mp made
  rw [describes.passages] at listed
  have route := sees (.on passage.route) (by simp)
  rw [Sees, sound.role_route ⟨piece, found, listed⟩] at route
  exact accounted.note sound found describes listed route

/-- There are no stale notes to be removed. -/
theorem Accounted.rests_clearRules (accounted : layout.Accounted panel) :
    layout.Rests panel site.clearRules := by
  -- A note stands on a reserved passage, and the rules ask for all passages to be free.
  have stale : ∀ {last : Condition}, panel (.seen id) = true →
      ¬∀ condition ∈ (site.passages.map fun passage => Condition.off passage.route) ++ [last],
        layout.Sees panel condition := by
    intro last noted sees
    obtain ⟨passage, member, route⟩ := accounted.reserved found noted
    have idle := sees (.off passage.route)
      (List.mem_append_left _ (List.mem_map.mpr ⟨passage, describes.passages ▸ member, rfl⟩))
    rw [Sees, sound.role_route ⟨piece, found, member⟩, route] at idle
    cases idle
  intro rule member sees
  rcases List.mem_cons.mp member with rfl | member
  · have noted := sees (.on site.seen) (by simp)
    rw [Sees, describes.seen] at noted
    exact stale noted sees
  · split at member
    · rename_i simulated
      obtain rfl := List.mem_singleton.mp member
      rw [describes.simulated] at simulated
      have occupied := sees (.on site.occupancy) (by simp)
      rw [Sees, describes.occupancy, sound.role_simulated found simulated,
        accounted.occupied found simulated] at occupied
      exact stale occupied sees
    · cases member

theorem Describes.maintains_tracking :
    layout.Maintains layout.Accounted (site.seenRules layout ++ site.clearRules) :=
  (describes.maintains_seenRules sound found).append fun rule member _ accounted sees =>
    absurd sees (accounted.rests_clearRules sound found describes rule member)

end Notes

section Work

theorem Replies.harmless {inlet : Handshake} {asker : SideId} {rules : List Rule}
    (replies : Replies inlet rules) (wired : layout.Wired inlet asker) :
    layout.Harmless rules := by
  intro rule member
  obtain ⟨_, _, _, raised | raised⟩ := replies rule member
  · simp [raised, Innocent, Spared, wired.granted]
  · simp [raised, Innocent, Spared, wired.denied]

theorem Wired.harmless_answerResetRules {inlet : Handshake} {asker : SideId}
    (wired : layout.Wired inlet asker) : layout.Harmless (answerResetRules inlet) := by
  simp [Harmless, answerResetRules, Innocent, Spared, wired.granted, wired.denied]

variable (sound : layout.Sound)

include sound

theorem Sound.harmless_releaseDoneRules (exit : SideId) :
    layout.Harmless (releaseDoneRules (layout.outlet? exit)) := by
  cases known : layout.outlet? exit with
  | none => simp [Harmless, releaseDoneRules]
  | some outlet =>
      simp [Harmless, releaseDoneRules, Innocent, Spared, (sound.outlet known).released]

theorem Sound.innocent_releaseNotice (exit : SideId) :
    ∀ action ∈ releaseNotice (layout.outlet? exit), layout.Innocent action := by
  cases known : layout.outlet? exit with
  | none => simp [releaseNotice]
  | some outlet =>
      simp [releaseNotice, Innocent, Spared, (sound.outlet known).request,
        (sound.outlet known).released]

/-- Reserving a passage drops no reservation, whoever is told of it. -/
theorem Sound.harmless_bidRules {passage : Passage} (way : layout.Way id passage)
    (allowed : List Condition) {grant deny : List Action}
    (granting : ∀ action ∈ grant, layout.Innocent action)
    (denying : ∀ action ∈ deny, layout.Innocent action) :
    layout.Harmless (bidRules passage allowed grant deny (layout.outlet? passage.exit)) := by
  have route := sound.role_route way
  have pending := sound.role_pending way
  cases known : layout.outlet? passage.exit with
  | none =>
      refine List.forall_mem_singleton.mpr (List.forall_mem_append.mpr ⟨?_, granting⟩)
      simp [Innocent, Spared, route]
  | some outlet =>
      have request := (sound.outlet known).request
      simp only [Harmless, bidRules, List.forall_mem_cons, List.forall_mem_append]
      refine ⟨?_, ⟨?_, granting⟩, ⟨?_, denying⟩, by simp⟩
      all_goals simp [Innocent, Spared, route, pending, request]

/-- Whatever a piece does on a duty, its notes stay accounted for. -/
theorem Task.maintains_accounted {duty : Duty} (task : layout.Task id duty) :
    layout.Maintains layout.Accounted duty.rules := by
  cases task with
  | rest => simp [Maintains]
  | @negotiate piece site index passage inlet _ serves =>
      have wired := serves.wired
      have released : ∀ {panel : Panel}, layout.Accounted panel → layout.Accounted
          (layout.carry panel (site.releaseActions passage (layout.outlet? passage.exit))) := by
        intro panel accounted
        rw [Site.releaseActions_eq, Layout.carry, List.foldl_append]
        exact (accounted.release sound serves.found serves.describes serves.member).carry
          (sound.innocent_releaseNotice passage.exit)
      rw [handshakeRules_parts]
      refine .append (.append ?_ ?_) (.append (.append ?_ ?_) ?_)
      · exact ((denyRules_replies site index passage inlet).harmless wired).maintains
      · refine (sound.harmless_bidRules serves.way _ ?_ ?_).maintains
        · simp [Innocent, Spared, wired.granted]
        · simp [Innocent, Spared, wired.denied]
      · exact wired.harmless_answerResetRules.maintains
      · refine .append ?_ ?_
        · intro rule member panel accounted _
          obtain ⟨freed, rfl⟩ := Site.mem_passedRules member
          exact released accounted
        · exact List.forall_mem_singleton.mpr fun panel accounted _ => released accounted
      · exact (sound.harmless_releaseDoneRules passage.exit).maintains
  | @originate name occupancy request _ used straight found kind =>
      have listed :
          straight.ab ∈ ({ name, occupancy, body := .straight straight } : Piece).passages := by
        simp [Piece.passages]
      have helper : layout.role used = .helper id :=
        sound.role_helper found (straight_of_signal kind).1
      have unsimulated : (straight.site occupancy).simulated = false := by
        simp [Straight.site, Straight.simulated, kind]
      have released : ∀ {panel : Panel}, layout.Accounted panel → layout.Accounted
          (layout.carry panel (straight.originRelease (layout.outlet? straight.ab.exit))) := by
        intro panel accounted
        have dropped := accounted.release sound found (sound.describes_straight found) listed
        rw [unsimulated] at dropped
        rw [Straight.originRelease_eq, Layout.carry, List.foldl_append]
        exact dropped.carry (sound.innocent_releaseNotice straight.ab.exit)
      rw [signalRouteRules_parts]
      refine .append (.append (by simp [Maintains]) ?_) (.append ?_ ?_)
      · exact (sound.harmless_bidRules ⟨_, found, listed⟩ _ (by simp) (by simp)).maintains
      · simp only [Maintains, Straight.originReleaseRules, List.forall_mem_cons]
        refine ⟨?_, fun panel accounted _ => released accounted, ?_, by simp⟩
        · intro panel accounted _
          refine released (accounted.write ?_)
          simp [Spared, helper]
        · intro panel accounted _
          exact accounted.carry (by simp [Innocent, Spared, helper])
      · exact (sound.harmless_releaseDoneRules straight.ab.exit).maintains
  | answer given =>
      exact (given.replies.harmless given.wired).maintains.append
        given.wired.harmless_answerResetRules.maintains

/-- Where occupancy is measured or copied, it may be written. -/
theorem Sound.innocent_occupancy (found : layout.piece? id = some piece)
    (unsimulated : piece.simulated = false) (value : Bool) :
    layout.Innocent (.set piece.occupancy value) := by
  cases sensed : piece.sensed with
  | true =>
      have given := sound.supplied found _ (piece.occupancy_supplied sensed)
      simp [Innocent, Spared, role_of_outside given]
  | false => simp [Innocent, Spared, sound.role_occupancy found sensed, found, unsimulated]

omit sound in
theorem Summarizes.harmless {rules : List Rule} (summarizes : layout.Summarizes rules) :
    layout.Harmless rules := by
  intro rule member action listed
  cases action with
  | set var value =>
      have passing := summarizes rule member var (List.mem_filterMap.mpr ⟨_, listed, rfl⟩)
      simp only [Innocent]
      cases role : layout.role var <;> first | trivial | simp [role, Role.lasting] at passing
  | goto | loadTimer => trivial

/-- A turn of a piece leaves all notes accounted for. -/
theorem Sound.maintains_accounted (found : layout.piece? id = some piece) :
    layout.Maintains layout.Accounted (piece.automaton layout).rules := by
  rw [piece.rules_automaton]
  refine .append (.append ?_ ?_) (sound.summary_summarizes found).harmless.maintains
  · obtain ⟨name, occupancy, body⟩ := piece
    cases body with
    | straight straight =>
        refine .append ?_ ((sound.describes_straight found).maintains_tracking sound found)
        obtain ⟨⟨seen, ab, ba⟩, kind, a, b⟩ := straight
        cases kind with
        | short | long | detector => simp [Maintains]
        | filtered raw window shadow =>
            have occupied := sound.innocent_occupancy found rfl
            have helper : layout.role shadow = .helper id := sound.role_helper found rfl
            refine Harmless.maintains ?_
            simp_all [Harmless, filterRules, Innocent, Spared]
        | signal request aspect used =>
            have occupied := sound.innocent_occupancy found rfl
            cases layout.neighbourOccupancy? a with
            | none => simp [Maintains]
            | some approaching =>
                refine Harmless.maintains ?_
                simp_all [Harmless, copyRules]
    | turnout turnout => exact (sound.describes_turnout found).maintains_tracking sound found
    | endpoint side => simp [Maintains, Piece.tracking]
  · intro rule member
    obtain ⟨duty, listed, member⟩ := List.mem_flatMap.mp member
    exact (sound.task found duty listed).maintains_accounted sound rule member

/-- What is written from outside concerns no note. -/
theorem Sound.spared_of_permits {var : Var} {value : Bool}
    (permitted : layout.Permits (.write var value)) : layout.Innocent (.set var value) := by
  rcases permitted with outside | member
  · simp [Innocent, Spared, role_of_outside outside]
  · obtain ⟨⟨name, occupancy, body⟩, listed, member⟩ := List.mem_flatMap.mp member
    obtain ⟨id, found⟩ := mem_pieces.mp listed
    cases body with
    | straight | turnout => cases member
    | endpoint side =>
        simp only [List.mem_cons, List.mem_flatMap, Option.mem_toList, List.not_mem_nil,
          or_false] at member
        rcases member with rfl | ⟨record, known, rfl | rfl⟩
        · exact sound.innocent_occupancy found rfl value
        · simp [Innocent, Spared, (sound.wired known).request]
        · simp [Innocent, Spared, (sound.wired known).released]

end Work

end Interlocking.Layout

namespace Interlocking

/-- In every operation all notes are accounted for. -/
theorem Operation.accounted (operation : Operation) :
    operation.layout.Accounted (operation.layout.panel operation.machine.memory) := by
  have sound : operation.layout.Sound := operation.sound.layout
  have kept : ∀ automaton ∈ operation.program.automata,
      operation.layout.Maintains operation.layout.Accounted automaton.rules := by
    intro automaton member
    rcases operation.mem_automata member with listed | ⟨vars, writes, outside⟩
    · obtain ⟨piece, known, rfl⟩ := List.mem_map.mp listed
      obtain ⟨id, found⟩ := Layout.mem_pieces.mp known
      exact sound.maintains_accounted found
    · have summarizes : operation.layout.Summarizes automaton.rules := by
        intro rule member var written
        rw [Layout.role_of_outside (outside var (writes rule member written))]
        rfl
      exact summarizes.harmless.maintains
  refine (Machine.play_induct (motive := fun _ machine =>
    machine.automata = operation.program.automata ∧
      operation.layout.Accounted (operation.layout.panel machine.memory)) ?_ ?_ operation.played).2
  · refine ⟨Machine.automata_powerOn .., ?_⟩
    simp only [Machine.powerOn, Layout.panel_zeros]
    exact .zeros operation.layout
  · rintro past event middle next inside _ ⟨automata, accounted⟩ reacted
    refine ⟨(Machine.automata_react reacted).trans automata, ?_⟩
    cases event with
    | turn index =>
        obtain ⟨changed, evaluated⟩ := Machine.react_turn_eq_ok reacted
        obtain ⟨cell, found, runs, _⟩ := operation.layout.runs_of_evaluate evaluated
        have listed : cell.automaton ∈ operation.program.automata :=
          automata ▸ Machine.mem_automata found
        exact Layout.Takes.each (kept _ listed) _ _ accounted runs
    | write var value =>
        have permitted := operation.permitted (.write var value) (inside.subset (by simp))
        obtain ⟨memory, stored, rfl⟩ := Machine.set_eq_ok reacted
        rw [Layout.panel_write stored]
        exact accounted.write (sound.spared_of_permits permitted)

section Junction

/-- The route over the junction is set, and its end reports a train that came from `w`. -/
def passedJunction : Operation :=
  (Operation.start? {} junction [junctionArbiter] {} [
    .write ⟨2⟩ true, .turn 1, .turn 2, .turn 3, .turn 2, .turn 1, .turn 4, .write ⟨106⟩ true,
    .turn 2]).get (by decide +kernel)

theorem passedJunction_shows :
    passedJunction.layout.piece? ⟨2⟩ = some junctionShort ∧
    passedJunction.machine.get ⟨83⟩ = .ok true := by
  decide +kernel

end Junction

/-- A piece notes a train only while one of its routes is set, and where no sensor tells of
trains it is occupied exactly while it has noted one. So without a route it is not occupied. -/
theorem no_phantom_occupancy (operation : Operation) {id : PieceId} {piece : Piece}
    (found : operation.layout.piece? id = some piece) {seen : Var}
    (latch : piece.seen? = some seen) :
    ∃ noted, operation.machine.get seen = .ok noted ∧
      (noted = true → ∃ route ∈ piece.routes, operation.machine.get route = .ok true) ∧
      (piece.simulated = true → operation.machine.get piece.occupancy = .ok noted ∧
        ((∀ route ∈ piece.routes, operation.machine.get route = .ok false) →
          operation.machine.get piece.occupancy = .ok false)) := by
  have sound : operation.layout.Sound := operation.sound.layout
  have accounted := operation.accounted
  have reserved : operation.layout.panel operation.machine.memory (.seen id) = true →
      ∃ route ∈ piece.routes, operation.machine.get route = .ok true := by
    intro noted
    obtain ⟨passage, member, route⟩ := accounted.reserved found noted
    refine ⟨passage.route, List.mem_map_of_mem member, ?_⟩
    rw [(operation.safe.get_way sound ⟨piece, found, member⟩).1, route]
  refine ⟨_, operation.safe.get_eq sound
    (Layout.mem_roles_piece found (by simp [Piece.roles, latch])), reserved, ?_⟩
  intro simulated
  have shown : operation.machine.get piece.occupancy =
      .ok (operation.layout.panel operation.machine.memory (.seen id)) := by
    rw [← accounted.occupied found simulated]
    exact operation.safe.get_eq sound (Layout.mem_roles_simulated found simulated)
  refine ⟨shown, ?_⟩
  intro unreserved
  rw [shown]
  by_contra occupied
  obtain ⟨route, member, set⟩ := reserved (by simpa using occupied)
  rw [unreserved route member] at set
  cases set

theorem no_phantom_occupancy_at_junction :
    passedJunction.layout.piece? ⟨2⟩ = some junctionShort ∧
      junctionShort.seen? = some ⟨83⟩ ∧ junctionShort.simulated = true ∧
      passedJunction.machine.get ⟨83⟩ = .ok true ∧
      (∃ route ∈ junctionShort.routes, passedJunction.machine.get route = .ok true) ∧
      passedJunction.machine.get ⟨82⟩ = .ok true := by
  obtain ⟨found, seen⟩ := passedJunction_shows
  obtain ⟨noted, shown, reserved, occupied⟩ := no_phantom_occupancy passedJunction found rfl
  obtain rfl := Except.ok.inj (seen.symm.trans shown)
  exact ⟨found, rfl, rfl, seen, reserved rfl, (occupied rfl).1⟩

end Interlocking
