import Interlocking.Proofs.Turns

/-!
# Turns without trains

As long as no sensor shows a train, no piece notices one: its turn leaves the bits that tell
of trains at 0. In such turns a route is given up only if it is not asked for any more, and
it is given up at once. So at the end of each turn every reserved passage for which a
neighbour can ask has its grant, and every grant that is made use of stands on a reserved
passage.
-/

namespace Interlocking

open Function (update)

/-- The variables that tell of trains from outside: detectors, raw sensors and the occupancy
of endpoints. -/
def Piece.sensors (piece : Piece) : List Var :=
  match piece.body with
  | .straight { kind := .detector _, .. } => [piece.occupancy]
  | .straight { kind := .filtered raw _ _, .. } => [raw]
  | .endpoint _ => [piece.occupancy]
  | _ => []

theorem Role.reserving_of_apart {role : Role} (apart : role.inProtocol = false) :
    role.reserving = false := by
  cases role <;> first | rfl | cases apart

namespace Layout

variable {layout : Layout} {id : PieceId} {piece : Piece} {stand : PieceId → Bool} {panel : Panel}

/-- No piece has noticed a train. -/
structure Unnoticed (panel : Panel) : Prop where
  seen : ∀ id, panel (.seen id) = false
  occupancy : ∀ id, panel (.occupancy id) = false
  helper : ∀ id, panel (.helper id) = false

/-- No sensor shows a train, and no piece has noticed one. -/
structure Vacant (layout : Layout) (panel : Panel) : Prop extends Unnoticed panel where
  sensors : ∀ {id piece}, layout.piece? id = some piece → ∀ var ∈ piece.sensors,
    panel (layout.role var) = false

/-- A sensor tells nothing of reservations. -/
theorem Sound.sensor_apart (sound : layout.Sound) (found : layout.piece? id = some piece) {var : Var}
    (member : var ∈ piece.sensors) : (layout.role var).reserving = false := by
  have occupied := Role.reserving_of_apart (sound.occupancy_aside found)
  unfold Piece.sensors at member
  split at member
  · exact List.mem_singleton.mp member ▸ occupied
  · rename_i raw window shadow _ _ _ _ _ body
    obtain rfl := List.mem_singleton.mp member
    rw [role_of_outside (sound.supplied found var (by simp [Piece.supplied, body]))]
    rfl
  · exact List.mem_singleton.mp member ▸ occupied
  · cases member

section Tracking

variable (vacant : layout.Vacant panel) (sound : layout.Sound)

include vacant sound

theorem Vacant.unoccupied (found : layout.piece? id = some piece) :
    panel (layout.role piece.occupancy) = false := by
  cases sensed : piece.sensed with
  | true =>
      apply vacant.sensors found
      unfold Piece.sensed at sensed
      split at sensed
      · rename_i body
        simp [Piece.sensors, body]
      · cases sensed
  | false =>
      rw [sound.role_occupancy found sensed]
      exact vacant.occupancy id

theorem Vacant.unoccupied_neighbour {side : SideId} {next : Var}
    (known : layout.neighbourOccupancy? side = some next) : panel (layout.role next) = false := by
  obtain ⟨neighbour, joined, rfl⟩ := Option.map_eq_some_iff.mp known
  obtain ⟨mate, _, owner⟩ := Option.bind_eq_some_iff.mp joined
  obtain ⟨record, _, found⟩ := Option.bind_eq_some_iff.mp owner
  exact vacant.unoccupied sound found

theorem Vacant.rests_site {site : Site} (found : layout.piece? id = some piece)
    (describes : layout.Describes id piece site) :
    layout.Rests panel (site.seenRules layout ++ site.clearRules) := by
  have unseen : panel (layout.role site.seen) = false := describes.seen ▸ vacant.seen id
  have unoccupied : panel (layout.role site.occupancy) = false :=
    describes.occupancy ▸ vacant.unoccupied sound found
  apply Rests.append
  · intro rule member sees
    obtain ⟨passage, _, made⟩ := List.mem_filterMap.mp member
    obtain ⟨next, known, rfl⟩ := Option.map_eq_some_iff.mp made
    have occupied := sees (.on next) (by simp)
    simp [Sees, vacant.unoccupied_neighbour sound known] at occupied
  · intro rule member sees
    rcases List.mem_cons.mp member with rfl | member
    · have noticed := sees (.on site.seen) (by simp)
      simp [Sees, unseen] at noticed
    · split at member
      · obtain rfl := List.mem_singleton.mp member
        have occupied := sees (.on site.occupancy) (by simp)
        simp [Sees, unoccupied] at occupied
      · cases member

/-- Without trains there is nothing to keep track of. -/
theorem Vacant.rests_tracking (found : layout.piece? id = some piece) :
    layout.Rests panel (piece.tracking layout) := by
  have unoccupied := vacant.unoccupied sound found
  obtain ⟨name, occupancy, body⟩ := piece
  cases body with
  | straight straight =>
      refine Rests.append ?_ (vacant.rests_site sound found (sound.describes_straight found))
      obtain ⟨⟨seen, ab, ba⟩, kind, a, b⟩ := straight
      cases kind with
      | short | long | detector => simp [Rests]
      | filtered raw window shadow =>
          have clear := vacant.sensors found raw (List.mem_singleton.mpr rfl)
          have unshadowed := vacant.helper id
          rw [← sound.role_helper found rfl] at unshadowed
          simp_all [Rests, filterRules, Sees]
      | signal request aspect used =>
          cases known : layout.neighbourOccupancy? a with
          | none => simp [Rests]
          | some approaching =>
              have approached := vacant.unoccupied_neighbour sound known
              simp_all [Rests, copyRules, Sees]
  | turnout turnout => exact vacant.rests_site sound found (sound.describes_turnout found)
  | endpoint side => simp [Rests, Piece.tracking]

end Tracking

section Reserving

/-- The rules write nothing but bits that tell of reservations. -/
def Reserves (layout : Layout) (rules : List Rule) : Prop :=
  ∀ rule ∈ rules, ∀ var ∈ rule.writes, (layout.role var).reserving = true

theorem Replies.reserves {inlet : Handshake} {asker : SideId} {rules : List Rule}
    (replies : Replies inlet rules) (wired : layout.Wired inlet asker) : layout.Reserves rules := by
  intro rule member var written
  obtain ⟨_, _, _, answer⟩ := replies rule member
  rcases answer with raised | raised <;> simp only [Rule.writes, raised, List.filterMap_cons,
    Action.var?, List.filterMap_nil, List.mem_singleton] at written <;> subst written
  · rw [wired.granted]
    rfl
  · rw [wired.denied]
    rfl

theorem Wired.reserves_answerResetRules {inlet : Handshake} {asker : SideId}
    (wired : layout.Wired inlet asker) : layout.Reserves (answerResetRules inlet) := by
  simp [Reserves, answerResetRules, Rule.writes, Action.var?, wired.granted, wired.denied,
    Role.reserving]

theorem Sound.reserves_releaseDoneRules (sound : layout.Sound) (exit : SideId) :
    layout.Reserves (releaseDoneRules (layout.outlet? exit)) := by
  cases known : layout.outlet? exit with
  | none => simp [Reserves, releaseDoneRules]
  | some outlet =>
      simp [Reserves, releaseDoneRules, Rule.writes, Action.var?, (sound.outlet known).released,
        Role.reserving]

theorem selector_plain (site : Site) (index : Nat) (passage : Passage) :
    ∀ condition ∈ site.selector index passage, condition.var?.isSome := by
  unfold Site.selector
  split <;> simp [Condition.var?]

/-- A refusal is a reply like any other. -/
theorem denyRules_replies (site : Site) (index : Nat) (passage : Passage) (inlet : Handshake) :
    Replies inlet (site.denyRules index passage inlet) := by
  intro rule member
  obtain ⟨var, value, rfl⟩ := Site.mem_denyRules member
  refine ⟨[Condition.off passage.pending, .off passage.route] ++ site.selector index passage ++
    [Condition.bit var value], by simp [Site.asked], ?_, .inr rfl⟩
  simp only [List.forall_mem_append, List.forall_mem_cons]
  exact ⟨⟨⟨rfl, rfl, by simp⟩, selector_plain site index passage⟩, rfl, by simp⟩

namespace Serves

variable {site : Site} {index : Nat} {passage : Passage} {inlet : Handshake} {asker : SideId}
  (serves : layout.Serves id piece site index passage inlet asker) (sound : layout.Sound)

include serves sound

theorem reserves_acceptRules :
    layout.Reserves (site.acceptRules index passage inlet (layout.outlet? passage.exit)) := by
  have route := sound.role_route serves.way
  have pending := sound.role_pending serves.way
  cases known : layout.outlet? passage.exit with
  | none =>
      simp only [Reserves, Site.acceptRules, Rule.writes, List.filterMap_cons, Action.var?,
        List.filterMap_nil, List.forall_mem_cons, route, serves.wired.granted]
      simp [Role.reserving]
  | some outlet =>
      simp only [Reserves, Site.acceptRules, Rule.writes, List.filterMap_cons, Action.var?,
        List.filterMap_nil, List.forall_mem_cons, route, pending, serves.wired.granted,
        serves.wired.denied, (sound.outlet known).request]
      simp [Role.reserving]

end Serves

theorem Sound.reserves_originRules (sound : layout.Sound) {straight : Straight}
    (way : layout.Way id straight.ab) (request used : Var) :
    layout.Reserves (straight.originRules request used (layout.outlet? straight.ab.exit)) := by
  have route := sound.role_route way
  have pending := sound.role_pending way
  cases known : layout.outlet? straight.ab.exit with
  | none => simp [Reserves, Lane.originRules, Rule.writes, Action.var?, route, Role.reserving]
  | some outlet =>
      simp only [Reserves, Lane.originRules, Rule.writes, List.filterMap_cons, Action.var?,
        List.filterMap_nil, List.forall_mem_cons, route, pending, (sound.outlet known).request]
      simp [Role.reserving]

end Reserving

section Duties

/-- The action sets a bit that tells of reservations, or it clears a bit. -/
def Modest (layout : Layout) : Action → Prop
  | .set var value => (layout.role var).reserving = true ∨ value = false
  | _ => True

theorem Reserves.modest {rules : List Rule} (reserves : layout.Reserves rules) :
    ∀ rule ∈ rules, ∀ action ∈ rule.actions, layout.Modest action := by
  intro rule member action listed
  cases action with
  | set var value => exact .inl (reserves rule member var (List.mem_filterMap.mpr ⟨_, listed, rfl⟩))
  | goto | loadTimer => trivial

variable (sound : layout.Sound)

include sound

/-- Modest actions make no bit tell of a train. -/
theorem Vacant.carry (vacant : layout.Vacant panel) {actions : List Action}
    (modest : ∀ action ∈ actions, layout.Modest action) :
    layout.Vacant (layout.carry panel actions) := by
  induction actions generalizing panel with
  | nil => exact vacant
  | cons action actions ih =>
      obtain ⟨first, modest⟩ := List.forall_mem_cons.mp modest
      refine ih ?_ modest
      cases action with
      | goto | loadTimer => exact vacant
      | set var value =>
          have kept : ∀ role : Role, role.reserving = false → panel role = false →
              update panel (layout.role var) value role = false := by
            intro role apart unset
            by_cases same : role = layout.role var
            · subst same
              simp [first.resolve_left (by simp [apart])]
            · simp [same, unset]
          exact {
            seen := fun id => kept _ rfl (vacant.seen id)
            occupancy := fun id => kept _ rfl (vacant.occupancy id)
            helper := fun id => kept _ rfl (vacant.helper id)
            sensors := fun found var member =>
              kept _ (sound.sensor_apart found member) (vacant.sensors found var member) }

theorem Sound.maintains_vacant {rules : List Rule}
    (modest : ∀ rule ∈ rules, ∀ action ∈ rule.actions, layout.Modest action) :
    layout.Maintains layout.Vacant rules :=
  fun rule member _ vacant _ => vacant.carry sound (modest rule member)

theorem Sound.modest_releaseNotice (exit : SideId) :
    ∀ action ∈ releaseNotice (layout.outlet? exit), layout.Modest action := by
  cases known : layout.outlet? exit with
  | none => simp [releaseNotice]
  | some outlet =>
      simp [releaseNotice, Modest, (sound.outlet known).request, (sound.outlet known).released,
        Role.reserving]

theorem Sound.modest_releaseActions (site : Site) (passage : Passage) :
    ∀ action ∈ site.releaseActions passage (layout.outlet? passage.exit), layout.Modest action := by
  rw [Site.releaseActions_eq]
  simp only [List.forall_mem_append]
  refine ⟨⟨by simp [Modest], ?_⟩, sound.modest_releaseNotice passage.exit⟩
  split <;> simp [Modest]

theorem Serves.modest_workRules {site : Site} {index : Nat} {passage : Passage} {inlet : Handshake}
    {asker : SideId} (serves : layout.Serves id piece site index passage inlet asker) :
    ∀ rule ∈ site.workRules index passage inlet (layout.outlet? passage.exit),
      ∀ action ∈ rule.actions, layout.Modest action := by
  have released := sound.modest_releaseActions site passage
  simp only [Site.workRules, List.forall_mem_append]
  refine ⟨⟨⟨?_, (serves.reserves_acceptRules sound).modest⟩,
    serves.wired.reserves_answerResetRules.modest⟩, ?_, ?_⟩
  · exact ((denyRules_replies site index passage inlet).reserves serves.wired).modest
  · intro rule member
    obtain ⟨freed, rfl⟩ := Site.mem_passedRules member
    exact released
  · exact List.forall_mem_singleton.mpr released

/-- No duty makes a bit tell of a train. -/
theorem Task.maintains_vacant {duty : Duty} (task : layout.Task id duty) :
    layout.Maintains layout.Vacant duty.rules := by
  cases task with
  | rest => simp [Maintains]
  | @negotiate _ _ _ passage _ _ serves =>
      rw [Site.handshakeRules_eq]
      exact (sound.maintains_vacant (serves.modest_workRules sound)).append
        (sound.maintains_vacant (sound.reserves_releaseDoneRules passage.exit).modest)
  | @originate _ _ request _ used straight found kind =>
      have way : layout.Way id straight.ab := ⟨_, found, by simp [Piece.passages]⟩
      have seen : layout.role straight.seen = .seen id := sound.role_seen found rfl
      have released : ∀ action ∈ straight.originRelease (layout.outlet? straight.ab.exit),
          layout.Modest action := by
        rw [Straight.originRelease_eq]
        exact List.forall_mem_append.mpr
          ⟨by simp [Modest], sound.modest_releaseNotice straight.ab.exit⟩
      rw [Straight.signalRouteRules_eq]
      refine ((sound.maintains_vacant (sound.reserves_originRules way request used).modest).append
        ?_).append (sound.maintains_vacant (sound.reserves_releaseDoneRules _).modest)
      simp only [Maintains, Straight.originReleaseRules, List.forall_mem_cons]
      refine ⟨?_, ?_, ?_, by simp⟩
      · -- The signal has to have seen a train.
        intro panel vacant sees
        simp [Sees, seen, vacant.seen] at sees
      · exact fun panel vacant _ => vacant.carry sound released
      · exact fun panel vacant _ => vacant.carry sound (by simp [Modest])
  | answer given =>
      exact (sound.maintains_vacant (given.replies.reserves given.wired).modest).append
        (sound.maintains_vacant given.wired.reserves_answerResetRules.modest)

end Duties

section Grants

/-- Every reserved passage for which a neighbour can ask has its grant. -/
def Standing (layout : Layout) (panel : Panel) : Prop :=
  ∀ {passage asker}, layout.Asked passage → layout.mate? passage.entry = some asker →
    panel (.route passage) = true → panel (.granted asker) = true

/-- The passage is reserved only while the neighbour asks for it. -/
def Prompt (passage : Passage) (asker : SideId) (panel : Panel) : Prop :=
  panel (.route passage) = true → panel (.request asker) = true

/-- What a piece does elsewhere does not touch the request for a reserved passage: a request
is withdrawn together with a passage in use, and only one can be in use. -/
theorem Deed.prompt {before after : Panel} {work : Option Passage} {loose : Option SideId}
    (deed : layout.Deed id before work after) (orderly : layout.Orderly loose before)
    {passage : Passage} (way : layout.Way id passage) (elsewhere : work ≠ some passage)
    {asker : SideId} (prompt : Prompt passage asker before) : Prompt passage asker after := by
  intro reserved
  rw [(deed.elsewhere elsewhere).1] at reserved
  have requested := prompt reserved
  cases deed with
  | refuse | concede | arrive | confirm | leave | withdraw | forget | settle => simpa using requested
  | ask => simp [Function.update_apply, requested]
  | @abandon changed patron mate against served bound pending
  | @release changed patron mate against served bound pending =>
      have differs : asker ≠ changed.exit := by
        intro same
        have equal := orderly.exclusive.alone against way (by simp [Panel.Held, pending])
          (.inl reserved)
        exact elsewhere (congrArg some equal)
      simpa [differs] using requested

variable (sound : layout.Sound)

include sound

/-- What is left of a passage whose route was cleared and whose exit was told. -/
theorem Sound.released_passage {passage : Passage} {cleared : Panel}
    (alike : cleared.Alike (update panel (.route passage) false)) :
    layout.carry cleared (releaseNotice (layout.outlet? passage.exit)) (.route passage) = false ∧
      layout.carry cleared (releaseNotice (layout.outlet? passage.exit)) (.pending passage) =
        panel (.pending passage) := by
  have route := alike (.route passage) rfl
  have pending := alike (.pending passage) rfl
  cases known : layout.outlet? passage.exit with
  | none => simp [releaseNotice, carry, route, pending]
  | some outlet =>
      have wired := sound.outlet known
      simp [releaseNotice, carry, act, wired.request, wired.released, route, pending]

theorem Serves.released_passage {site : Site} {index : Nat} {passage : Passage}
    {inlet : Handshake} {asker : SideId}
    (serves : layout.Serves id piece site index passage inlet asker) (panel : Panel) :
    layout.carry panel (site.releaseActions passage (layout.outlet? passage.exit))
        (.route passage) = false ∧
      layout.carry panel (site.releaseActions passage (layout.outlet? passage.exit))
        (.pending passage) = panel (.pending passage) := by
  rw [Site.releaseActions_eq, carry, List.foldl_append]
  exact sound.released_passage (serves.alike_cleared sound panel)

/-- After the work on it, a passage is reserved only while the neighbour asks for it. -/
theorem Serves.takes_prompt {site : Site} {index : Nat} {passage : Passage} {inlet : Handshake}
    {asker : SideId} (serves : layout.Serves id piece site index passage inlet asker) :
    layout.Takes layout.Vacant
      (site.handshakeRules index passage inlet (layout.outlet? passage.exit))
      (Prompt passage asker) := by
  have modest := serves.modest_workRules sound
  simp only [Site.workRules, List.forall_mem_append] at modest
  obtain ⟨⟨⟨deny, accept⟩, reset⟩, passed, _⟩ := modest
  have front := sound.maintains_vacant
    (List.forall_mem_append.mpr ⟨List.forall_mem_append.mpr ⟨List.forall_mem_append.mpr
      ⟨deny, accept⟩, reset⟩, passed⟩)
  refine ((Takes.each front).append (Takes.single ?_ ?_)).append (Takes.each ?_)
  · intro panel _ _ reserved
    rw [Site.withdrawnRule, (serves.released_passage sound panel).1] at reserved
    cases reserved
  · -- Without a train the route is kept only because it is asked for.
    rintro panel vacant ⟨condition, member, misses⟩ reserved
    have unoccupied := vacant.unoccupied sound serves.found
    rw [← serves.describes.occupancy] at unoccupied
    simp only [Site.withdrawnRule, List.mem_cons, List.not_mem_nil, or_false] at member
    rcases member with rfl | rfl | rfl | rfl
    · simp [Misses, sound.role_route serves.way, reserved] at misses
    · simp [Misses, serves.describes.seen, vacant.seen] at misses
    · simp [Misses, unoccupied] at misses
    · simpa [Misses, serves.wired.request] using misses
  · cases known : layout.outlet? passage.exit with
    | none => simp [Maintains, releaseDoneRules]
    | some outlet =>
        simp only [Maintains, releaseDoneRules, List.forall_mem_cons, carry, List.foldl_cons,
          List.foldl_nil, act, (sound.outlet known).released]
        exact ⟨fun panel prompt _ => by simpa [Prompt] using prompt, by simp⟩

variable (found : layout.piece? id = some piece)

include found

theorem Sound.duties_prompt {passage : Passage} (asked : passage ∈ piece.asked) {asker : SideId}
    (joined : layout.mate? passage.entry = some asker) :
    layout.Takes (fun panel => (layout.Steady stand none panel ∧ layout.Vacant panel) ∧ True)
      ((piece.duties layout).flatMap Duty.rules) (Prompt passage asker) := by
  have way : layout.Way id passage := ⟨piece, found, mem_passages_of_mem_asked asked⟩
  obtain ⟨site, index, inlet, serves, member⟩ := sound.negotiates found asked joined
  obtain ⟨earlier, later, divided⟩ := List.append_of_mem member
  have task := sound.task found
  have nodup := sound.duties_nodup found
  have kept : ∀ duty ∈ piece.duties layout, layout.Takes
      (fun panel => (layout.Steady stand none panel ∧ layout.Vacant panel) ∧ True) duty.rules
      (fun panel => (layout.Steady stand none panel ∧ layout.Vacant panel) ∧ True) :=
    fun duty listed => (task duty listed).keeps sound ((task duty listed).maintains_vacant sound)
      (fun _ _ _ _ => trivial) (fun _ _ => trivial)
  rw [divided] at task nodup kept ⊢
  rw [List.flatMap_append, List.flatMap_cons]
  -- The duty of the passage makes it prompt, and the later ones are about other passages.
  have worked := (kept _ (List.mem_append_right _ List.mem_cons_self)).and
    fun before after ⟨⟨_, vacant⟩, _⟩ => serves.takes_prompt sound before after vacant
  have prompts : layout.Takes (fun panel =>
      (layout.Steady stand none panel ∧ layout.Vacant panel) ∧ Prompt passage asker panel)
      (later.flatMap Duty.rules) (fun panel =>
        (layout.Steady stand none panel ∧ layout.Vacant panel) ∧ Prompt passage asker panel) := by
    apply Takes.flatMap
    intro duty listed
    have known := task duty (by simp [listed])
    have elsewhere : duty.passage ≠ some passage := by
      intro same
      rw [List.filterMap_append, List.filterMap_cons] at nodup
      have absent := (List.nodup_cons.mp (List.nodup_append.mp nodup).2.1).1
      exact absent (List.mem_filterMap.mpr ⟨duty, listed, same⟩)
    exact known.keeps sound (known.maintains_vacant sound)
      (fun orderly _ prompt deed => deed.prompt orderly way elsewhere prompt)
      (fun alike prompt reserved =>
        (alike _ rfl).trans (prompt ((alike _ rfl).symm.trans reserved)))
  have started := Takes.flatMap fun duty listed => kept duty (List.mem_append_left _ listed)
  intro before after holds runs
  obtain ⟨begun, first, runs⟩ := runs.split
  obtain ⟨done, second, third⟩ := runs.split
  obtain ⟨⟨steady, _⟩, prompt⟩ := worked begun done (started before begun holds first) second
  exact (prompts done after ⟨steady, prompt⟩ third).2

end Grants

/-- What is known of the reservations as long as there are no trains. -/
structure Undisturbed (layout : Layout) (panel : Panel) : Prop where
  linked : layout.Linked panel
  ranked : layout.Ranked panel
  announced : layout.Announced panel
  backed : layout.Backed panel
  standing : layout.Standing panel

theorem Undisturbed.congr {other : Panel} (undisturbed : layout.Undisturbed other)
    (same : ∀ role, role.reserving = true → (∀ side, role ≠ .request side) →
      panel role = other role)
    (requests : ∀ side, layout.Inner side → panel (.request side) = other (.request side)) :
    layout.Undisturbed panel where
  linked := undisturbed.linked.congr (fun _ => same _ rfl (by simp)) (fun _ => same _ rfl (by simp))
  ranked := undisturbed.ranked.congr (fun _ => same _ rfl (by simp))
    (fun _ => same _ rfl (by simp)) (fun _ => same _ rfl (by simp))
  announced := Announced.congr undisturbed.announced fun _ => same _ rfl (by simp)
  backed := Backed.congr undisturbed.backed (fun _ => same _ rfl (by simp))
    (fun _ => same _ rfl (by simp)) requests
  standing := fun asked joined reserved => (same _ rfl (by simp)).trans
    (undisturbed.standing asked joined ((same _ rfl (by simp)).symm.trans reserved))

/-- Nothing is known of reservations where there are none. -/
theorem Undisturbed.zeros (layout : Layout) : layout.Undisturbed (fun _ => false) where
  linked := by constructor <;> simp [Panel.Held]
  ranked := ⟨fun _ => 0, 1, by simp, fun leads => by simpa [Panel.Held] using leads.used⟩
  announced := by simp [Announced]
  backed := by simp [Backed]
  standing := by simp [Standing]

/-- While there are no trains, a turn of a piece notices none and leaves the reservations
undisturbed. -/
theorem Sound.vacant_turn (sound : layout.Sound) (found : layout.piece? id = some piece) :
    layout.Takes (fun panel => layout.Steady stand none panel ∧ layout.Vacant panel ∧
        layout.Undisturbed panel)
      (piece.automaton layout).rules
      (fun panel => Unnoticed panel ∧ layout.Undisturbed panel) := by
  intro before after ⟨steady, vacant, undisturbed⟩ runs
  rw [piece.rules_automaton] at runs
  obtain ⟨worked, runs, summing⟩ := runs.split
  obtain ⟨tracked, tracking, working⟩ := runs.split
  obtain rfl := (vacant.rests_tracking sound found).eq_of_runs tracking
  have kept : layout.Takes
      (fun panel => (layout.Steady stand none panel ∧ layout.Vacant panel) ∧
        layout.Linked panel ∧ layout.Ranked panel ∧ layout.Announced panel ∧
          layout.Backed panel ∧ layout.Kept id panel) _ _ :=
    sound.duties_keep found
      (fun duty member => (sound.task found duty member).maintains_vacant sound)
      (fun orderly vacant ⟨linked, ranked, announced, backed, kept⟩ deed =>
        ⟨deed.linked_after sound orderly linked, deed.ranked sound orderly linked ranked,
          deed.announced announced, deed.backed sound (vacant.seen id) backed,
          deed.kept sound orderly announced kept⟩)
      (fun alike ⟨linked, ranked, announced, backed, kept⟩ =>
        ⟨linked.congr (fun _ => alike _ rfl) (fun _ => alike _ rfl),
          ranked.congr (fun _ => alike _ rfl) (fun _ => alike _ rfl) (fun _ => alike _ rfl),
          announced.congr (fun _ => alike _ rfl),
          backed.congr (fun _ => alike _ rfl) (fun _ => alike _ rfl) (fun _ _ => alike _ rfl),
          fun way asked joined reserved => by
            rw [alike _ rfl, alike _ rfl]
            exact kept way asked joined ((alike _ rfl).symm.trans reserved)⟩)
  have held : layout.Kept id tracked :=
    fun _ asked joined reserved => .inl (undisturbed.standing asked joined reserved)
  obtain ⟨⟨_, vacantAfter⟩, linked, ranked, announced, backed, held⟩ := kept tracked worked
    ⟨⟨steady, vacant⟩, undisturbed.linked, undisturbed.ranked, undisturbed.announced,
      undisturbed.backed, held⟩ working
  have standing : layout.Standing worked := by
    intro passage asker asked joined reserved
    obtain ⟨place, way⟩ := asked.way
    refine (held way asked joined reserved).resolve_right ?_
    intro ⟨same, unrequested⟩
    obtain ⟨own, known, member⟩ := same ▸ way
    obtain rfl := Option.some.inj (found.symm.trans known)
    have entered := ((sound.shaped found).leads member).1
    have prompt := sound.duties_prompt found (sound.mem_asked found entered asked rfl) joined
      tracked worked ⟨⟨steady, vacant⟩, trivial⟩ working
    rw [prompt reserved] at unrequested
    cases unrequested
  have summed := (sound.summary_summarizes found).maintains
    (fun {panel other} same (holds : Unnoticed other ∧ layout.Undisturbed other) => by
      refine ⟨⟨?_, ?_, ?_⟩, holds.2.congr ?_ ?_⟩
      · exact fun id => (same _ rfl).trans (holds.1.seen id)
      · exact fun id => (same _ rfl).trans (holds.1.occupancy id)
      · exact fun id => (same _ rfl).trans (holds.1.helper id)
      · exact fun role reserving _ => same role (Role.lasting_of_reserving reserving)
      · exact fun _ _ => same _ rfl)
  exact Takes.each summed worked after
    ⟨vacantAfter.toUnnoticed, linked, ranked, announced, backed, standing⟩ summing

end Layout

end Interlocking
