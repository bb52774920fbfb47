import Interlocking.Proofs.Alertness

/-!
# Turns that change nothing in the end

A turn could do several things that cancel each other. Without trains this does not happen:
in the work on a passage what was begun is not undone, and an answer is given only to a
request that is there and taken back only after the request was. So a turn without trains that
leaves all variables as they were is one in which the piece has nothing to do.
-/

namespace Interlocking

open Function (update)

/-- Where an answer or an announced release is heading: answers follow the request, and no
release is announced for long. -/
def Panel.aim (panel : Panel) : Role → Bool
  | .granted side | .denied side => panel (.request side)
  | .released _ => false
  | role => panel role

/-- Nothing has moved away from where it is heading. -/
def Panel.Eases (before after : Panel) : Prop :=
  ∀ role, before role = before.aim role → after role = before role

/-- One bit has moved to where it is heading. -/
def Panel.Settles (before after : Panel) : Prop :=
  ∃ role, before role ≠ before.aim role ∧ after = update before role (before.aim role)

namespace Panel

variable {before middle after : Panel}

theorem Eases.refl (panel : Panel) : panel.Eases panel := fun _ _ => rfl

theorem Eases.aim_eq (eases : before.Eases after) : after.aim = before.aim := by
  funext role
  cases role with
  | granted side | denied side => exact eases (.request side) rfl
  | released side => rfl
  | request | route | pending | seen | occupancy | helper | position | anyRoute | outside =>
      exact eases _ rfl

theorem Eases.trans (first : before.Eases middle) (second : middle.Eases after) :
    before.Eases after := by
  intro role arrived
  have kept := first role arrived
  rw [← kept]
  apply second
  rw [kept, arrived, first.aim_eq]

/-- What has moved does not come back. -/
theorem Eases.antisymm (first : before.Eases after) (second : after.Eases before) :
    after = before := by
  funext role
  by_cases arrived : before role = before.aim role
  · exact first role arrived
  · by_cases back : after role = after.aim role
    · exact (second role back).symm
    · rw [first.aim_eq] at back
      rw [Bool.eq_not_of_ne back, Bool.eq_not_of_ne arrived]

theorem Settles.eases (settles : before.Settles after) : before.Eases after := by
  obtain ⟨role, _, rfl⟩ := settles
  intro other arrived
  by_cases same : other = role
  · subst same
    rw [Function.update_self, arrived]
  · exact Function.update_of_ne same _ _

theorem Settles.ne (settles : before.Settles after) : after ≠ before := by
  obtain ⟨role, differs, rfl⟩ := settles
  intro same
  have shown := congrFun same role
  rw [Function.update_self] at shown
  exact differs shown.symm

end Panel

namespace Layout

variable {layout : Layout} {id : PieceId} {piece : Piece} {passage : Passage}
  {before after : Panel} {ground : Panel → Prop}

/-- Rules that each settle something, or else drop something, together settle or drop it. If
they have changed nothing in the end, none of them fires. -/
theorem Runs.eases_or_drops {rules : List Rule} (runs : layout.Runs rules before after)
    (holds : ground before) (kept : layout.Maintains ground rules)
    (alert : ∀ rule ∈ rules, rule.Alert) (drops : Panel → Panel → Prop)
    (each : ∀ rule ∈ rules, ∀ panel, ground panel →
      (∀ condition ∈ rule.conditions, layout.Sees panel condition) →
      panel.Settles (layout.carry panel rule.actions) ∨ drops panel (layout.carry panel rule.actions))
    (late : ∀ {x y z : Panel}, x.Eases y → drops y z → drops x z)
    (early : ∀ {x y z : Panel}, drops x y → y.Eases z ∨ drops y z → drops x z) :
    before.Eases after ∧ (after = before → layout.Rests before rules) ∨ drops before after := by
  induction runs with
  | done => exact .inl ⟨.refl _, fun _ => by simp [Rests]⟩
  | @fire rule rules before after seen rest ih =>
      have ih := ih (kept rule List.mem_cons_self before holds seen)
        (fun other member => kept other (List.mem_cons_of_mem _ member))
        (fun other member => alert other (List.mem_cons_of_mem _ member))
        (fun other member => each other (List.mem_cons_of_mem _ member))
      rcases each rule List.mem_cons_self before holds seen with settles | dropped
      · rcases ih with ⟨eases, _⟩ | dropped
        · refine .inl ⟨settles.eases.trans eases, ?_⟩
          intro same
          subst same
          exact absurd (settles.eases.antisymm eases) settles.ne
        · exact .inr (late settles.eases dropped)
      · exact .inr (early dropped (ih.imp_left And.left))
  | @skip rule rules before after missed rest ih =>
      rcases ih holds (fun other member => kept other (List.mem_cons_of_mem _ member))
        (fun other member => alert other (List.mem_cons_of_mem _ member))
        (fun other member => each other (List.mem_cons_of_mem _ member)) with
        ⟨eases, rests⟩ | dropped
      · refine .inl ⟨eases, fun same => List.forall_mem_cons.mpr ⟨?_, rests same⟩⟩
        exact not_sees_of_misses (alert rule List.mem_cons_self).plain missed
      · exact .inr dropped

/-- Each rule that fires settles something. -/
def Settling (layout : Layout) (ground : Panel → Prop) (rules : List Rule) : Prop :=
  ∀ rule ∈ rules, ∀ panel, ground panel →
    (∀ condition ∈ rule.conditions, layout.Sees panel condition) →
    panel.Settles (layout.carry panel rule.actions)

theorem Settling.eases {rules : List Rule} (settling : layout.Settling ground rules)
    (runs : layout.Runs rules before after) (holds : ground before)
    (kept : layout.Maintains ground rules) (alert : ∀ rule ∈ rules, rule.Alert) :
    before.Eases after ∧ (after = before → layout.Rests before rules) :=
  (runs.eases_or_drops holds kept alert (fun _ _ => False)
    (fun rule member panel holds sees => .inl (settling rule member panel holds sees))
    (fun _ impossible => impossible) (fun impossible _ => impossible)).resolve_right not_false

/-- What is told besides changes nothing but answers. -/
theorem carry_told {panel : Panel} {actions told : List Action} {role : Role}
    (telling : ∀ var ∈ told.filterMap Action.var?, (layout.role var).silent = false)
    (silent : role.silent = true) :
    layout.carry panel (actions ++ told) role = layout.carry panel actions role := by
  rw [carry, List.foldl_append]
  exact carry_apart telling silent

/-- A route that is not wanted any more was given up. -/
structure Drops (passage : Passage) (wanted : Role) (before after : Panel) : Prop where
  reserved : before (.route passage) = true
  withdrawn : before wanted = false
  unreserved : after (.route passage) = false
  settled : after (.pending passage) = before (.pending passage)

/-- Each rule that fires settles something or gives up a route that is not wanted any more. -/
def Winding (layout : Layout) (ground : Panel → Prop) (passage : Passage) (wanted : Role)
    (rules : List Rule) : Prop :=
  ∀ rule ∈ rules, ∀ panel, ground panel →
    (∀ condition ∈ rule.conditions, layout.Sees panel condition) →
    panel.Settles (layout.carry panel rule.actions) ∨
      Drops passage wanted panel (layout.carry panel rule.actions)

theorem Settling.winding {rules : List Rule} {wanted : Role}
    (settling : layout.Settling ground rules) : layout.Winding ground passage wanted rules :=
  fun rule member panel holds sees => .inl (settling rule member panel holds sees)

theorem Winding.append {first second : List Rule} {wanted : Role}
    (left : layout.Winding ground passage wanted first)
    (right : layout.Winding ground passage wanted second) :
    layout.Winding ground passage wanted (first ++ second) :=
  List.forall_mem_append.mpr ⟨left, right⟩

/-- The passage is used differently than before. -/
def Stirs (passage : Passage) (before after : Panel) : Prop :=
  after (.route passage) ≠ before (.route passage) ∨
    after (.pending passage) ≠ before (.pending passage)

/-- The work on a passage has come a step further. -/
inductive Advances (passage : Passage) (wanted : Role) (before after : Panel) : Prop where
  | arrive (unreserved : before (.route passage) = false) (reserved : after (.route passage) = true)
      (requested : after wanted = true)
  | ask (settled : before (.pending passage) = false) (pending : after (.pending passage) = true)
  | close (pending : before (.pending passage) = true) (settled : after (.pending passage) = false)

namespace Bidding

variable {wanted : Var} {allowed : List Condition} {grant deny : List Action}
  (bidding : layout.Bidding passage wanted allowed grant deny)

include bidding

/-- The work on a passage does not touch the wish for it. -/
theorem wanted_apart : layout.role wanted ≠ .route passage ∧ (layout.role wanted).silent = true ∧
    ∀ panel : Panel, panel.aim (layout.role wanted) = panel (layout.role wanted) := by
  rcases bidding.given with ⟨side, role⟩ | role <;> rw [role] <;>
    exact ⟨by simp, rfl, fun _ => rfl⟩

variable (sound : layout.Sound) (way : layout.Way id passage)

include sound way

/-- The work on a passage comes a step further, or none of its rules fires. -/
theorem advances (runs : layout.Runs
      (bidRules passage allowed grant deny (layout.outlet? passage.exit)) before after) :
    after = before ∧
        layout.Rests before (bidRules passage allowed grant deny (layout.outlet? passage.exit)) ∨
      Advances passage (layout.role wanted) before after := by
  have alert := bidding.alert (layout.outlet? passage.exit)
  have route := sound.role_route way
  have pending := sound.role_pending way
  have begun : ∀ {panel}, (∀ condition ∈ allowed, layout.Sees panel condition) →
      panel (.route passage) = false ∧ panel (.pending passage) = false ∧
        panel (layout.role wanted) = true := by
    intro panel sees
    have unreserved := sees _ bidding.unreserved
    have settled := sees _ bidding.settled
    simp only [Sees, route] at unreserved
    simp only [Sees, pending] at settled
    exact ⟨unreserved, settled, sees _ bidding.requested⟩
  cases known : layout.outlet? passage.exit with
  | none =>
      rw [known] at runs alert
      cases runs with
      | fire seen rest =>
          cases rest
          obtain ⟨unreserved, _, requested⟩ := begun seen
          refine .inr (.arrive unreserved ?_ ?_)
          · rw [carry_told bidding.granting rfl]
            simp [carry, act, route]
          · rw [carry_told bidding.granting bidding.wanted_apart.2.1]
            simpa [carry, act, route, bidding.wanted_apart.1] using requested
      | skip missed rest =>
          cases rest
          exact .inl ⟨rfl, List.forall_mem_singleton.mpr
            (not_sees_of_misses (alert _ List.mem_cons_self).plain missed)⟩
  | some outlet =>
      obtain ⟨out, occupancy⟩ := outlet
      have wired := sound.outlet known
      simp only at wired
      rw [known] at runs alert
      simp only [bidRules, List.forall_mem_cons] at alert
      obtain ⟨askAlert, confirmAlert, abandonAlert, _⟩ := alert
      cases runs with
      | fire seen rest =>
          -- Whoever has just asked has no answer yet.
          obtain ⟨allowed, idle⟩ := List.forall_mem_append.mp seen
          obtain ⟨_, settled, _⟩ := begun allowed
          simp only [Sees, List.forall_mem_cons, wired.granted, wired.denied] at idle
          simp only [carry, List.foldl_cons, List.foldl_nil, act, pending, wired.request] at rest
          have idles : layout.Rests _ _ → after = _ := fun rests => rests.eq_of_runs rest
          obtain rfl := idles (by simp [Rests, Sees, wired.granted, wired.denied, idle])
          exact .inr (.ask settled (by simp))
      | skip missed rest =>
          have unasked := not_sees_of_misses askAlert.plain missed
          cases rest with
          | fire seen rest =>
              simp only [List.forall_mem_cons, Sees, pending] at seen
              have settled : layout.carry before
                  ([.raise passage.route, .clear passage.pending] ++ grant) (.pending passage) =
                    false := by
                rw [carry_told bidding.granting rfl]
                simp [carry, act, route, pending]
              have idles : layout.Rests _ _ → after = _ := fun rests => rests.eq_of_runs rest
              obtain rfl := idles (List.forall_mem_singleton.mpr fun sees => by
                have waiting := sees (.on passage.pending) List.mem_cons_self
                simp only [Sees, pending] at waiting
                cases settled.symm.trans waiting)
              exact .inr (.close seen.1 settled)
          | skip missed rest =>
              have unconfirmed := not_sees_of_misses confirmAlert.plain missed
              cases rest with
              | fire seen rest =>
                  cases rest
                  simp only [List.forall_mem_cons, Sees, pending] at seen
                  refine .inr (.close seen.1 ?_)
                  rw [carry_told bidding.denying rfl]
                  simp [carry, act, pending, wired.request]
              | skip missed rest =>
                  cases rest
                  have unabandoned := not_sees_of_misses abandonAlert.plain missed
                  exact .inl ⟨rfl, List.forall_mem_cons.mpr ⟨unasked, List.forall_mem_cons.mpr
                    ⟨unconfirmed, List.forall_mem_singleton.mpr unabandoned⟩⟩⟩

/-- What a piece does for a passage changes how the passage is used, or it settles answers
only; and if it has changed nothing in the end, none of the rules fires. -/
theorem outcome {replies winding : List Rule} (settling : layout.Settling ground replies)
    (winds : layout.Winding ground passage (layout.role wanted) winding)
    (replying : ∀ rule ∈ replies, rule.Alert) (closing : ∀ rule ∈ winding, rule.Alert)
    (kept : layout.Maintains ground (replies ++
      bidRules passage allowed grant deny (layout.outlet? passage.exit) ++ winding))
    (holds : ground before) (runs : layout.Runs (replies ++
      bidRules passage allowed grant deny (layout.outlet? passage.exit) ++ winding) before after) :
    Stirs passage before after ∨ before.Eases after ∧ (after = before → layout.Rests before
      (replies ++ bidRules passage allowed grant deny (layout.outlet? passage.exit) ++ winding)) := by
  obtain ⟨worked, first, last⟩ := runs.split
  obtain ⟨replied, answering, working⟩ := first.split
  obtain ⟨keptFirst, keptLast⟩ := List.forall_mem_append.mp kept
  obtain ⟨keptReplies, keptBids⟩ := List.forall_mem_append.mp keptFirst
  have told : ground replied := Takes.each keptReplies before replied holds answering
  obtain ⟨eased, restsReplies⟩ := settling.eases answering holds keptReplies replying
  have route : replied (.route passage) = before (.route passage) := eased _ rfl
  have pending : replied (.pending passage) = before (.pending passage) := eased _ rfl
  have steered := bidding.wanted_apart.2.2
  have wound := last.eases_or_drops (Takes.each keptBids replied worked told working) keptLast
    closing (Drops passage (layout.role wanted)) winds
    (fun eases drops => {
      reserved := (eases _ rfl).symm.trans drops.reserved
      withdrawn := (eases _ (steered _).symm).symm.trans drops.withdrawn
      unreserved := drops.unreserved
      settled := drops.settled.trans (eases _ rfl) })
    (fun drops next => by
      rcases next with eases | again
      · exact ⟨drops.reserved, drops.withdrawn, (eases _ rfl).trans drops.unreserved,
          (eases _ rfl).trans drops.settled⟩
      · cases drops.unreserved.symm.trans again.reserved)
  have kept : after (.pending passage) = worked (.pending passage) := by
    rcases wound with ⟨eases, _⟩ | drops
    · exact eases _ rfl
    · exact drops.settled
  rcases bidding.advances sound way working with ⟨rfl, restsBids⟩ | advances
  · rcases wound with ⟨eases, restsWinding⟩ | drops
    · right
      refine ⟨eased.trans eases, ?_⟩
      rintro rfl
      obtain rfl := eased.antisymm eases
      exact (restsReplies rfl |>.append restsBids).append (restsWinding rfl)
    · left
      left
      rw [drops.unreserved, ← route, drops.reserved]
      simp
  · left
    cases advances with
    | arrive unreserved reserved requested =>
        left
        rcases wound with ⟨eases, _⟩ | drops
        · rw [eases _ rfl, reserved, ← route, unreserved]
          simp
        · cases requested.symm.trans drops.withdrawn
    | ask settled asked | close settled asked =>
        right
        rw [kept, asked, ← pending, settled]
        simp

end Bidding

section Tasks

variable {stand : PieceId → Bool} {loose : Option SideId} {duty : Duty}

theorem settles_of_set {panel : Panel} {var : Var} {value : Bool}
    (differs : panel (layout.role var) = !value) (aimed : panel.aim (layout.role var) = value) :
    panel.Settles (layout.carry panel [.set var value]) := by
  refine ⟨layout.role var, by simp [differs, aimed], ?_⟩
  simp [carry, act, aimed]

theorem Replies.settling {inlet : Handshake} {asker : SideId} {rules : List Rule}
    (replies : Replies inlet rules) (wired : layout.Wired inlet asker) :
    layout.Settling ground rules := by
  intro rule member panel _ sees
  obtain ⟨reasons, conditions, _, actions⟩ := replies rule member
  rw [conditions] at sees
  obtain ⟨requested, ungranted, undenied⟩ := wired.wants sees asker rfl
  rcases actions with granted | denied
  · rw [granted]
    exact settles_of_set (by simp [wired.granted, ungranted]) (by simp [wired.granted, Panel.aim, requested])
  · rw [denied]
    exact settles_of_set (by simp [wired.denied, undenied]) (by simp [wired.denied, Panel.aim, requested])

/-- What is known of the panels during a turn without trains. -/
abbrev Working (layout : Layout) (stand : PieceId → Bool) (loose : Option SideId) (panel : Panel) :
    Prop :=
  (layout.Steady stand loose panel ∧ layout.Vacant panel) ∧ layout.Announced panel

variable (sound : layout.Sound)

include sound

theorem Wired.settling_answerResetRules {inlet : Handshake} {asker entry : SideId}
    (wired : layout.Wired inlet asker) (joined : layout.mate? entry = some asker) :
    layout.Settling (layout.Working stand loose) (answerResetRules inlet) := by
  simp only [Settling, answerResetRules, List.forall_mem_cons, Sees, wired.request, wired.granted,
    wired.denied, wired.released]
  refine ⟨?_, ?_, ?_, by simp⟩
  · rintro panel working ⟨released, granted, _⟩
    have unrequested := Announced.unrequested working.2 working.1.1.orderly sound
      (sound.paired joined) granted released
    exact settles_of_set (by simp [wired.granted, granted])
      (by simp [wired.granted, Panel.aim, unrequested])
  · rintro panel _ ⟨unrequested, granted, _⟩
    exact settles_of_set (by simp [wired.granted, granted])
      (by simp [wired.granted, Panel.aim, unrequested])
  · rintro panel _ ⟨unrequested, denied, _⟩
    exact settles_of_set (by simp [wired.denied, denied])
      (by simp [wired.denied, Panel.aim, unrequested])

theorem Sound.settling_releaseDoneRules (exit : SideId) :
    layout.Settling ground (releaseDoneRules (layout.outlet? exit)) := by
  cases known : layout.outlet? exit with
  | none => simp [Settling, releaseDoneRules]
  | some outlet =>
      have wired := sound.outlet known
      refine List.forall_mem_singleton.mpr fun panel _ sees => ?_
      simp only [Sees, List.forall_mem_cons, wired.released] at sees
      exact settles_of_set (by simp [wired.released, sees.1]) (by simp [wired.released, Panel.aim])

section Negotiation

variable {site : Site} {index : Nat} {inlet : Handshake} {asker : SideId}
  (serves : layout.Serves id piece site index passage inlet asker)

include serves

/-- Without a train a route is given up only because it is not asked for any more. -/
theorem Serves.winding_releaseRules :
    layout.Winding (layout.Working stand loose) passage (layout.role inlet.request)
      (site.passedRules passage (layout.outlet? passage.exit) ++
        [site.withdrawnRule passage inlet (layout.outlet? passage.exit)]) := by
  have route := sound.role_route serves.way
  refine List.forall_mem_append.mpr ⟨?_, List.forall_mem_singleton.mpr ?_⟩
  · intro rule member panel working sees
    obtain ⟨freed, rfl⟩ := Site.mem_passedRules member
    simp [Sees, serves.describes.seen, working.1.2.seen] at sees
  · intro panel _ sees
    simp only [Site.withdrawnRule, List.forall_mem_cons, Sees, route] at sees
    obtain ⟨reserved, _, _, unrequested, _⟩ := sees
    obtain ⟨unreserved, settled⟩ := serves.released_passage sound panel
    exact .inr ⟨reserved, unrequested, unreserved, settled⟩

theorem Serves.outcome (steady : layout.Steady stand none before) (vacant : layout.Vacant before)
    (announced : layout.Announced before)
    (runs : layout.Runs (site.handshakeRules index passage inlet (layout.outlet? passage.exit))
      before after) :
    Stirs passage before after ∨ before.Eases after ∧ (after = before → layout.Rests before
      (site.handshakeRules index passage inlet (layout.outlet? passage.exit))) := by
  have kept : layout.Maintains (layout.Working stand (some passage.exit))
      (site.handshakeRules index passage inlet (layout.outlet? passage.exit)) := by
    have extras := (Task.negotiate serves).maintains_vacant sound
    rw [Site.handshakeRules_eq] at extras ⊢
    exact sound.maintains_work serves.way (serves.maintains_workRules sound)
      (serves.enacts_workRules sound) extras (fun _ _ announced deed => deed.announced announced)
      (fun alike announced => Announced.congr announced fun _ => alike _ rfl)
  rw [handshakeRules_parts] at kept runs ⊢
  refine serves.bidding.outcome sound serves.way
    ((denyRules_replies site index passage inlet).settling serves.wired) ?_
    (denyRules_replies site index passage inlet).alert ?_ kept ⟨⟨steady.loosen, vacant⟩, announced⟩
    runs
  · exact ((serves.wired.settling_answerResetRules sound serves.joined).winding.append
      (serves.winding_releaseRules sound)).append (sound.settling_releaseDoneRules passage.exit).winding
  · exact List.forall_mem_append.mpr ⟨List.forall_mem_append.mpr ⟨answerResetRules_alert inlet,
      releaseRules_alert _⟩, releaseDoneRules_alert _⟩

end Negotiation

section Signals

variable {name : String} {occupancy request aspect used : Var} {straight : Straight}
  (found : layout.piece? id = some { name, occupancy, body := .straight straight })
  (kind : straight.kind = .signal request aspect used)

include found kind

/-- Without a train a signal gives its route up only because it is not asked for any more. -/
theorem Sound.winding_originReleaseRules :
    layout.Winding (layout.Working stand loose) straight.ab (layout.role request)
      (straight.originReleaseRules occupancy request used (layout.outlet? straight.ab.exit)) := by
  have route := sound.role_route (show layout.Way id straight.ab from
    ⟨_, found, by simp [Piece.passages]⟩)
  have seen : layout.role straight.seen = .seen id := sound.role_seen found rfl
  have helped := sound.role_helper found (straight_of_signal kind).1
  simp only [Winding, Straight.originReleaseRules, List.forall_mem_cons]
  refine ⟨?_, ?_, ?_, by simp⟩
  · intro panel working sees
    simp [Sees, seen, working.1.2.seen] at sees
  · intro panel _ sees
    simp only [Sees, route] at sees
    obtain ⟨unreserved, settled⟩ :=
      sound.released_passage (sound.alike_originCleared found panel)
    rw [Straight.originRelease_eq, carry, List.foldl_append]
    exact .inr ⟨sees.1, sees.2.2.1, unreserved, settled⟩
  · intro panel working sees
    simp [Sees, helped, working.1.2.helper] at sees

theorem Sound.outcome_origin (steady : layout.Steady stand none before)
    (vacant : layout.Vacant before) (announced : layout.Announced before)
    (runs : layout.Runs (straight.signalRouteRules occupancy request used
      (layout.outlet? straight.ab.exit)) before after) :
    Stirs straight.ab before after ∨ before.Eases after ∧ (after = before → layout.Rests before
      (straight.signalRouteRules occupancy request used (layout.outlet? straight.ab.exit))) := by
  have way : layout.Way id straight.ab := ⟨_, found, by simp [Piece.passages]⟩
  have kept : layout.Maintains (layout.Working stand (some straight.ab.exit))
      (straight.signalRouteRules occupancy request used (layout.outlet? straight.ab.exit)) := by
    have extras := (Task.originate found kind).maintains_vacant sound
    rw [Straight.signalRouteRules_eq] at extras ⊢
    exact sound.maintains_work way
      ((sound.maintains_originRules found kind).append (sound.maintains_originReleaseRules found kind))
      ((sound.enacts_originRules found kind).append (sound.enacts_originReleaseRules found kind))
      extras (fun _ _ announced deed => deed.announced announced)
      (fun alike announced => Announced.congr announced fun _ => alike _ rfl)
  rw [signalRouteRules_parts] at kept runs ⊢
  refine (sound.bidding_origin found kind).outcome sound way (by simp [Settling]) ?_ (by simp) ?_ kept
    ⟨⟨steady.loosen, vacant⟩, announced⟩ runs
  · exact (sound.winding_originReleaseRules found kind).append
      (sound.settling_releaseDoneRules straight.ab.exit).winding
  · exact List.forall_mem_append.mpr ⟨originReleaseRules_alert _, releaseDoneRules_alert _⟩

end Signals

/-- What a duty does in a turn without trains changes how its passage is used, or it settles
answers only; and if it has changed nothing in the end, none of its rules fires. -/
theorem Task.outcome (task : layout.Task id duty) (steady : layout.Steady stand none before)
    (vacant : layout.Vacant before) (announced : layout.Announced before)
    (runs : layout.Runs duty.rules before after) :
    (∃ passage, duty.passage = some passage ∧ Stirs passage before after) ∨
      before.Eases after ∧ (after = before → layout.Rests before duty.rules) := by
  cases task with
  | rest =>
      cases runs
      exact .inr ⟨.refl _, fun _ => by simp [Rests]⟩
  | negotiate serves =>
      exact (serves.outcome sound steady vacant announced runs).imp_left fun stirs => ⟨_, rfl, stirs⟩
  | originate found kind =>
      exact (sound.outcome_origin found kind steady vacant announced runs).imp_left
        fun stirs => ⟨_, rfl, stirs⟩
  | answer given =>
      have extras := (Task.answer given).maintains_vacant sound
      have kept : layout.Maintains (layout.Working stand none) _ :=
        given.enacts.maintains ((given.steady stand).and extras)
          (fun _ announced deed => deed.announced announced)
          (fun alike announced => Announced.congr announced fun _ => alike _ rfl)
      have settling : layout.Settling (layout.Working stand none) _ :=
        List.forall_mem_append.mpr ⟨given.replies.settling given.wired,
          given.wired.settling_answerResetRules sound given.joined⟩
      exact .inr (settling.eases runs ⟨⟨steady, vacant⟩, announced⟩ kept
        ((Task.answer given).alert sound))

section Duties

theorem Task.keeps_working (task : layout.Task id duty) :
    layout.Takes (layout.Working stand none) duty.rules (layout.Working stand none) :=
  task.keeps sound (task.maintains_vacant sound) (fun _ _ announced deed => deed.announced announced)
    (fun alike announced => Announced.congr announced fun _ => alike _ rfl)

/-- Duties do not touch passages that they are not about. -/
theorem Task.keeps_passages {duties : List Duty} (tasks : ∀ duty ∈ duties, layout.Task id duty)
    (elsewhere : passage ∉ duties.filterMap Duty.passage) (steady : layout.Steady stand none before)
    (runs : layout.Runs (duties.flatMap Duty.rules) before after) :
    after (.route passage) = before (.route passage) ∧
      after (.pending passage) = before (.pending passage) := by
  have nothing : ∀ rules, layout.Maintains (fun _ => True) rules := by simp [Maintains]
  have kept : ∀ duty ∈ duties, layout.Takes
      (fun panel => (layout.Steady stand none panel ∧ True) ∧
        panel (.route passage) = before (.route passage) ∧
          panel (.pending passage) = before (.pending passage)) duty.rules
      (fun panel => (layout.Steady stand none panel ∧ True) ∧
        panel (.route passage) = before (.route passage) ∧
          panel (.pending passage) = before (.pending passage)) := by
    intro duty member
    refine (tasks duty member).keeps sound (nothing _) ?_ ?_
    · intro _ panel next _ _ same deed
      have apart : duty.passage ≠ some passage :=
        fun equal => elsewhere (List.mem_filterMap.mpr ⟨duty, member, equal⟩)
      obtain ⟨route, pending⟩ := deed.elsewhere apart
      exact ⟨route.trans same.1, pending.trans same.2⟩
    · exact fun alike same => ⟨(alike _ rfl).trans same.1, (alike _ rfl).trans same.2⟩
  exact (Takes.flatMap kept before after ⟨⟨steady, trivial⟩, rfl, rfl⟩ runs).2

theorem Task.outcomes {duties : List Duty} (tasks : ∀ duty ∈ duties, layout.Task id duty)
    (nodup : (duties.filterMap Duty.passage).Nodup) (working : layout.Working stand none before)
    (runs : layout.Runs (duties.flatMap Duty.rules) before after) :
    (∃ passage, Stirs passage before after) ∨
      before.Eases after ∧ (after = before → ∀ duty ∈ duties, layout.Rests before duty.rules) := by
  induction duties generalizing before with
  | nil =>
      cases runs
      exact .inr ⟨.refl _, fun _ => by simp⟩
  | cons duty duties ih =>
      obtain ⟨task, tasks⟩ := List.forall_mem_cons.mp tasks
      obtain ⟨middle, first, rest⟩ := runs.split
      have later : (duties.filterMap Duty.passage).Nodup := by
        rw [List.filterMap_cons] at nodup
        split at nodup
        · exact nodup
        · exact (List.nodup_cons.mp nodup).2
      have worked := task.keeps_working sound before middle working first
      rcases task.outcome sound working.1.1 working.1.2 working.2 first with
        ⟨passage, about, stirs⟩ | ⟨eases, rests⟩
      · -- The other duties do not undo what was done about this passage.
        rw [List.filterMap_cons, about] at nodup
        obtain ⟨route, pending⟩ := Task.keeps_passages sound tasks (List.nodup_cons.mp nodup).1
          worked.1.1 rest
        exact .inl ⟨passage, by rwa [Stirs, route, pending]⟩
      · rcases ih tasks later worked rest with ⟨passage, stirs⟩ | ⟨easesRest, restsRest⟩
        · left
          refine ⟨passage, ?_⟩
          rwa [Stirs, eases _ rfl, eases _ rfl] at stirs
        · refine .inr ⟨eases.trans easesRest, ?_⟩
          rintro rfl
          obtain rfl := eases.antisymm easesRest
          exact List.forall_mem_cons.mpr ⟨rests rfl, restsRest rfl⟩

/-- If a turn without trains has changed nothing in the end, the piece has nothing to do. -/
theorem Sound.rests_of_still (found : layout.piece? id = some piece) {panel : Panel}
    (working : layout.Working stand none panel)
    (runs : layout.Runs (piece.automaton layout).rules panel panel) :
    ∀ duty ∈ piece.duties layout, layout.Rests panel duty.rules := by
  rw [piece.rules_automaton] at runs
  obtain ⟨worked, before, summing⟩ := runs.split
  obtain ⟨tracked, tracking, turned⟩ := before.split
  obtain rfl := (working.1.2.rests_tracking sound found).eq_of_runs tracking
  have lasting : ∀ role, role.lasting = true → tracked role = worked role := by
    have summed := (sound.summary_summarizes found).maintains
      (fun {panel other} same (known : ∀ role, role.lasting = true → other role = worked role)
        role lasting => (same role lasting).trans (known role lasting))
    exact Takes.each summed worked tracked (fun _ _ => rfl) summing
  rcases Task.outcomes sound (sound.task found) (sound.duties_nodup found) working turned with
    ⟨passage, stirs⟩ | ⟨eases, rests⟩
  · rw [Stirs, lasting _ rfl, lasting _ rfl] at stirs
    simp at stirs
  · apply rests
    funext role
    cases role with
    | position | anyRoute | outside => exact eases _ rfl
    | request | granted | denied | released | route | pending | seen | occupancy | helper =>
        exact (lasting _ rfl).symm

end Duties

end Tasks

end Layout

end Interlocking
