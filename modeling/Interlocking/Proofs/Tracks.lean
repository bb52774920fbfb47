import Interlocking.Proofs.Settling
import Interlocking.Proofs.Waves

/-!
# Tracks

A track is a short or long piece, or one with a detector. As long as nothing comes from its
side `b`, a track only works on its passage from `a` to `b`, and its turns are those of a piece
in a wave: what the rules look at and write are the bits of a cue and of a hop.
-/

namespace Interlocking

/-- Starting changes nothing that a panel shows. -/
theorem Layout.eq_of_runs_startRule {layout : Layout} {before after : Panel}
    (runs : layout.Runs [RuleBook.startRule] before after) : after = before := by
  cases runs with
  | fire _ rest =>
      cases rest
      rfl
  | skip _ rest =>
      cases rest
      rfl

section Bits

variable (site : Site) (layout : Layout) (index : Nat) (passage : Passage) (inlet : Handshake)
  (outlet : Option Outlet)

theorem Site.bits_releaseActions :
    ∀ action ∈ site.releaseActions passage outlet, action.var?.isSome := by
  cases outlet <;> cases known : site.simulated <;> simp [Site.releaseActions, known, Action.var?]

theorem Site.bits_handshakeRules : ∀ rule ∈ site.handshakeRules index passage inlet outlet,
    ∀ action ∈ rule.actions, action.var?.isSome := by
  simp only [Site.handshakeRules, List.forall_mem_append]
  refine ⟨⟨⟨⟨⟨?_, ?_⟩, ?_⟩, ?_⟩, ?_⟩, ?_⟩
  · intro rule member
    obtain ⟨var, value, rfl⟩ := Site.mem_denyRules member
    simp [Action.var?]
  · cases outlet <;> simp [Site.acceptRules, Action.var?]
  · simp [answerResetRules, Action.var?]
  · intro rule member
    obtain ⟨freed, rfl⟩ := Site.mem_passedRules member
    exact site.bits_releaseActions passage outlet
  · exact List.forall_mem_singleton.mpr (site.bits_releaseActions passage outlet)
  · cases outlet <;> simp [releaseDoneRules, Action.var?]

theorem Site.bits_passageRules : ∀ rule ∈ site.passageRules layout index,
    ∀ action ∈ rule.actions, action.var?.isSome := by
  unfold Site.passageRules
  split
  · simp
  · split
    · simp
    · exact site.bits_handshakeRules index _ _ _

theorem Site.bits_trackingRules : ∀ rule ∈ site.seenRules layout ++ site.clearRules,
    ∀ action ∈ rule.actions, action.var?.isSome := by
  refine List.forall_mem_append.mpr ⟨?_, ?_⟩
  · intro rule member
    obtain ⟨passage, _, made⟩ := List.mem_filterMap.mp member
    obtain ⟨next, _, rfl⟩ := Option.map_eq_some_iff.mp made
    cases known : site.simulated <;> simp [Action.var?]
  · cases known : site.simulated <;> simp [Site.clearRules, known, Action.var?]

end Bits

/-- Where nothing is asked, answered, marked or released, the rules of a passage do not fire. -/
theorem Layout.rests_handshakeRules {layout : Layout} {site : Site} {index : Nat} {passage : Passage}
    {inlet : Handshake} {outlet : Option Outlet} {panel : Panel}
    (unasked : panel (layout.role inlet.request) = false)
    (ungranted : panel (layout.role inlet.granted) = false)
    (undenied : panel (layout.role inlet.denied) = false)
    (unpending : panel (layout.role passage.pending) = false)
    (unrouted : panel (layout.role passage.route) = false)
    (unreleased : ∀ joined ∈ outlet, panel (layout.role joined.bits.released) = false) :
    layout.Rests panel (site.handshakeRules index passage inlet outlet) := by
  have asked : ∀ {conditions : List Condition}, .on inlet.request ∈ conditions →
      ¬∀ condition ∈ conditions, layout.Sees panel condition := by
    intro conditions member sees
    have requested := sees _ member
    simp [Sees, unasked] at requested
  have denies : layout.Rests panel (site.denyRules index passage inlet) := by
    intro rule member
    obtain ⟨var, value, rfl⟩ := Site.mem_denyRules member
    exact asked (by simp [Site.asked])
  have accepts : layout.Rests panel (site.acceptRules index passage inlet outlet) := by
    cases outlet with
    | none => exact List.forall_mem_singleton.mpr (asked (by simp [Site.acceptable, Site.asked]))
    | some joined =>
        refine List.forall_mem_cons.mpr ⟨asked (by simp [Site.acceptable, Site.asked]), ?_⟩
        simp [Sees, unpending]
  have resets : layout.Rests panel (answerResetRules inlet) := by
    simp [Rests, answerResetRules, Sees, ungranted, undenied]
  have passes : layout.Rests panel (site.passedRules passage outlet) := by
    intro rule member
    obtain ⟨freed, rfl⟩ := Site.mem_passedRules member
    simp [Sees, unrouted]
  have withdraws : layout.Rests panel [site.withdrawnRule passage inlet outlet] := by
    simp [Rests, Site.withdrawnRule, Sees, unrouted]
  have finishes : layout.Rests panel (releaseDoneRules outlet) := by
    cases outlet with
    | none => simp [Rests, releaseDoneRules]
    | some joined => simp [Rests, releaseDoneRules, Sees, unreleased joined rfl]
  exact ((((denies.append accepts).append resets).append passes).append withdraws).append finishes

theorem Straight.unsensed {straight : Straight} (simulated : straight.simulated = true)
    (name : String) (occupancy : Var) :
    Piece.sensed { name, occupancy, body := .straight straight } = false := by
  obtain ⟨⟨seen, ab, ba⟩, kind, a, b⟩ := straight
  cases kind with
  | short | long | filtered | signal => rfl
  | detector => cases simulated

/-- A short or long piece of a layout, or one whose occupancy is a detector. -/
structure Track (layout : Layout) where
  id : PieceId
  name : String
  occupancy : Var
  straight : Straight
  found : layout.piece? id = some { name, occupancy, body := .straight straight }
  plain : straight.kind = .short ∨ straight.kind = .long ∨ straight.kind = .detector occupancy

namespace Track

variable {layout : Layout} (track : Track layout) (asker : SideId)

/-- The piece that the track is. -/
def piece : Piece where
  name := track.name
  occupancy := track.occupancy
  body := .straight track.straight

/-- The track as the reservation rules see it. -/
def site : Site := track.straight.site track.occupancy

/-- What the track writes, for the side that asks at its entry. -/
def hop (panel : Panel) : Hop where
  granted := panel (.granted asker)
  denied := panel (.denied asker)
  pending := panel (.pending track.straight.ab)
  route := panel (.route track.straight.ab)
  request := panel (.request track.straight.b)
  released := panel (.released track.straight.b)

/-- What the track looks at besides. -/
def cue (panel : Panel) : Cue where
  request := panel (.request asker)
  released := panel (.released asker)
  occupied := panel (layout.role track.occupancy)
  granted := panel (.granted track.straight.b)
  denied := panel (.denied track.straight.b)

/-- The bits of the hop. -/
def writes : List Role := [
  .granted asker, .denied asker, .pending track.straight.ab, .route track.straight.ab,
  .request track.straight.b, .released track.straight.b]

/-- The bits that stay 0 as long as nothing comes from side `b`. -/
def idles : List Role :=
  [Role.pending track.straight.ba, .route track.straight.ba, .seen track.id, .occupancy track.id,
    .released track.straight.a] ++
    (layout.mate? track.straight.b).toList.flatMap fun mate =>
      [Role.request mate, .granted mate, .denied mate]

/-- Nothing has come from side `b`. -/
def Ready (panel : Panel) : Prop := ∀ role ∈ track.idles, panel role = false

/-- The asker stands at side `a`, and side `b` is joined to neither of the two. -/
structure Faces : Prop where
  joined : layout.mate? track.straight.a = some asker
  apart : asker ≠ track.straight.b
  onward : layout.mate? track.straight.b ≠ some track.straight.b

/-- A panel has become another, and the track has written what the hop says. -/
structure Writes (before after : Panel) (hop : Hop) : Prop where
  shows : track.hop asker after = hop
  keeps : ∀ role ∉ track.writes asker, after role = before role

/-- The rules do what the reflexes do. -/
structure Mirrors (rules : List Rule) (reflexes : List Reflex) : Prop where
  runs : ∀ {before after}, track.Ready before → layout.Runs rules before after →
    track.Writes asker before after
      (reflexes.foldl (Reflex.run (track.cue asker before)) (track.hop asker before))
  rests : ∀ {panel}, track.Ready panel →
    (∀ reflex ∈ reflexes, reflex.when (track.cue asker panel) (track.hop asker panel) = false) →
    layout.Rests panel rules

variable {track asker} (sound : layout.Sound) (faces : track.Faces asker)

section Courses

include sound

theorem courses : track.straight.a ≠ track.straight.b ∧
    track.straight.ab.course = ⟨track.straight.a, track.straight.b, none⟩ ∧
    track.straight.ba.course = ⟨track.straight.b, track.straight.a, none⟩ :=
  sound.straight_courses track.found

theorem ba_ne_ab : track.straight.ba ≠ track.straight.ab := by
  intro same
  obtain ⟨differ, out, back⟩ := track.courses sound
  rw [same, out] at back
  exact differ (congrArg Course.entry back)

omit sound in
theorem way_ab : layout.Way track.id track.straight.ab :=
  ⟨_, track.found, by simp [Piece.passages]⟩

omit sound in
theorem way_ba : layout.Way track.id track.straight.ba :=
  ⟨_, track.found, by simp [Piece.passages]⟩

theorem role_seen : layout.role track.straight.seen = .seen track.id :=
  sound.role_seen track.found rfl

/-- A track without a detector has an occupancy bit of its own. -/
theorem role_occupancy (simulated : track.straight.simulated = true) :
    layout.role track.occupancy = .occupancy track.id :=
  sound.role_occupancy track.found (track.straight.unsensed simulated track.name track.occupancy)

end Courses

section Frame

variable {before after : Panel} {hop : Hop}

theorem writes_inProtocol : ∀ role ∈ track.writes asker, role.inProtocol = true := by
  simp [writes, Role.inProtocol]

include sound in
theorem occupancy_not_mem_writes : layout.role track.occupancy ∉ track.writes asker := by
  intro member
  have aside := sound.occupancy_aside track.found
  rw [writes_inProtocol _ member] at aside
  cases aside

include sound faces

/-- The track does not write what it looks at. -/
theorem Writes.cue_eq (written : track.Writes asker before after hop) :
    track.cue asker after = track.cue asker before := by
  have kept : ∀ role, role ∉ track.writes asker → after role = before role := written.keeps
  apply Cue.ext
  · exact kept _ (by simp [writes, faces.apart])
  · exact kept _ (by simp [writes, faces.apart])
  · exact kept _ (occupancy_not_mem_writes sound)
  · exact kept _ (by simp [writes, faces.apart.symm])
  · exact kept _ (by simp [writes, faces.apart.symm])

theorem Faces.idles_apart : ∀ role ∈ track.idles, role ∉ track.writes asker := by
  have differ := (track.courses sound).1
  have backward := track.ba_ne_ab sound
  simp only [idles, List.forall_mem_append]
  refine ⟨by simp [writes, differ, backward], ?_⟩
  intro role member
  obtain ⟨mate, known, listed⟩ := List.mem_flatMap.mp member
  have onward : layout.mate? track.straight.b = some mate := Option.mem_toList.mp known
  have behind : mate ≠ track.straight.b := fun same => faces.onward (same ▸ onward)
  have front : mate ≠ asker := by
    rintro rfl
    exact differ (sound.mate_injective faces.joined onward)
  simp only [List.mem_cons, List.not_mem_nil, or_false] at listed
  rcases listed with rfl | rfl | rfl <;> simp [writes, behind, front]

theorem Writes.ready (written : track.Writes asker before after hop) (ready : track.Ready before) :
    track.Ready after :=
  fun role idle => (written.keeps role (faces.idles_apart sound role idle)).trans (ready role idle)

end Frame

section Combining

variable {rules further : List Rule} {reflexes others : List Reflex} {rule : Rule} {reflex : Reflex}

/-- Rules that never fire do nothing. -/
theorem Mirrors.idle (rests : ∀ {panel}, track.Ready panel → layout.Rests panel rules) :
    track.Mirrors asker rules [] where
  runs ready runs := by
    obtain rfl := (rests ready).eq_of_runs runs
    exact ⟨rfl, fun _ _ => rfl⟩
  rests ready _ := rests ready

theorem Mirrors.single (plain : ∀ condition ∈ rule.conditions, condition.var?.isSome)
    (enabled : ∀ {panel}, track.Ready panel →
      ((∀ condition ∈ rule.conditions, layout.Sees panel condition) ↔
        reflex.when (track.cue asker panel) (track.hop asker panel) = true))
    (acts : ∀ {panel}, track.Ready panel → track.Writes asker panel
      (layout.carry panel rule.actions) (reflex.act (track.hop asker panel))) :
    track.Mirrors asker [rule] [reflex] where
  runs := by
    intro before after ready runs
    simp only [List.foldl_cons, List.foldl_nil, Reflex.run]
    cases runs with
    | fire seen rest =>
        cases rest
        rw [if_pos ((enabled ready).mp seen)]
        exact acts ready
    | skip missed rest =>
        cases rest
        have blocked := Layout.not_sees_of_misses plain missed
        rw [if_neg fun fires => blocked ((enabled ready).mpr fires)]
        exact ⟨rfl, fun _ _ => rfl⟩
  rests := by
    intro panel ready blocked
    refine List.forall_mem_singleton.mpr fun seen => ?_
    have fires := (enabled ready).mp seen
    simp [blocked reflex List.mem_cons_self] at fires

include sound faces

theorem Mirrors.append (left : track.Mirrors asker rules reflexes)
    (right : track.Mirrors asker further others) :
    track.Mirrors asker (rules ++ further) (reflexes ++ others) where
  runs := by
    intro before after ready runs
    obtain ⟨middle, first, second⟩ := runs.split
    have begun := left.runs ready first
    have ended := right.runs (begun.ready sound faces ready) second
    rw [begun.cue_eq sound faces, begun.shows] at ended
    refine ⟨by rw [List.foldl_append, ended.shows], ?_⟩
    exact fun role other => (ended.keeps role other).trans (begun.keeps role other)
  rests := by
    intro panel ready blocked
    obtain ⟨first, second⟩ := List.forall_mem_append.mp blocked
    exact (left.rests ready first).append (right.rests ready second)

theorem Mirrors.cons (first : track.Mirrors asker [rule] [reflex])
    (rest : track.Mirrors asker rules reflexes) :
    track.Mirrors asker (rule :: rules) (reflex :: reflexes) :=
  first.append sound faces rest

end Combining

section Rules

variable {panel : Panel} {inlet : Handshake} (wired : layout.Wired inlet asker)

/-- The action writes a bit of the hop, or leaves a bit as it is. -/
def Spares (track : Track layout) (asker : SideId) (panel : Panel) : Action → Prop
  | .set var value => layout.role var ∈ track.writes asker ∨ panel (layout.role var) = value
  | _ => True

/-- Such actions change nothing but the bits of the hop. -/
theorem keeps_of_spares {actions : List Action}
    (spares : ∀ action ∈ actions, track.Spares asker panel action) :
    ∀ role ∉ track.writes asker, layout.carry panel actions role = panel role := by
  induction actions generalizing panel with
  | nil => exact fun _ _ => rfl
  | cons action actions ih =>
      obtain ⟨here, others⟩ := List.forall_mem_cons.mp spares
      cases action with
      | goto | loadTimer => exact ih others
      | set var value =>
          have first : ∀ role ∉ track.writes asker,
              layout.act panel (.set var value) role = panel role := by
            intro role other
            by_cases same : role = layout.role var
            · subst same
              simpa [Layout.act] using (here.resolve_left other).symm
            · simp [Layout.act, same]
          have rest : ∀ action ∈ actions,
              track.Spares asker (layout.act panel (.set var value)) action := by
            intro action member
            have next := others action member
            cases action with
            | goto | loadTimer => trivial
            | set later last =>
                by_cases written : layout.role later ∈ track.writes asker
                · exact .inl written
                · exact .inr ((first _ written).trans (next.resolve_left written))
          exact fun role other => (ih rest role other).trans (first role other)

theorem Ready.unopposed (ready : track.Ready panel) :
    panel (.route track.straight.ba) = false ∧ panel (.pending track.straight.ba) = false :=
  ⟨ready _ (by simp [idles]), ready _ (by simp [idles])⟩

theorem Ready.unseen (ready : track.Ready panel) : panel (.seen track.id) = false :=
  ready _ (by simp [idles])

theorem conflicts_eq :
    track.site.conflicts 0 = [track.straight.ba.route, track.straight.ba.pending] := by
  simp [Site.conflicts, Site.rivals, site, Straight.site]

include sound

theorem asked_eq : track.site.asked 0 track.straight.ab inlet =
    [.on inlet.request, .off inlet.granted, .off inlet.denied, .off track.straight.ab.pending,
      .off track.straight.ab.route] := by
  obtain ⟨differ, out, back⟩ := track.courses sound
  have enters : track.straight.ab.entry = track.straight.a := congrArg Course.entry out
  have opposite : track.straight.ba.entry = track.straight.b := congrArg Course.entry back
  have alone : track.site.sharesEntry 0 track.straight.ab = false := by
    simp [Site.sharesEntry, Site.rivals, site, Straight.site, enters, opposite, differ.symm]
  simp [Site.asked, Site.selector, alone]

theorem demand_eq : track.site.demand? 0 track.straight.ab = none := by
  have anyPosition : track.straight.ab.position = none :=
    congrArg Course.position (track.courses sound).2.1
  simp [Site.demand?, Site.required?, anyPosition]

include wired

theorem sees_asked_iff :
    (∀ condition ∈ track.site.asked 0 track.straight.ab inlet, layout.Sees panel condition) ↔
      Reflex.asked (track.cue asker panel) (track.hop asker panel) = true := by
  simp [track.asked_eq sound, Layout.Sees, wired.request, wired.granted, wired.denied,
    sound.role_route track.way_ab, sound.role_pending track.way_ab, Reflex.asked, cue, hop, and_assoc]

theorem sees_acceptable_iff (ready : track.Ready panel) :
    (∀ condition ∈ track.site.acceptable 0 track.straight.ab inlet, layout.Sees panel condition) ↔
      (Reflex.asked (track.cue asker panel) (track.hop asker panel) &&
        !(track.cue asker panel).occupied) = true := by
  obtain ⟨unrouted, unpending⟩ := ready.unopposed
  simp only [Site.acceptable, track.demand_eq sound, conflicts_eq, List.forall_mem_append,
    sees_asked_iff sound wired, List.append_nil]
  simp [Layout.Sees, sound.role_route track.way_ba, sound.role_pending track.way_ba, unrouted,
    unpending, cue, site, Straight.site]

include faces

theorem mirrors_denyRules :
    track.Mirrors asker (track.site.denyRules 0 track.straight.ab inlet) [.refuse] := by
  simp only [Site.denyRules, track.demand_eq sound, conflicts_eq, List.map_cons, List.map_nil,
    List.append_nil]
  refine Mirrors.cons sound faces (Mirrors.single ?_ ?_ ?_) (Mirrors.idle ?_)
  · simp [track.asked_eq sound, Condition.var?]
  · intro panel ready
    rw [List.forall_mem_append, track.sees_asked_iff sound wired]
    simp [Layout.Sees, Reflex.refuse, cue, site, Straight.site]
  · intro panel ready
    refine ⟨?_, keeps_of_spares ?_⟩
    · simp [hop, Layout.carry, Layout.act, wired.denied, Reflex.refuse]
    · simp [Spares, wired.denied, writes]
  · intro panel ready
    obtain ⟨unrouted, unpending⟩ := ready.unopposed
    simp [Layout.Rests, Layout.Sees, sound.role_route track.way_ba, sound.role_pending track.way_ba,
      unrouted, unpending, or_imp, forall_and]

omit faces in
theorem mirrors_acceptRules_none :
    track.Mirrors asker (track.site.acceptRules 0 track.straight.ab inlet none) [.arrive] := by
  refine Mirrors.single ?_ ?_ ?_
  · simp [Site.acceptable, track.demand_eq sound, conflicts_eq, track.asked_eq sound, Condition.var?]
  · exact fun ready => sees_acceptable_iff sound wired ready
  · intro panel ready
    refine ⟨?_, keeps_of_spares ?_⟩
    · simp [hop, Layout.carry, Layout.act, wired.granted, sound.role_route track.way_ab,
        Reflex.arrive]
    · simp [Spares, wired.granted, sound.role_route track.way_ab, writes]

theorem mirrors_acceptRules_some {outlet : Outlet}
    (exits : layout.Wired outlet.bits track.straight.b) :
    track.Mirrors asker (track.site.acceptRules 0 track.straight.ab inlet (some outlet))
      [.forward, .confirm, .abandon] := by
  have route := sound.role_route track.way_ab
  have pending := sound.role_pending track.way_ab
  refine Mirrors.cons sound faces (Mirrors.single ?_ ?_ ?_)
    (Mirrors.cons sound faces (Mirrors.single ?_ ?_ ?_) (Mirrors.single ?_ ?_ ?_))
  · simp [Site.acceptable, track.demand_eq sound, conflicts_eq, track.asked_eq sound, Condition.var?]
  · intro panel ready
    rw [List.forall_mem_append, sees_acceptable_iff sound wired ready]
    simp [Layout.Sees, exits.request, exits.granted, exits.denied, Reflex.forward, cue, hop, and_assoc]
  · intro panel ready
    refine ⟨?_, keeps_of_spares ?_⟩
    · simp [hop, Layout.carry, Layout.act, exits.request, pending, Reflex.forward]
    · simp [Spares, exits.request, pending, writes]
  · simp [Condition.var?]
  · intro panel ready
    simp [Layout.Sees, exits.request, exits.granted, pending, Reflex.confirm, cue, hop, and_assoc]
  · intro panel ready
    refine ⟨?_, keeps_of_spares ?_⟩
    · simp [hop, Layout.carry, Layout.act, wired.granted, route, pending, Reflex.confirm]
    · simp [Spares, wired.granted, route, pending, writes]
  · simp [Condition.var?]
  · intro panel ready
    simp [Layout.Sees, exits.request, exits.denied, pending, Reflex.abandon, cue, hop, and_assoc]
  · intro panel ready
    refine ⟨?_, keeps_of_spares ?_⟩
    · simp [hop, Layout.carry, Layout.act, wired.denied, exits.request, pending, Reflex.abandon]
    · simp [Spares, wired.denied, exits.request, pending, writes]

theorem mirrors_acceptRules {outlet : Option Outlet}
    (exits : ∀ joined ∈ outlet, layout.Wired joined.bits track.straight.b) :
    track.Mirrors asker (track.site.acceptRules 0 track.straight.ab inlet outlet)
      (if outlet.isSome then [.forward, .confirm, .abandon] else [.arrive]) := by
  cases outlet with
  | none => exact mirrors_acceptRules_none sound wired
  | some joined => exact mirrors_acceptRules_some sound faces wired (exits joined rfl)

theorem mirrors_answerResetRules :
    track.Mirrors asker (answerResetRules inlet) [.dismiss, .revoke, .relent] := by
  refine Mirrors.cons sound faces (Mirrors.single ?_ ?_ ?_)
    (Mirrors.cons sound faces (Mirrors.single ?_ ?_ ?_) (Mirrors.single ?_ ?_ ?_))
  · simp [Condition.var?]
  · intro panel ready
    simp [Layout.Sees, wired.released, wired.granted, Reflex.dismiss, cue, hop]
  · intro panel ready
    refine ⟨?_, keeps_of_spares ?_⟩
    · simp [hop, Layout.carry, Layout.act, wired.granted, Reflex.dismiss]
    · simp [Spares, wired.granted, writes]
  · simp [Condition.var?]
  · intro panel ready
    simp [Layout.Sees, wired.request, wired.granted, Reflex.revoke, cue, hop]
  · intro panel ready
    refine ⟨?_, keeps_of_spares ?_⟩
    · simp [hop, Layout.carry, Layout.act, wired.granted, Reflex.revoke]
    · simp [Spares, wired.granted, writes]
  · simp [Condition.var?]
  · intro panel ready
    simp [Layout.Sees, wired.request, wired.denied, Reflex.relent, cue, hop]
  · intro panel ready
    refine ⟨?_, keeps_of_spares ?_⟩
    · simp [hop, Layout.carry, Layout.act, wired.denied, Reflex.relent]
    · simp [Spares, wired.denied, writes]

omit wired faces in
/-- Giving the route up. -/
theorem writes_releaseActions {outlet : Option Outlet} (ready : track.Ready panel)
    (exits : ∀ joined ∈ outlet, layout.Wired joined.bits track.straight.b) :
    track.Writes asker panel
      (layout.carry panel (track.site.releaseActions track.straight.ab outlet))
      ((Reflex.withdraw outlet.isSome).act (track.hop asker panel)) := by
  have route := sound.role_route track.way_ab
  have seen := track.role_seen sound
  have occupied := track.role_occupancy sound
  constructor
  · cases simulated : track.straight.simulated <;> cases outlet with
    | none =>
        simp [Site.releaseActions, site, Straight.site, simulated, Layout.carry, Layout.act, hop,
          route, seen, occupied, Reflex.withdraw]
    | some joined =>
        have wired := exits joined rfl
        simp [Site.releaseActions, site, Straight.site, simulated, Layout.carry, Layout.act, hop,
          route, seen, occupied, Reflex.withdraw, wired.request, wired.released]
  · apply keeps_of_spares
    simp only [Site.releaseActions, List.forall_mem_append]
    refine ⟨⟨?_, ?_⟩, ?_⟩
    · simp [Spares, writes, route, site, Straight.site, seen, ready.unseen]
    · split
      · rename_i simulated
        have unoccupied := ready (.occupancy track.id) (by simp [idles])
        rw [← occupied simulated] at unoccupied
        exact List.forall_mem_singleton.mpr (.inr unoccupied)
      · simp
    · cases outlet with
      | none => simp
      | some joined =>
          have wired := exits joined rfl
          simp [Spares, writes, wired.request, wired.released]

omit faces in
theorem mirrors_withdrawnRule {outlet : Option Outlet}
    (exits : ∀ joined ∈ outlet, layout.Wired joined.bits track.straight.b) :
    track.Mirrors asker [track.site.withdrawnRule track.straight.ab inlet outlet]
      [.withdraw outlet.isSome] := by
  have route := sound.role_route track.way_ab
  have seen := track.role_seen sound
  refine Mirrors.single ?_ ?_ fun ready => writes_releaseActions sound ready exits
  · simp [Site.withdrawnRule, Condition.var?]
  · intro panel ready
    simp [Site.withdrawnRule, Layout.Sees, route, seen, ready.unseen, wired.request,
      Reflex.withdraw, cue, hop, site, Straight.site, and_assoc]

omit wired faces in
theorem mirrors_passedRules (outlet : Option Outlet) :
    track.Mirrors asker (track.site.passedRules track.straight.ab outlet) [] := by
  have seen : layout.role track.site.seen = .seen track.id := track.role_seen sound
  refine Mirrors.idle fun ready => ?_
  intro rule member
  obtain ⟨freed, rfl⟩ := Site.mem_passedRules member
  simp [Layout.Sees, seen, ready.unseen]

omit sound wired faces in
theorem mirrors_releaseDoneRules {outlet : Option Outlet}
    (exits : ∀ joined ∈ outlet, layout.Wired joined.bits track.straight.b) :
    track.Mirrors asker (releaseDoneRules outlet) (if outlet.isSome then [.finish] else []) := by
  cases outlet with
  | none => exact Mirrors.idle fun _ => by simp [Layout.Rests, releaseDoneRules]
  | some joined =>
      have wired := exits joined rfl
      refine Mirrors.single ?_ ?_ ?_
      · simp [Condition.var?]
      · intro panel ready
        simp [Layout.Sees, wired.released, wired.granted, Reflex.finish, cue, hop]
      · intro panel ready
        refine ⟨?_, keeps_of_spares ?_⟩
        · simp [hop, Layout.carry, Layout.act, wired.released, Reflex.finish]
        · simp [Spares, wired.released, writes]

/-- The rules of the passage from `a` to `b` do what the reflexes do. -/
theorem mirrors_handshakeRules {outlet : Option Outlet}
    (exits : ∀ joined ∈ outlet, layout.Wired joined.bits track.straight.b) : track.Mirrors asker
      (track.site.handshakeRules 0 track.straight.ab inlet outlet)
      (Hop.reflexes outlet.isSome) := by
  have answered := ((mirrors_denyRules sound faces wired).append sound faces
    (mirrors_acceptRules sound faces wired exits)).append sound faces
      (mirrors_answerResetRules sound faces wired)
  have released := ((answered.append sound faces (mirrors_passedRules sound outlet)).append sound faces
    (mirrors_withdrawnRule sound wired exits)).append sound faces (mirrors_releaseDoneRules exits)
  rw [List.append_nil] at released
  exact released

end Rules

section Work

variable {panel : Panel}

theorem work_eq : track.piece.work layout =
    track.site.seenRules layout ++ track.site.clearRules ++
      (track.site.passageRules layout 0 ++ track.site.passageRules layout 1) := by
  have tracked : track.piece.tracking layout =
      track.site.seenRules layout ++ track.site.clearRules := by
    rcases track.plain with kind | kind | kind <;> simp [Piece.tracking, piece, site, kind]
  have served : track.piece.duties layout = track.site.duties layout := by
    rcases track.plain with kind | kind | kind <;> simp [Piece.duties, piece, site, kind]
  rw [Piece.work, tracked, served, Site.flatMap_duties]
  simp [site, Straight.site, List.range_succ]

theorem plain_piece : track.piece.Plain layout where
  summary := by
    rcases track.plain with kind | kind | kind <;> simp [Piece.summary, piece, kind]
  bits := by
    rw [work_eq]
    simp only [List.forall_mem_append]
    exact ⟨List.forall_mem_append.mp (track.site.bits_trackingRules layout),
      track.site.bits_passageRules layout 0, track.site.bits_passageRules layout 1⟩

include sound

theorem passageRules_ab (joined : layout.mate? track.straight.a = some asker) :
    ∃ inlet, layout.Wired inlet asker ∧ track.site.passageRules layout 0 =
      track.site.handshakeRules 0 track.straight.ab inlet (layout.outlet? track.straight.b) := by
  obtain ⟨_, out, _⟩ := track.courses sound
  have enters : track.straight.ab.entry = track.straight.a := congrArg Course.entry out
  have exits : track.straight.ab.exit = track.straight.b := congrArg Course.exit out
  obtain ⟨inlet, known, wired⟩ := sound.inlet_of_mate joined
  exact ⟨inlet, wired, by simp [Site.passageRules, site, Straight.site, enters, exits, known]⟩

/-- Nothing is done for a passage from `b` to `a` for which nobody asks. -/
theorem Ready.rests_passageRules (ready : track.Ready panel) :
    layout.Rests panel (track.site.passageRules layout 1) := by
  obtain ⟨_, _, back⟩ := track.courses sound
  have enters : track.straight.ba.entry = track.straight.b := congrArg Course.entry back
  have exits : track.straight.ba.exit = track.straight.a := congrArg Course.exit back
  obtain ⟨unrouted, unpending⟩ := ready.unopposed
  simp only [Site.passageRules, site, Straight.site, List.getElem?_cons_succ, List.getElem?_cons_zero,
    enters, exits]
  cases known : layout.inlet? track.straight.b with
  | none => simp [Layout.Rests]
  | some inlet =>
      obtain ⟨mate, onward, wired⟩ := sound.inlet known
      have idle : ∀ role ∈ [Role.request mate, .granted mate, .denied mate], panel role = false :=
        fun role member => ready role (by simp [idles, onward, member])
      simp only [List.forall_mem_cons, ← wired.request, ← wired.granted, ← wired.denied] at idle
      obtain ⟨unasked, ungranted, undenied, _⟩ := idle
      rw [← sound.role_route track.way_ba] at unrouted
      rw [← sound.role_pending track.way_ba] at unpending
      refine Layout.rests_handshakeRules unasked ungranted undenied unpending unrouted ?_
      intro joined outlet
      rw [(sound.outlet outlet).released]
      exact ready _ (by simp [idles])

/-- Nothing is kept track of as long as the next piece is free. -/
theorem Ready.rests_tracking (ready : track.Ready panel)
    (free : ∀ next, layout.neighbourOccupancy? track.straight.b = some next →
      panel (.route track.straight.ab) = true → panel (layout.role next) = false) :
    layout.Rests panel (track.site.seenRules layout ++ track.site.clearRules) := by
  obtain ⟨_, out, _⟩ := track.courses sound
  have exits : track.straight.ab.exit = track.straight.b := congrArg Course.exit out
  have unseen : panel (layout.role track.site.seen) = false := by
    rw [show track.site.seen = track.straight.seen from rfl, track.role_seen sound]
    exact ready.unseen
  apply Layout.Rests.append
  · intro rule member sees
    obtain ⟨passage, listed, made⟩ := List.mem_filterMap.mp member
    obtain ⟨next, known, rfl⟩ := Option.map_eq_some_iff.mp made
    simp only [Site.conditions_seenRule, List.forall_mem_cons, Layout.Sees] at sees
    obtain ⟨routed, occupied, _⟩ := sees
    simp only [site, Straight.site, List.mem_cons, List.not_mem_nil, or_false] at listed
    rcases listed with rfl | rfl
    · rw [sound.role_route track.way_ab] at routed
      rw [exits] at known
      rw [free next known routed] at occupied
      cases occupied
    · rw [sound.role_route track.way_ba, ready.unopposed.1] at routed
      cases routed
  · intro rule member sees
    rcases List.mem_cons.mp member with rfl | member
    · have noticed := sees (.on track.site.seen) (by simp)
      simp [Layout.Sees, unseen] at noticed
    · split at member
      · rename_i simulated
        obtain rfl := List.mem_singleton.mp member
        have occupied : panel (layout.role track.occupancy) = true :=
          sees (.on track.site.occupancy) (by simp)
        rw [track.role_occupancy sound simulated, ready _ (by simp [idles])] at occupied
        cases occupied
      · cases member

section Turn

variable (ready : track.Ready panel)
  (free : ∀ next, layout.neighbourOccupancy? track.straight.b = some next →
    panel (.route track.straight.ab) = true → panel (layout.role next) = false)

include faces ready free

/-- A turn of a track writes what the reflexes write. -/
theorem Faces.writes_of_runs {after : Panel}
    (runs : layout.Runs (track.piece.automaton layout).rules panel after) :
    track.Writes asker panel after ((track.hop asker panel).turn
      (layout.outlet? track.straight.b).isSome (track.cue asker panel)) := by
  obtain ⟨inlet, wired, same⟩ := passageRules_ab sound faces.joined
  have mirrors := mirrors_handshakeRules sound faces wired fun joined known => sound.outlet known
  rw [track.plain_piece.rules, work_eq, same] at runs
  obtain ⟨worked, works, starts⟩ := runs.split
  obtain ⟨tracked, tracks, reserves⟩ := works.split
  obtain ⟨reserved, forth, back⟩ := reserves.split
  obtain rfl := (ready.rests_tracking sound free).eq_of_runs tracks
  have written := mirrors.runs ready forth
  have idle := (written.ready sound faces ready).rests_passageRules sound
  obtain rfl := idle.eq_of_runs back
  obtain rfl := Layout.eq_of_runs_startRule starts
  exact written

/-- A track rests as soon as no reflex acts. -/
theorem Faces.rests_work (still : ∀ reflex ∈ Hop.reflexes (layout.outlet? track.straight.b).isSome,
      reflex.when (track.cue asker panel) (track.hop asker panel) = false) :
    layout.Rests panel (track.piece.work layout) := by
  obtain ⟨inlet, wired, same⟩ := passageRules_ab sound faces.joined
  have mirrors := mirrors_handshakeRules sound faces wired fun joined known => sound.outlet known
  rw [work_eq, same]
  exact (ready.rests_tracking sound free).append
    ((mirrors.rests ready still).append (ready.rests_passageRules sound))

end Turn

end Work

end Track

end Interlocking
