import Interlocking.Layout.Automata
import Interlocking.Proofs.PassageRules
import Interlocking.Proofs.RuleOrder

/-!
# Straight pieces, signals and endpoints follow the protocol

What these pieces do in a turn besides working on their passages: they keep track of the
trains, a signal asks for a route of its own, and an endpoint answers.
-/

namespace Interlocking

open Function (update)

theorem Straight.originRelease_eq (straight : Straight) (outlet : Option Outlet) :
    straight.originRelease outlet =
      [Action.clear straight.ab.route, .clear straight.seen] ++ releaseNotice outlet := by
  cases outlet <;> rfl

/-- Gives the route behind a signal up, and lets the signal ask again once the request was
withdrawn. -/
def Straight.originReleaseRules (straight : Straight) (occupancy request used : Var)
    (outlet : Option Outlet) : List Rule :=
  [ { conditions := [.on straight.ab.route, .on straight.seen, .off occupancy]
      actions := .raise used :: straight.originRelease outlet },
    { conditions := [.on straight.ab.route, .off straight.seen, .off request]
      actions := straight.originRelease outlet },
    { conditions := [.on used, .off request]
      actions := [.clear used] }]

theorem Straight.signalRouteRules_eq (straight : Straight) (occupancy request used : Var)
    (outlet : Option Outlet) : straight.signalRouteRules occupancy request used outlet =
      straight.originRules request used outlet ++
        straight.originReleaseRules occupancy request used outlet ++ releaseDoneRules outlet := rfl

variable {layout : Layout} {stand : PieceId → Bool} {loose : Option SideId}

namespace Layout

/-- The rules write no bit with which the protocol is concerned. -/
def Aside (layout : Layout) (rules : List Rule) : Prop :=
  ∀ rule ∈ rules, ∀ var ∈ rule.writes, (layout.role var).inProtocol = false

theorem Aside.maintains {rules : List Rule} (aside : layout.Aside rules)
    {invariant : Panel → Prop}
    (congr : ∀ {panel other : Panel}, panel.Alike other → invariant other → invariant panel) :
    layout.Maintains invariant rules := by
  intro rule member panel holds _
  exact congr (fun _ concerned => carry_apart (aside rule member) concerned) holds

theorem Aside.takes {rules : List Rule} (aside : layout.Aside rules) :
    layout.Takes (layout.Steady stand loose) rules (layout.Steady stand loose) :=
  Takes.each (aside.maintains fun alike steady => steady.congr alike)

theorem Aside.append {first second : List Rule} (left : layout.Aside first)
    (right : layout.Aside second) : layout.Aside (first ++ second) :=
  List.forall_mem_append.mpr ⟨left, right⟩

theorem takes_startRule {kept : Panel → Prop} :
    layout.Takes kept [RuleBook.startRule] kept :=
  Takes.single (fun _ holds _ => holds) (fun _ holds _ => holds)

section Tracking

variable {id : PieceId} {piece : Piece} {site : Site}
  (describes : layout.Describes id piece site)

include describes

theorem Describes.seenRules_aside : layout.Aside (site.seenRules layout) := by
  intro rule member var written
  obtain ⟨passage, _, made⟩ := List.mem_filterMap.mp member
  obtain ⟨next, _, rfl⟩ := Option.map_eq_some_iff.mp made
  cases simulated : site.simulated with
  | false =>
      simp only [Rule.writes, Site.actions_seenRule, simulated, Bool.false_eq_true, if_false,
        List.filterMap_cons, Action.var?, List.filterMap_nil, List.mem_singleton] at written
      exact written ▸ describes.seen_apart
  | true =>
      simp only [Rule.writes, Site.actions_seenRule, simulated, if_true, List.filterMap_cons, Action.var?,
        List.filterMap_nil, List.mem_cons, List.not_mem_nil, or_false] at written
      rcases written with rfl | rfl
      · exact describes.seen_apart
      · exact describes.apart

theorem Describes.clearRules_aside : layout.Aside site.clearRules := by
  intro rule member var written
  rcases List.mem_cons.mp member with rfl | member
  · simp only [Rule.writes, List.filterMap_cons, Action.var?, List.filterMap_nil,
      List.mem_singleton] at written
    exact written ▸ describes.seen_apart
  · split at member
    · obtain rfl := List.mem_singleton.mp member
      simp only [Rule.writes, List.filterMap_cons, Action.var?, List.filterMap_nil,
        List.mem_singleton] at written
      exact written ▸ describes.apart
    · cases member

end Tracking

theorem inPhase_contributePassages (site : Site) (book : RuleBook) (phase : Phase) :
    (site.contributePassages layout book).inPhase phase = book.inPhase phase ++
      if phase = .route then (List.range site.passages.length).flatMap (site.passageRules layout)
      else [] := by
  unfold Site.contributePassages
  generalize List.range site.passages.length = indices
  induction indices generalizing book with
  | nil => simp
  | cons index indices ih =>
      rw [List.foldl_cons, ih, RuleBook.inPhase_contribute]
      by_cases same : phase = .route
      · simp [same]
      · simp [same, Ne.symm same]

section Straights

theorem rules_trackBook (straight : Straight) (name : String) (occupancy : Var)
    (filter : List Rule) : (straight.trackBook layout name occupancy filter).build.rules =
      filter ++ ((straight.site occupancy).seenRules layout ++ (straight.site occupancy).clearRules ++
        (List.range (straight.site occupancy).passages.length).flatMap
          ((straight.site occupancy).passageRules layout)) ++ [RuleBook.startRule] := by
  simp [RuleBook.rules_build, Straight.trackBook, Site.contributeTracking,
    inPhase_contributePassages, Phase.all]

variable {id : PieceId} {name : String} {occupancy : Var} {straight : Straight}
  (sound : layout.Sound)
  (found : layout.piece? id = some { name, occupancy, body := .straight straight })

include sound found

theorem Sound.describes_straight :
    layout.Describes id { name, occupancy, body := .straight straight }
      (straight.site occupancy) where
  passages := rfl
  position := rfl
  seen := sound.role_seen found rfl
  occupancy := rfl
  simulated := by
    obtain ⟨⟨seen, ab, ba⟩, kind, a, b⟩ := straight
    cases kind <;> rfl
  apart := sound.occupancy_aside found

theorem Sound.straight_courses : straight.a ≠ straight.b ∧
    straight.ab.course = ⟨straight.a, straight.b, none⟩ ∧
    straight.ba.course = ⟨straight.b, straight.a, none⟩ := by
  obtain ⟨sides, courses⟩ := sound.shaped found
  simp only [Piece.passages, Piece.courses, List.map_cons, List.map_nil, List.cons.injEq,
    and_true] at courses
  simp only [Piece.sides, List.nodup_cons, List.mem_singleton] at sides
  exact ⟨sides.1, courses⟩

theorem Sound.filterRules_aside {raw shadow : Var} {window : UInt8}
    (kind : straight.kind = .filtered raw window shadow) :
    layout.Aside (filterRules occupancy raw window shadow) := by
  have shadowed : (layout.role shadow).inProtocol = false := by
    have helper : ({ name, occupancy, body := .straight straight } : Piece).helper? =
        some shadow := by
      obtain ⟨⟨seen, ab, ba⟩, _, a, b⟩ := straight
      subst kind
      rfl
    rw [sound.role_helper found helper]
    rfl
  have occupied := sound.occupancy_aside found
  simp only at occupied
  simp [Aside, filterRules, Rule.writes, Action.var?, shadowed, occupied]

end Straights

section Signals

variable {id : PieceId} {name : String} {occupancy request aspect used : Var} {straight : Straight}
  (sound : layout.Sound)
  (found : layout.piece? id = some { name, occupancy, body := .straight straight })
  (kind : straight.kind = .signal request aspect used)

theorem rules_signalBook (straight : Straight) (name : String)
    (occupancy request aspect used : Var) :
    (straight.signalBook layout name occupancy request aspect used).build.rules =
      (layout.neighbourOccupancy? straight.a).elim []
          (fun approaching => copyRules approaching occupancy) ++
        ((straight.site occupancy).seenRules layout ++ (straight.site occupancy).clearRules) ++
        (layout.inlet? straight.ab.entry).elim [] straight.terminusRules ++
        straight.signalRouteRules occupancy request used (layout.outlet? straight.ab.exit) ++
        (straight.site occupancy).passageRules layout 1 ++
        straight.aspectRules request aspect (layout.neighbourOccupancy? straight.b) ++
        [RuleBook.startRule] := by
  simp [RuleBook.rules_build, Straight.signalBook, Site.contributeTracking, Phase.all]

include kind in
/-- What distinguishes a signal from other straight pieces. -/
theorem straight_of_signal :
    ({ name, occupancy, body := .straight straight } : Piece).helper? = some used ∧
      ({ name, occupancy, body := .straight straight } : Piece).asked = [straight.ba] ∧
      aspect ∈ ({ name, occupancy, body := .straight straight } : Piece).supplied := by
  obtain ⟨⟨seen, ab, ba⟩, _, a, b⟩ := straight
  subst kind
  exact ⟨rfl, rfl, by simp [Piece.supplied]⟩

include sound found

/-- A signal whose passages are not in use may take its own. -/
theorem Sound.sees_originAllowed {panel : Panel}
    (sees : ∀ condition ∈ straight.originAllowed request used, layout.Sees panel condition) :
    layout.Free panel id ∧ Fits panel id straight.ab := by
  have out : layout.Way id straight.ab := ⟨_, found, by simp [Piece.passages]⟩
  have back : layout.Way id straight.ba := ⟨_, found, by simp [Piece.passages]⟩
  have anyPosition : straight.ab.position = none :=
    congrArg Course.position (sound.straight_courses found).2.1
  simp only [Lane.originAllowed, List.forall_mem_cons, Sees, sound.role_route out,
    sound.role_pending out, sound.role_route back, sound.role_pending back] at sees
  obtain ⟨_, outReserved, outPending, _, backReserved, backPending, _⟩ := sees
  constructor
  · rintro passage ⟨piece, known, member⟩
    obtain rfl := Option.some.inj (found.symm.trans known)
    simp only [Piece.passages, List.mem_cons, List.not_mem_nil, or_false] at member
    rcases member with rfl | rfl
    · simp [Panel.Held, outReserved, outPending]
    · simp [Panel.Held, backReserved, backPending]
  · intro position needed
    rw [anyPosition] at needed
    cases needed

include kind

/-- Nobody asks a signal for the passage that it asks for itself. -/
theorem Sound.signal_not_asked {passage : Passage} (asked : layout.Asked passage) :
    passage.entry ≠ straight.ab.entry := by
  intro entries
  obtain ⟨differ, out, back⟩ := sound.straight_courses found
  have enters : straight.ab.entry = straight.a := congrArg Course.entry out
  have opposite : straight.ba.entry = straight.b := congrArg Course.entry back
  have member := sound.mem_asked found (by simp [Piece.sides]) asked (entries.trans enters)
  rw [(straight_of_signal kind).2.1] at member
  obtain rfl := List.mem_singleton.mp member
  exact differ (enters.symm.trans (entries.symm.trans opposite))

/-- What a signal answers at its side `a` follows the protocol. -/
theorem Sound.maintains_terminusRules {inlet : Handshake} {asker : SideId}
    (joined : layout.mate? straight.ab.entry = some asker) (wired : layout.Wired inlet asker) :
    layout.Maintains (layout.Steady stand none) (straight.terminusRules inlet) := by
  have way : layout.Way id straight.ba := ⟨_, found, by simp [Piece.passages]⟩
  have idle : ∀ {panel : Panel}, ∀ passage, layout.Asked passage →
      passage.entry = straight.ab.entry → panel (.pending passage) = false :=
    fun passage asked entries => absurd entries (sound.signal_not_asked found kind asked)
  refine Maintains.append ?_ (wired.maintains_answerResetRules sound)
  simp only [Maintains, List.forall_mem_cons, List.cons_append, List.nil_append, Sees, wired.granted,
    wired.denied, wired.request, sound.role_route way, sound.role_pending way, carry,
    List.foldl_cons, List.foldl_nil, act]
  refine ⟨?_, ?_, ?_, by simp⟩
  · rintro panel steady ⟨_, ungranted, _⟩
    exact steady.shift sound (.refuse joined ungranted idle)
  · rintro panel steady ⟨_, ungranted, _⟩
    exact steady.shift sound (.refuse joined ungranted idle)
  · rintro panel steady ⟨_, _, undenied, unreserved, unpending, _⟩
    apply steady.shift sound
    apply Shift.concede joined undenied idle
    · intro place passage against exits
      obtain ⟨differ, out, -⟩ := sound.straight_courses found
      have enters : straight.ab.entry = straight.a := congrArg Course.entry out
      have leaves : straight.ab.exit = straight.b := congrArg Course.exit out
      have member := sound.mem_passages found (by simp [Piece.sides]) against (exits.trans enters)
      simp only [Piece.passages, List.mem_cons, List.not_mem_nil, or_false] at member
      rcases member with rfl | rfl
      · exact absurd (enters.symm.trans (exits.symm.trans leaves)) differ
      · simp [Panel.Held, unreserved, unpending]
    · intro place passage against exits loosened
      cases loosened

/-- What a signal does with its own passage follows the protocol. -/
theorem Sound.maintains_originRules : layout.Maintains (layout.Steady stand (some straight.ab.exit))
    (straight.originRules request used (layout.outlet? straight.ab.exit)) := by
  have way : layout.Way id straight.ab := ⟨_, found, by simp [Piece.passages]⟩
  cases known : layout.outlet? straight.ab.exit with
  | none =>
      intro rule member panel steady sees
      obtain rfl := List.mem_singleton.mp member
      obtain ⟨free, fits⟩ := sound.sees_originAllowed found sees
      simp only [carry, List.foldl_cons, List.foldl_nil, act, sound.role_route way]
      exact steady.shift sound (.arrive way (sound.mate_of_no_outlet known) free fits)
  | some outlet =>
      obtain ⟨out, next⟩ := outlet
      have wired := sound.outlet known
      simp only at wired
      simp only [Maintains, Lane.originRules, List.forall_mem_cons]
      refine ⟨?_, ?_, ?_, by simp⟩
      · intro panel steady sees
        obtain ⟨allowed, sees⟩ := List.forall_mem_append.mp sees
        obtain ⟨free, fits⟩ := sound.sees_originAllowed found allowed
        simp only [List.forall_mem_cons, Sees, wired.granted] at sees
        simp only [carry, List.foldl_cons, List.foldl_nil, act, wired.request,
          sound.role_pending way]
        apply steady.shift sound
        apply Shift.ask way rfl free fits sees.2.1
        intro asked
        exact absurd rfl (sound.signal_not_asked found kind asked)
      · intro panel steady sees
        simp only [Sees, wired.granted, sound.role_pending way] at sees
        simp only [carry, List.foldl_cons, List.foldl_nil, act, sound.role_route way,
          sound.role_pending way]
        exact steady.shift sound (.confirm way sees.1 sees.2.2.1)
      · intro panel steady sees
        simp only [Sees, sound.role_pending way] at sees
        simp only [carry, List.foldl_cons, List.foldl_nil, act, wired.request,
          sound.role_pending way]
        exact steady.shift sound (.abandon way sees.1)

omit kind in
/-- Of what is cleared with the route of a signal, the protocol is about the route alone. -/
theorem Sound.alike_originCleared (panel : Panel) :
    (layout.carry panel [.clear straight.ab.route, .clear straight.seen]).Alike
      (update panel (.route straight.ab) false) := by
  have way : layout.Way id straight.ab := ⟨_, found, by simp [Piece.passages]⟩
  simp only [carry, List.foldl_cons, List.foldl_nil, act, sound.role_route way]
  exact (Panel.Alike.refl _).aside (sound.describes_straight found).seen_apart false

/-- What a signal does to give its route up, and to be ready for the next, follows the
protocol. -/
theorem Sound.maintains_originReleaseRules :
    layout.Maintains (layout.Steady stand (some straight.ab.exit))
      (straight.originReleaseRules occupancy request used (layout.outlet? straight.ab.exit)) := by
  have way : layout.Way id straight.ab := ⟨_, found, by simp [Piece.passages]⟩
  have helped : layout.role used = .helper id :=
    sound.role_helper found (straight_of_signal kind).1
  have released : ∀ {panel : Panel}, layout.Steady stand (some straight.ab.exit) panel →
      panel (.route straight.ab) = true → layout.Steady stand (some straight.ab.exit)
        (layout.carry panel (straight.originRelease (layout.outlet? straight.ab.exit))) := by
    intro panel steady reserved
    rw [Straight.originRelease_eq, carry, List.foldl_append]
    exact sound.steady_release way steady reserved (sound.alike_originCleared found panel)
  simp only [Maintains, Straight.originReleaseRules, List.forall_mem_cons, Sees,
    sound.role_route way]
  refine ⟨?_, ?_, ?_, by simp⟩
  · rintro panel steady ⟨reserved, _⟩
    have noted : layout.Steady stand (some straight.ab.exit) (update panel (.helper id) true) :=
      steady.congr ((Panel.Alike.refl panel).aside rfl true)
    have kept := released noted (by simpa using reserved)
    simpa only [carry, List.foldl_cons, act, helped] using kept
  · rintro panel steady ⟨reserved, _⟩
    exact released steady reserved
  · intro panel steady _
    simp only [carry, List.foldl_cons, List.foldl_nil, act, helped]
    exact steady.congr ((Panel.Alike.refl panel).aside rfl false)

theorem Sound.aspectRules_aside (next : Option Var) :
    layout.Aside (straight.aspectRules request aspect next) := by
  have outside := role_of_outside (sound.supplied found aspect (straight_of_signal kind).2.2)
  cases next with
  | none => simp [Aside, Lane.aspectRules, Rule.writes, Action.var?, outside, Role.inProtocol]
  | some next =>
      simp [Aside, Lane.aspectRules, Rule.writes, Action.var?, outside, Role.inProtocol]

end Signals

section Endpoints

variable {id : PieceId} {name : String} {occupancy : Var} {side : SideId} (sound : layout.Sound)
  (found : layout.piece? id = some { name, occupancy, body := .endpoint side })

include sound found

/-- An endpoint has no passages, so nothing stands against what it answers. -/
theorem Sound.maintains_endpointRules (own : Handshake) {inlet : Handshake} {asker : SideId}
    (joined : layout.mate? side = some asker) (wired : layout.Wired inlet asker) :
    layout.Maintains (layout.Steady stand none) (endpointRules own inlet) := by
  have listed : side ∈ ({ name, occupancy, body := .endpoint side } : Piece).sides := by
    simp [Piece.sides]
  have idle : ∀ {panel : Panel}, ∀ passage, layout.Asked passage →
      passage.entry = side → panel (.pending passage) = false := by
    intro panel passage asked entries
    cases sound.mem_asked found listed asked entries
  have unused : ∀ {panel : Panel} {id passage}, layout.Way id passage →
      passage.exit = side → ¬panel.Held passage := by
    intro panel id passage way exits
    cases sound.mem_passages found listed way exits
  refine Maintains.append ?_ (wired.maintains_answerResetRules sound)
  simp only [Maintains, List.forall_mem_cons, List.cons_append, List.nil_append, Sees, wired.request,
    wired.granted, wired.denied, carry, List.foldl_cons, List.foldl_nil, act]
  refine ⟨?_, ?_, by simp⟩
  · rintro panel steady ⟨_, ungranted, _⟩
    exact steady.shift sound (.refuse joined ungranted idle)
  · rintro panel steady ⟨_, _, undenied, _⟩
    apply steady.shift sound
    apply Shift.concede joined undenied idle unused
    intro place passage way exits loosened
    cases loosened

end Endpoints

end Layout

end Interlocking
