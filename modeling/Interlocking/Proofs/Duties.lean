import Interlocking.Proofs.Deeds

/-!
# The parts of a turn

In its turn a piece first keeps track of the trains, then does its duties one after
another, and at the end sums up what has come of them. Each duty is the work on one of the
passages of the piece, or the answer at a side at which no passage begins. What the deeds of
a duty maintain, the duty maintains.
-/

namespace Interlocking

/-- A part of a turn, with the passage on which the piece works. -/
structure Duty where
  passage : Option Passage
  rules : List Rule

/-- The work on the passages of a site. -/
def Site.duties (site : Site) (layout : Layout) : List Duty :=
  site.passages.zipIdx.map fun (passage, index) =>
    { passage := some passage, rules := site.passageRules layout index }

namespace Piece

/-- What a piece does before its duties: it keeps track of the trains. -/
def tracking (piece : Piece) (layout : Layout) : List Rule :=
  match piece.body with
  | .straight straight =>
      let site := straight.site piece.occupancy
      (match straight.kind with
        | .signal .. => (layout.neighbourOccupancy? straight.a).elim []
            fun approaching => copyRules approaching piece.occupancy
        | .filtered raw window shadow => filterRules piece.occupancy raw window shadow
        | _ => []) ++ (site.seenRules layout ++ site.clearRules)
  | .turnout turnout =>
      let site := turnout.site piece.occupancy
      site.seenRules layout ++ site.clearRules
  | .endpoint _ => []

/-- The duties of a piece in order. -/
def duties (piece : Piece) (layout : Layout) : List Duty :=
  match piece.body with
  | .straight straight =>
      let site := straight.site piece.occupancy
      match straight.kind with
      | .signal request _ used => [
          { passage := none
            rules := (layout.inlet? straight.ab.entry).elim [] straight.terminusRules },
          { passage := some straight.ab
            rules := straight.signalRouteRules piece.occupancy request used
              (layout.outlet? straight.ab.exit) },
          { passage := some straight.ba, rules := site.passageRules layout 1 }]
      | _ => site.duties layout
  | .turnout turnout =>
      (turnout.site piece.occupancy).duties layout ++
        match turnout.kind with
        | .fixed position => [
            { passage := none
              rules := (layout.inlet? (turnout.deadSide position)).elim []
                Turnout.deadBranchRules }]
        | .movable .. => []
  | .endpoint side => [
      { passage := none
        rules := match layout.side? side, layout.inlet? side with
          | some own, some inlet => endpointRules own.bits inlet
          | _, _ => [] }]

/-- What a piece does after its duties. -/
def summary (piece : Piece) (layout : Layout) : List Rule :=
  (match piece.body with
    | .straight straight =>
        match straight.kind with
        | .signal request aspect _ =>
            straight.aspectRules request aspect (layout.neighbourOccupancy? straight.b)
        | _ => []
    | .turnout turnout =>
        match turnout.kind with
        | .fixed _ => []
        | .movable motor position anyRoute =>
            Turnout.anyRouteRules turnout.passages anyRoute ++ Turnout.motorRules motor position anyRoute
    | .endpoint _ => []) ++ [RuleBook.startRule]

end Piece

/-- The only passage of a piece for which its neighbours do not ask is the one of a signal. -/
theorem Piece.signal_of_not_mem_asked {piece : Piece} {passage : Passage}
    (member : passage ∈ piece.passages) (unasked : passage ∉ piece.asked) :
    ∃ straight request aspect used, piece.body = .straight straight ∧
      straight.kind = .signal request aspect used ∧ passage = straight.ab := by
  obtain ⟨name, occupancy, body⟩ := piece
  cases body with
  | straight straight =>
      obtain ⟨⟨seen, ab, ba⟩, kind, a, b⟩ := straight
      cases kind with
      | signal request aspect used =>
          refine ⟨_, request, aspect, used, rfl, rfl, ?_⟩
          simp_all [Piece.asked, Piece.passages]
      | short | long | detector | filtered => exact absurd member unasked
  | turnout turnout => exact absurd member unasked
  | endpoint side => cases member

/-- No course begins at the dead branch of a turnout and at an endpoint only. -/
theorem Piece.course_of_side {piece : Piece} {side : SideId} (listed : side ∈ piece.sides) :
    (∃ course ∈ piece.courses, course.entry = side) ∨
      (∃ turnout position, piece.body = .turnout turnout ∧ turnout.kind = .fixed position ∧
        side = turnout.deadSide position) ∨
      ∃ own, piece.body = .endpoint own ∧ side = own := by
  obtain ⟨name, occupancy, body⟩ := piece
  cases body with
  | straight straight =>
      left
      simp only [sides, List.mem_cons, List.not_mem_nil, or_false] at listed
      rcases listed with rfl | rfl <;> simp [courses]
  | turnout turnout =>
      obtain ⟨kind, points, closed, thrown, seen, passages⟩ := turnout
      simp only [sides, Turnout.sides, List.mem_cons, List.not_mem_nil, or_false] at listed
      cases kind with
      | movable motor position anyRoute =>
          left
          rcases listed with rfl | rfl | rfl <;> simp [courses]
      | fixed position =>
          rcases listed with rfl | rfl | rfl <;> cases position <;>
            simp [courses, Turnout.branch, Turnout.deadSide]
  | endpoint own => exact .inr (.inr ⟨own, rfl, List.mem_singleton.mp listed⟩)

theorem Site.flatMap_duties (site : Site) (layout : Layout) :
    (site.duties layout).flatMap Duty.rules =
      (List.range site.passages.length).flatMap (site.passageRules layout) := by
  rw [List.range_eq_range', ← List.zipIdx_map_snd, Site.duties, List.flatMap_map, List.flatMap_map]

/-- The rules of a piece are those of the parts of its turn. -/
theorem Piece.rules_automaton (piece : Piece) (layout : Layout) :
    (piece.automaton layout).rules = piece.tracking layout ++
      (piece.duties layout).flatMap Duty.rules ++ piece.summary layout := by
  obtain ⟨name, occupancy, body⟩ := piece
  cases body with
  | straight straight =>
      simp only [automaton, tracking, duties, summary, Straight.book]
      cases kind : straight.kind with
      | short | long | detector | filtered =>
          simp [Layout.rules_trackBook, Site.flatMap_duties]
      | signal request aspect used => simp [Layout.rules_signalBook]
  | turnout turnout =>
      simp only [automaton, tracking, duties, summary]
      cases kind : turnout.kind with
      | fixed position => simp [Layout.rules_fixedTurnout kind, Site.flatMap_duties]
      | movable motor position anyRoute =>
          simp [Layout.rules_movableTurnout kind, Site.flatMap_duties]
  | endpoint side =>
      simp only [automaton, tracking, duties, summary, RuleBook.rules_build, endpointBook]
      cases layout.side? side with
      | none => simp [Phase.all]
      | some own => cases layout.inlet? side <;> simp [Phase.all]

namespace Layout

variable {layout : Layout} {id : PieceId} {stand : PieceId → Bool}

/-- Each rule answers a request that was not answered yet. -/
def Replies (inlet : Handshake) (rules : List Rule) : Prop :=
  ∀ rule ∈ rules, ∃ reasons, rule.conditions =
      [Condition.on inlet.request, .off inlet.granted, .off inlet.denied] ++ reasons ∧
    (∀ reason ∈ reasons, reason.var?.isSome) ∧
    (rule.actions = [.raise inlet.granted] ∨ rule.actions = [.raise inlet.denied])

/-- The piece answers at a side at which none of its passages begins. -/
structure Answers (layout : Layout) (id : PieceId) (entry asker : SideId) (inlet : Handshake)
    (answers : List Rule) : Prop where
  borders : layout.Borders id entry
  joined : layout.mate? entry = some asker
  wired : layout.Wired inlet asker
  steady : ∀ stand, layout.Maintains (layout.Steady stand none) (answers ++ answerResetRules inlet)
  enacts : layout.Enacts id none (answers ++ answerResetRules inlet)
  replies : Replies inlet answers
  /-- Every request gets an answer. -/
  covers : ∀ panel : Panel, panel.Wants (some asker) → ∃ rule ∈ answers,
    (∀ condition ∈ rule.conditions, layout.Sees panel condition) ∧
      ¬Panel.Wants (layout.carry panel rule.actions) (some asker)

/-- What a duty of a piece can be. -/
inductive Task (layout : Layout) (id : PieceId) : Duty → Prop where
  /-- Nobody can ask. -/
  | rest {passage : Option Passage} : Task layout id ⟨passage, []⟩
  /-- A passage for which the neighbour at the entry may ask. -/
  | negotiate {piece : Piece} {site : Site} {index : Nat} {passage : Passage} {inlet : Handshake}
      {asker : SideId} (serves : layout.Serves id piece site index passage inlet asker) :
      Task layout id ⟨some passage,
        site.handshakeRules index passage inlet (layout.outlet? passage.exit)⟩
  /-- The passage for which a signal asks itself. -/
  | originate {name : String} {occupancy request aspect used : Var} {straight : Straight}
      (found : layout.piece? id = some { name, occupancy, body := .straight straight })
      (kind : straight.kind = .signal request aspect used) :
      Task layout id ⟨some straight.ab,
        straight.signalRouteRules occupancy request used (layout.outlet? straight.ab.exit)⟩
  /-- A side at which no passage begins. -/
  | answer {entry asker : SideId} {inlet : Handshake} {answers : List Rule}
      (given : layout.Answers id entry asker inlet answers) :
      Task layout id ⟨none, answers ++ answerResetRules inlet⟩

section Passages

variable (sound : layout.Sound) {piece : Piece} {site : Site}
  (found : layout.piece? id = some piece) (describes : layout.Describes id piece site)

include sound found describes

theorem Sound.task_passageRules {index : Nat} {passage : Passage}
    (placed : site.passages[index]? = some passage) (asked : passage ∈ piece.asked) :
    layout.Task id ⟨some passage, site.passageRules layout index⟩ := by
  simp only [Site.passageRules, placed]
  cases known : layout.inlet? passage.entry with
  | none => exact .rest
  | some inlet =>
      obtain ⟨asker, joined, wired⟩ := sound.inlet known
      exact .negotiate ⟨found, describes, placed, asked, joined, wired⟩

theorem Sound.task_duties (asked : piece.asked = piece.passages) :
    ∀ duty ∈ site.duties layout, layout.Task id duty := by
  intro duty member
  obtain ⟨⟨passage, index⟩, placed, rfl⟩ := List.mem_map.mp member
  have placed : site.passages[index]? = some passage := List.mem_zipIdx_iff_getElem?.mp placed
  apply sound.task_passageRules found describes placed
  rw [asked, ← describes.passages]
  exact List.mem_of_getElem? placed

end Passages

theorem Sound.owner_of_listed (sound : layout.Sound) {piece : Piece}
    (found : layout.piece? id = some piece) {side : SideId} (listed : side ∈ piece.sides) :
    layout.owner? side = some piece := by
  obtain ⟨record, known, owner⟩ := sound.listed found side listed
  simp [owner?, known, owner, found]

section Requests

variable {inlet : Handshake} {asker : SideId} (wired : layout.Wired inlet asker) {panel : Panel}

include wired

/-- A request that was not answered, as the rules see it. -/
theorem Wired.sees_request_iff : (∀ condition ∈
      [Condition.on inlet.request, .off inlet.granted, .off inlet.denied],
      layout.Sees panel condition) ↔ panel.Wants (some asker) := by
  simp [Sees, Panel.Wants, wired.request, wired.granted, wired.denied]

theorem Wired.wants {rest : List Condition}
    (sees : ∀ condition ∈
      [Condition.on inlet.request, .off inlet.granted, .off inlet.denied] ++ rest,
      layout.Sees panel condition) : panel.Wants (some asker) :=
  wired.sees_request_iff.mp (List.forall_mem_append.mp sees).1

/-- Either answer ends the waiting. -/
theorem Wired.not_wants_granted :
    ¬Panel.Wants (layout.carry panel [.raise inlet.granted]) (some asker) := by
  simp [Panel.Wants, carry, act, wired.granted]

theorem Wired.not_wants_denied :
    ¬Panel.Wants (layout.carry panel [.raise inlet.denied]) (some asker) := by
  simp [Panel.Wants, carry, act, wired.denied]

end Requests

section Answering

variable {entry asker : SideId} {inlet : Handshake} (borders : layout.Borders id entry)
  (joined : layout.mate? entry = some asker) (wired : layout.Wired inlet asker)

include borders joined wired

theorem Wired.enacts_refusal {rest : List Condition} : layout.Enacts id none [
    { conditions := [.on inlet.request, .off inlet.granted, .off inlet.denied] ++ rest
      actions := [.raise inlet.denied] }] := by
  intro rule member panel sees
  obtain rfl := List.mem_singleton.mp member
  refine ⟨_, .inr (.refuse borders joined (wired.wants sees)), ?_⟩
  simp only [carry, List.foldl_cons, List.foldl_nil, act, wired.denied]
  exact .refl _

theorem Wired.enacts_concession (ends : layout.Ends entry) {rest : List Condition} :
    layout.Enacts id none [
      { conditions := [.on inlet.request, .off inlet.granted, .off inlet.denied] ++ rest
        actions := [.raise inlet.granted] }] := by
  intro rule member panel sees
  obtain rfl := List.mem_singleton.mp member
  refine ⟨_, .inr (.concede borders joined (wired.wants sees) ends), ?_⟩
  simp only [carry, List.foldl_cons, List.foldl_nil, act, wired.granted]
  exact .refl _

end Answering

section Signals

variable {name : String} {occupancy request aspect used : Var} {straight : Straight}
  (sound : layout.Sound)
  (found : layout.piece? id = some { name, occupancy, body := .straight straight })
  (kind : straight.kind = .signal request aspect used)

include sound found kind

theorem Sound.ends_signal : layout.Ends straight.ab.entry := by
  have enters : straight.ab.entry = straight.a :=
    congrArg Course.entry (sound.straight_courses found).2.1
  rw [enters]
  exact ⟨_, sound.owner_of_listed found (by simp [Piece.sides]),
    .inr ⟨straight, request, aspect, used, rfl, kind, rfl⟩⟩

theorem Sound.answers_terminus {inlet : Handshake} {asker : SideId}
    (joined : layout.mate? straight.ab.entry = some asker) (wired : layout.Wired inlet asker) :
    ∃ answers, straight.terminusRules inlet = answers ++ answerResetRules inlet ∧
      layout.Answers id straight.ab.entry asker inlet answers := by
  have out : layout.Way id straight.ab := ⟨_, found, by simp [Piece.passages]⟩
  have back : layout.Way id straight.ba := ⟨_, found, by simp [Piece.passages]⟩
  have borders := (sound.borders out).1
  refine ⟨_, rfl, borders, joined, wired, fun stand => ?_, ?_, ?_, ?_⟩
  · exact sound.maintains_terminusRules found kind joined wired
  · exact ((wired.enacts_refusal borders joined).append ((wired.enacts_refusal borders joined).append
      (wired.enacts_concession borders joined (sound.ends_signal found kind)))).append
      (wired.enacts_answerResetRules borders joined)
  · simp [Replies, Condition.var?]
  · intro panel wanted
    have asked := wired.sees_request_iff.mpr wanted
    have route := sound.role_route back
    have pending := sound.role_pending back
    by_cases used : panel.Held straight.ba
    · rcases used with reserved | negotiated
      · refine ⟨_, List.mem_cons_self, ?_, wired.not_wants_denied⟩
        exact List.forall_mem_append.mpr ⟨asked, by simp [Sees, route, reserved]⟩
      · refine ⟨_, List.mem_cons_of_mem _ List.mem_cons_self, ?_, wired.not_wants_denied⟩
        exact List.forall_mem_append.mpr ⟨asked, by simp [Sees, pending, negotiated]⟩
    · simp only [Panel.Held, not_or, Bool.not_eq_true] at used
      refine ⟨_, List.mem_cons_of_mem _ (List.mem_cons_of_mem _ List.mem_cons_self), ?_,
        wired.not_wants_granted⟩
      exact List.forall_mem_append.mpr ⟨asked, by simp [Sees, route, pending, used]⟩

theorem Sound.tasks_signal :
    ∀ duty ∈ Piece.duties { name, occupancy, body := .straight straight } layout,
      layout.Task id duty := by
  simp only [Piece.duties, kind, List.forall_mem_cons]
  refine ⟨?_, .originate found kind, ?_, by simp⟩
  · cases known : layout.inlet? straight.ab.entry with
    | none => exact .rest
    | some inlet =>
        obtain ⟨asker, joined, wired⟩ := sound.inlet known
        obtain ⟨answers, same, given⟩ := sound.answers_terminus found kind joined wired
        simp only [Option.elim_some, same]
        exact .answer given
  · apply sound.task_passageRules found (sound.describes_straight found) rfl
    simp [(straight_of_signal kind).2.1]

end Signals

section Endpoints

variable {name : String} {occupancy : Var} {side : SideId} (sound : layout.Sound)
  (found : layout.piece? id = some { name, occupancy, body := .endpoint side })

include sound found

theorem Sound.answers_endpoint {own : Side} (known : layout.side? side = some own)
    {inlet : Handshake} {asker : SideId} (joined : layout.mate? side = some asker)
    (wired : layout.Wired inlet asker) :
    ∃ answers, endpointRules own.bits inlet = answers ++ answerResetRules inlet ∧
      layout.Answers id side asker inlet answers := by
  have borders := sound.listed found side (by simp [Piece.sides])
  have ends : layout.Ends side :=
    ⟨_, sound.owner_of_listed found (by simp [Piece.sides]), .inl ⟨side, rfl⟩⟩
  refine ⟨_, rfl, borders, joined, wired, fun stand => ?_, ?_, ?_, ?_⟩
  · exact sound.maintains_endpointRules found own.bits joined wired
  · exact ((wired.enacts_refusal borders joined).append
      (wired.enacts_concession borders joined ends)).append
      (wired.enacts_answerResetRules borders joined)
  · simp [Replies, Condition.var?]
  · intro panel wanted
    have asked := wired.sees_request_iff.mpr wanted
    have request := (sound.wired known).request
    cases asks : panel (.request side) with
    | true =>
        refine ⟨_, List.mem_cons_self, ?_, wired.not_wants_denied⟩
        exact List.forall_mem_append.mpr ⟨asked, by simp [Sees, request, asks]⟩
    | false =>
        refine ⟨_, List.mem_cons_of_mem _ List.mem_cons_self, ?_, wired.not_wants_granted⟩
        exact List.forall_mem_append.mpr ⟨asked, by simp [Sees, request, asks]⟩

theorem Sound.tasks_endpoint :
    ∀ duty ∈ Piece.duties { name, occupancy, body := .endpoint side } layout,
      layout.Task id duty := by
  simp only [Piece.duties, List.forall_mem_cons]
  refine ⟨?_, by simp⟩
  cases own : layout.side? side with
  | none => exact .rest
  | some record =>
      cases known : layout.inlet? side with
      | none => exact .rest
      | some inlet =>
          obtain ⟨asker, joined, wired⟩ := sound.inlet known
          obtain ⟨answers, same, given⟩ := sound.answers_endpoint found own joined wired
          simp only [same]
          exact .answer given

end Endpoints

section Turnouts

variable {name : String} {occupancy : Var} {turnout : Turnout} (sound : layout.Sound)
  (found : layout.piece? id = some { name, occupancy, body := .turnout turnout })

include sound found

theorem Sound.answers_deadBranch {position : Position} (kind : turnout.kind = .fixed position)
    {inlet : Handshake} {asker : SideId}
    (joined : layout.mate? (turnout.deadSide position) = some asker)
    (wired : layout.Wired inlet asker) :
    ∃ answers, Turnout.deadBranchRules inlet = answers ++ answerResetRules inlet ∧
      layout.Answers id (turnout.deadSide position) asker inlet answers := by
  have listed : turnout.deadSide position ∈ turnout.sides := by
    cases position <;> simp [Turnout.deadSide, Turnout.sides]
  have borders := sound.listed found _ listed
  refine ⟨[_], rfl, borders, joined, wired, fun stand => ?_, ?_, ?_, ?_⟩
  · exact sound.maintains_deadBranchRules found kind joined wired
  · exact Enacts.append (wired.enacts_refusal borders joined)
      (wired.enacts_answerResetRules borders joined)
  · simp [Replies]
  · intro panel wanted
    exact ⟨_, List.mem_cons_self, wired.sees_request_iff.mpr wanted, wired.not_wants_denied⟩

theorem Sound.tasks_turnout :
    ∀ duty ∈ Piece.duties { name, occupancy, body := .turnout turnout } layout,
      layout.Task id duty := by
  simp only [Piece.duties, List.forall_mem_append]
  refine ⟨sound.task_duties found (sound.describes_turnout found) rfl, ?_⟩
  cases kind : turnout.kind with
  | movable motor position anyRoute => simp
  | fixed position =>
      simp only [List.forall_mem_singleton]
      cases known : layout.inlet? (turnout.deadSide position) with
      | none => exact .rest
      | some inlet =>
          obtain ⟨asker, joined, wired⟩ := sound.inlet known
          obtain ⟨answers, same, given⟩ := sound.answers_deadBranch found kind joined wired
          simp only [Option.elim_some, same]
          exact .answer given

end Turnouts

/-- The duties of a piece are of the known kinds. -/
theorem Sound.task (sound : layout.Sound) {piece : Piece} (found : layout.piece? id = some piece) :
    ∀ duty ∈ piece.duties layout, layout.Task id duty := by
  obtain ⟨name, occupancy, body⟩ := piece
  cases body with
  | straight straight =>
      obtain ⟨⟨seen, ab, ba⟩, kind, a, b⟩ := straight
      cases kind with
      | signal request aspect used => exact sound.tasks_signal found rfl
      | short | long | detector | filtered =>
          exact sound.task_duties found (sound.describes_straight found) rfl
  | turnout turnout => exact sound.tasks_turnout found
  | endpoint side => exact sound.tasks_endpoint found

/-- No two duties are about one passage. -/
theorem Sound.duties_nodup (sound : layout.Sound) {piece : Piece}
    (found : layout.piece? id = some piece) :
    ((piece.duties layout).filterMap Duty.passage).Nodup := by
  have listed : (piece.duties layout).filterMap Duty.passage = piece.passages := by
    have passages : ∀ site : Site, (site.duties layout).filterMap Duty.passage = site.passages := by
      intro site
      simp [Site.duties, List.filterMap_map, List.filterMap_eq_map']
    obtain ⟨name, occupancy, body⟩ := piece
    cases body with
    | straight straight =>
        simp only [Piece.duties, Piece.passages]
        cases straight.kind <;> simp [passages, Straight.site]
    | turnout turnout =>
        simp only [Piece.duties, Piece.passages, List.filterMap_append, passages]
        cases turnout.kind <;> simp [Turnout.site]
    | endpoint side => simp [Piece.duties, Piece.passages]
  rw [listed]
  exact (sound.shaped found).nodup

section Presence

variable (sound : layout.Sound) {piece : Piece} (found : layout.piece? id = some piece)

include sound

/-- Whoever is joined to a side can ask there. -/
theorem Sound.inlet_of_mate {entry asker : SideId} (joined : layout.mate? entry = some asker) :
    ∃ inlet, layout.inlet? entry = some inlet ∧ layout.Wired inlet asker := by
  obtain ⟨record, known, _⟩ := Option.bind_eq_some_iff.mp (sound.paired joined)
  exact ⟨record.bits, by simp [inlet?, joined, known], sound.wired known⟩

include found

/-- A piece works on each passage for which a neighbour can ask. -/
theorem Sound.negotiates {passage : Passage} (asked : passage ∈ piece.asked) {asker : SideId}
    (joined : layout.mate? passage.entry = some asker) :
    ∃ site index inlet, layout.Serves id piece site index passage inlet asker ∧
      ⟨some passage, site.handshakeRules index passage inlet (layout.outlet? passage.exit)⟩ ∈
        piece.duties layout := by
  obtain ⟨inlet, known, wired⟩ := sound.inlet_of_mate joined
  have negotiated : ∀ {site : Site} {index : Nat}, layout.Describes id piece site →
      site.passages[index]? = some passage →
      ⟨some passage, site.passageRules layout index⟩ ∈ piece.duties layout →
      ∃ site index inlet, layout.Serves id piece site index passage inlet asker ∧
        ⟨some passage, site.handshakeRules index passage inlet (layout.outlet? passage.exit)⟩ ∈
          piece.duties layout := by
    intro site index describes placed member
    refine ⟨site, index, inlet, ⟨found, describes, placed, asked, joined, wired⟩, ?_⟩
    simpa only [Site.passageRules, placed, known] using member
  have place : ∀ {site : Site}, layout.Describes id piece site →
      ∃ index, site.passages[index]? = some passage ∧
        ⟨some passage, site.passageRules layout index⟩ ∈ site.duties layout := by
    intro site describes
    have member := mem_passages_of_mem_asked asked
    rw [← describes.passages] at member
    obtain ⟨index, placed⟩ := List.mem_iff_getElem?.mp member
    exact ⟨index, placed, List.mem_map.mpr
      ⟨(passage, index), List.mem_zipIdx_iff_getElem?.mpr placed, rfl⟩⟩
  obtain ⟨name, occupancy, body⟩ := piece
  cases body with
  | straight straight =>
      have describes := sound.describes_straight found
      cases kind : straight.kind with
      | signal request aspect used =>
          rw [(straight_of_signal kind).2.1] at asked
          obtain rfl := List.mem_singleton.mp asked
          have placed : (straight.site occupancy).passages[1]? = some straight.ba := rfl
          exact negotiated describes placed (by simp [Piece.duties, kind])
      | short | long | detector | filtered =>
          obtain ⟨index, placed, member⟩ := place describes
          exact negotiated describes placed (by simpa only [Piece.duties, kind] using member)
  | turnout turnout =>
      obtain ⟨index, placed, member⟩ := place (sound.describes_turnout found)
      exact negotiated (sound.describes_turnout found) placed (List.mem_append_left _ member)
  | endpoint side => cases asked

/-- At each side that is joined to another a passage begins for which the neighbour can ask,
or the piece answers there. -/
theorem Sound.attends {side asker : SideId} (listed : side ∈ piece.sides)
    (joined : layout.mate? side = some asker) :
    (∃ passage ∈ piece.asked, passage.entry = side) ∨
      ∃ inlet answers, layout.Answers id side asker inlet answers ∧
        ⟨none, answers ++ answerResetRules inlet⟩ ∈ piece.duties layout := by
  obtain ⟨inlet, known, wired⟩ := sound.inlet_of_mate joined
  obtain ⟨name, occupancy, body⟩ := piece
  rcases Piece.course_of_side listed with
    ⟨course, member, rfl⟩ | ⟨turnout, position, rfl, kind, rfl⟩ | ⟨own, rfl, rfl⟩
  · rw [← (sound.shaped found).courses] at member
    obtain ⟨passage, own, rfl⟩ := List.mem_map.mp member
    by_cases asked : passage ∈ Piece.asked { name, occupancy, body }
    · exact .inl ⟨passage, asked, rfl⟩
    · -- Nobody asks a signal for its passage, which begins where the signal answers.
      obtain ⟨straight, request, aspect, used, rfl, kind, rfl⟩ :=
        Piece.signal_of_not_mem_asked own asked
      obtain ⟨answers, same, given⟩ := sound.answers_terminus found kind joined wired
      have known : layout.inlet? straight.ab.entry = some inlet := known
      exact .inr ⟨inlet, answers, given, by simp [Piece.duties, kind, known, same]⟩
  · obtain ⟨answers, same, given⟩ := sound.answers_deadBranch found kind joined wired
    exact .inr ⟨inlet, answers, given, by simp [Piece.duties, kind, known, same]⟩
  · obtain ⟨record, owned, _⟩ := sound.listed found side listed
    obtain ⟨answers, same, given⟩ := sound.answers_endpoint found owned joined wired
    exact .inr ⟨inlet, answers, given, by simp [Piece.duties, owned, known, same]⟩

end Presence

section Keeping

variable {duty : Duty} {extra invariant : Panel → Prop}

section Work

variable (sound : layout.Sound) {passage : Passage} (way : layout.Way id passage) {rules : List Rule}
  (steady : layout.Maintains (layout.Steady stand (some passage.exit)) rules)
  (enacts : layout.Enacts id (some passage) rules)
  (extras : layout.Maintains extra (rules ++ releaseDoneRules (layout.outlet? passage.exit)))
  (kept : ∀ {loose before after}, layout.Orderly loose before → extra before →
    invariant before → layout.Deed id before (some passage) after → invariant after)
  (congr : ∀ {panel other : Panel}, panel.Alike other → invariant other → invariant panel)

include sound way steady enacts extras kept congr

/-- During the work on a passage the side at its exit may be loose. -/
theorem Sound.maintains_work : layout.Maintains
    (fun panel => (layout.Steady stand (some passage.exit) panel ∧ extra panel) ∧ invariant panel)
    (rules ++ releaseDoneRules (layout.outlet? passage.exit)) :=
  (enacts.append (sound.enacts_releaseDoneRules (sound.borders way).2)).maintains
    ((steady.append (sound.maintains_releaseDoneRules passage.exit)).and extras)
    (fun grounded => kept grounded.1.orderly grounded.2) congr

/-- After the rules that end the announced release no side is loose. -/
theorem Sound.keeps_of_work : layout.Takes
    (fun panel => (layout.Steady stand none panel ∧ extra panel) ∧ invariant panel)
    (rules ++ releaseDoneRules (layout.outlet? passage.exit))
    (fun panel => (layout.Steady stand none panel ∧ extra panel) ∧ invariant panel) := by
  have worked := Takes.each (sound.maintains_work way steady enacts extras kept congr)
  have finished := (Takes.each steady).append (sound.takes_releaseDoneRules passage.exit)
  intro before after ⟨⟨steadied, holds⟩, kept⟩ runs
  have loosened : layout.Steady stand (some passage.exit) before := steadied.loosen
  obtain ⟨⟨_, holds⟩, kept⟩ := worked before after ⟨⟨loosened, holds⟩, kept⟩ runs
  exact ⟨⟨finished before after loosened runs, holds⟩, kept⟩

end Work

/-- What the deeds of a duty maintain, the duty maintains. -/
theorem Task.keeps (sound : layout.Sound) (task : layout.Task id duty)
    (extras : layout.Maintains extra duty.rules)
    (kept : ∀ {loose before after}, layout.Orderly loose before → extra before →
      invariant before → layout.Deed id before duty.passage after → invariant after)
    (congr : ∀ {panel other : Panel}, panel.Alike other → invariant other → invariant panel) :
    layout.Takes (fun panel => (layout.Steady stand none panel ∧ extra panel) ∧ invariant panel)
      duty.rules
      (fun panel => (layout.Steady stand none panel ∧ extra panel) ∧ invariant panel) := by
  cases task with
  | rest => exact Takes.weaken fun _ holds => holds
  | negotiate serves =>
      rw [Site.handshakeRules_eq] at extras ⊢
      exact sound.keeps_of_work serves.way (serves.maintains_workRules sound)
        (serves.enacts_workRules sound) extras kept congr
  | originate found kind =>
      rw [Straight.signalRouteRules_eq] at extras ⊢
      exact sound.keeps_of_work ⟨_, found, by simp [Piece.passages]⟩
        ((sound.maintains_originRules found kind).append
          (sound.maintains_originReleaseRules found kind))
        ((sound.enacts_originRules found kind).append (sound.enacts_originReleaseRules found kind))
        extras kept congr
  | answer given =>
      exact Takes.each (given.enacts.maintains ((given.steady stand).and extras)
        (fun grounded => kept grounded.1.orderly grounded.2) congr)

end Keeping

end Layout

end Interlocking
