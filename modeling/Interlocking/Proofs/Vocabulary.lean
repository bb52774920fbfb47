import Interlocking.Proofs.Drafts
import Interlocking.Proofs.Duties

/-!
# What the rules of a piece mention

The rules of a piece are made for its passages, its sides and its kind, and they mention only
variables of these and of the pieces joined to them. This is said once and for all, for two
predicates: one that holds of all at which the rules may look, and one that holds of all that
they may write. What addresses the rules need, what belongs to the piece and what two pieces
share are all read off from it.
-/

namespace Interlocking

/-- The conditions look at nothing but variables of which `looks` holds. -/
def Consults (looks : Var → Prop) (conditions : List Condition) : Prop :=
  ∀ var ∈ conditions.filterMap Condition.var?, looks var

/-- The actions write nothing but variables of which `marks` holds. -/
def Alters (marks : Var → Prop) (actions : List Action) : Prop :=
  ∀ var ∈ actions.filterMap Action.var?, marks var

/-- The rules look at nothing but variables of which `looks` holds, and write nothing but
variables of which `marks` holds. -/
def Uses (looks marks : Var → Prop) (rules : List Rule) : Prop :=
  ∀ rule ∈ rules, (∀ var ∈ rule.reads, looks var) ∧ ∀ var ∈ rule.writes, marks var

section Uses

variable {looks marks : Var → Prop} {conditions others : List Condition} {actions more : List Action}
  {rule : Rule} {rules rest : List Rule}

@[simp] theorem consults_nil : Consults looks [] := by simp [Consults]

@[simp] theorem consults_bit {var : Var} {value : Bool} :
    Consults looks (.bit var value :: conditions) ↔ looks var ∧ Consults looks conditions := by
  simp [Consults, Condition.var?]

@[simp] theorem consults_inState {state : State} :
    Consults looks (.inState state :: conditions) ↔ Consults looks conditions := by
  simp [Consults, Condition.var?]

@[simp] theorem consults_timerExpired :
    Consults looks (.timerExpired :: conditions) ↔ Consults looks conditions := by
  simp [Consults, Condition.var?]

@[simp] theorem consults_append : Consults looks (conditions ++ others) ↔
    Consults looks conditions ∧ Consults looks others := by
  simp [Consults, or_imp, forall_and]

@[simp] theorem alters_nil : Alters marks [] := by simp [Alters]

@[simp] theorem alters_set {var : Var} {value : Bool} :
    Alters marks (.set var value :: actions) ↔ marks var ∧ Alters marks actions := by
  simp [Alters, Action.var?]

@[simp] theorem alters_goto {state : State} :
    Alters marks (.goto state :: actions) ↔ Alters marks actions := by
  simp [Alters, Action.var?]

@[simp] theorem alters_loadTimer {cycles : UInt8} :
    Alters marks (.loadTimer cycles :: actions) ↔ Alters marks actions := by
  simp [Alters, Action.var?]

@[simp] theorem alters_append :
    Alters marks (actions ++ more) ↔ Alters marks actions ∧ Alters marks more := by
  simp [Alters, or_imp, forall_and]

@[simp] theorem uses_nil : Uses looks marks [] := by simp [Uses]

@[simp] theorem uses_cons : Uses looks marks (rule :: rules) ↔
    (Consults looks rule.conditions ∧ Alters marks rule.actions) ∧ Uses looks marks rules :=
  List.forall_mem_cons

@[simp] theorem uses_append :
    Uses looks marks (rules ++ rest) ↔ Uses looks marks rules ∧ Uses looks marks rest :=
  List.forall_mem_append

theorem consults_map {α : Type} {bits : List α} {condition : α → Condition}
    (looked : ∀ bit ∈ bits, Consults looks [condition bit]) :
    Consults looks (bits.map condition) := by
  induction bits with
  | nil => simp
  | cons bit bits ih =>
      obtain ⟨first, rest⟩ := List.forall_mem_cons.mp looked
      exact consults_append.mpr ⟨first, ih rest⟩

theorem alters_map {α : Type} {bits : List α} {action : α → Action}
    (marked : ∀ bit ∈ bits, Alters marks [action bit]) : Alters marks (bits.map action) := by
  induction bits with
  | nil => simp
  | cons bit bits ih =>
      obtain ⟨first, rest⟩ := List.forall_mem_cons.mp marked
      exact alters_append.mpr ⟨first, ih rest⟩

theorem uses_map {α : Type} {bits : List α} {make : α → Rule}
    (used : ∀ bit ∈ bits, Uses looks marks [make bit]) : Uses looks marks (bits.map make) := by
  intro rule member
  obtain ⟨bit, listed, rfl⟩ := List.mem_map.mp member
  exact used bit listed _ List.mem_cons_self

theorem Alters.of_mem (alters : Alters marks actions) {action : Action} (listed : action ∈ actions) :
    Alters marks [action] := by
  intro var member
  obtain ⟨_, here, same⟩ := List.mem_filterMap.mp member
  obtain rfl := List.mem_singleton.mp here
  exact alters var (List.mem_filterMap.mpr ⟨_, listed, same⟩)

theorem Uses.of_mem (uses : Uses looks marks rules) (listed : rule ∈ rules) :
    Uses looks marks [rule] :=
  List.forall_mem_singleton.mpr (uses rule listed)

theorem Uses.mono {looks' marks' : Var → Prop} (uses : Uses looks marks rules)
    (looked : ∀ var, looks var → looks' var) (marked : ∀ var, marks var → marks' var) :
    Uses looks' marks' rules :=
  fun rule member => ⟨fun var read => looked var ((uses rule member).1 var read),
    fun var written => marked var ((uses rule member).2 var written)⟩

end Uses

namespace Automaton

variable {automaton : Automaton} {looks marks holds : Var → Prop}

/-- The variables that the rules write. -/
def written (automaton : Automaton) : List Var := automaton.rules.flatMap Rule.writes

/-- The variables that the rules look at or write. -/
def mentioned (automaton : Automaton) : List Var :=
  automaton.rules.flatMap fun rule => rule.reads ++ rule.writes

theorem uses_mentioned (automaton : Automaton) :
    Uses (· ∈ automaton.mentioned) (· ∈ automaton.mentioned) automaton.rules := by
  intro rule member
  constructor
  · intro var read
    exact List.mem_flatMap.mpr ⟨rule, member, List.mem_append_left _ read⟩
  · intro var written
    exact List.mem_flatMap.mpr ⟨rule, member, List.mem_append_right _ written⟩

theorem written_of_uses (uses : Uses looks marks automaton.rules) :
    ∀ var ∈ automaton.written, marks var := by
  intro var member
  obtain ⟨rule, listed, written⟩ := List.mem_flatMap.mp member
  exact (uses rule listed).2 var written

theorem written_subset (automaton : Automaton) : automaton.written ⊆ automaton.mentioned :=
  fun var member => written_of_uses automaton.uses_mentioned var member

theorem mentioned_of_uses (uses : Uses holds holds automaton.rules) :
    ∀ var ∈ automaton.mentioned, holds var := by
  intro var member
  obtain ⟨rule, listed, either⟩ := List.mem_flatMap.mp member
  exact (List.mem_append.mp either).elim ((uses rule listed).1 var) ((uses rule listed).2 var)

end Automaton

/-- The variables that the author of the layout has given to the piece to be written. -/
def Piece.driven (piece : Piece) : List Var :=
  match piece.body with
  | .straight { kind := .signal _ aspect _, .. } => [aspect]
  | .turnout { kind := .movable motor _ _, .. } => [motor.current]
  | _ => []

namespace Piece

theorem driven_subset (piece : Piece) : piece.driven ⊆ piece.supplied := by
  intro var member
  unfold driven at member
  unfold supplied
  split at member
  · simp_all
  · simp_all
  · cases member

end Piece

/-- The site shows the reservation rules what the piece is like. -/
structure Site.Shows (site : Site) (piece : Piece) : Prop where
  passages : site.passages = piece.passages
  occupancy : site.occupancy = piece.occupancy
  seen : piece.seen? = some site.seen
  position : site.position = piece.position?
  unsensed : site.simulated = true → piece.sensed = false

theorem Straight.site_shows (straight : Straight) (name : String) (occupancy : Var) :
    (straight.site occupancy).Shows { name, occupancy, body := .straight straight } where
  passages := rfl
  occupancy := rfl
  seen := rfl
  position := rfl
  unsensed := by
    obtain ⟨⟨seen, ab, ba⟩, kind, a, b⟩ := straight
    cases kind <;> simp [Straight.site, Straight.simulated, Piece.sensed]

theorem Turnout.site_shows (turnout : Turnout) (name : String) (occupancy : Var) :
    (turnout.site occupancy).Shows { name, occupancy, body := .turnout turnout } where
  passages := rfl
  occupancy := rfl
  seen := rfl
  position := by
    obtain ⟨kind, points, closed, thrown, seen, passages⟩ := turnout
    cases kind <;> rfl
  unsensed := fun _ => rfl

namespace Layout

/-- Of what the rules of a piece mention, `looks` holds where they look and `marks` where they
write. -/
structure Vocabulary (layout : Layout) (id : PieceId) (piece : Piece)
    (looks marks : Var → Prop) : Prop where
  supplied : ∀ var ∈ piece.supplied, looks var
  driven : ∀ var ∈ piece.driven, marks var
  own : ∀ entry ∈ piece.roles id, looks entry.2 ∧ marks entry.2
  /-- Through its own sides the piece asks. -/
  sides : ∀ side ∈ piece.sides, ∀ record, layout.side? side = some record →
    (∀ var ∈ record.bits.vars, looks var) ∧ marks record.bits.request ∧
      marks record.bits.released
  /-- At the sides that are joined to its own the piece answers. -/
  facing : ∀ side ∈ piece.sides, ∀ mate, layout.mate? side = some mate →
    ∀ record, layout.side? mate = some record →
    (∀ var ∈ record.bits.vars, looks var) ∧ marks record.bits.granted ∧ marks record.bits.denied
  near : ∀ side ∈ piece.sides, ∀ var, layout.neighbourOccupancy? side = some var → looks var

namespace Vocabulary

variable {layout : Layout} {id : PieceId} {piece : Piece} {looks marks : Var → Prop}
  (words : layout.Vocabulary id piece looks marks)

include words

theorem occupancy : looks piece.occupancy := by
  cases sensed : piece.sensed with
  | true => exact words.supplied _ (piece.occupancy_supplied sensed)
  | false => exact (words.own _ (piece.mem_roles_occupancy id sensed)).1

theorem occupied (unsensed : piece.sensed = false) : marks piece.occupancy :=
  (words.own _ (piece.mem_roles_occupancy id unsensed)).2

theorem seen {var : Var} (known : piece.seen? = some var) : looks var ∧ marks var :=
  words.own (.seen id, var) (by simp [Piece.roles, known])

theorem helper {var : Var} (known : piece.helper? = some var) : looks var ∧ marks var :=
  words.own (.helper id, var) (by simp [Piece.roles, known])

theorem position {var : Var} (known : piece.position? = some var) : looks var ∧ marks var :=
  words.own (.position id, var) (by simp [Piece.roles, known])

theorem anyRoute {var : Var} (known : piece.anyRoute? = some var) : looks var ∧ marks var :=
  words.own (.anyRoute id, var) (by simp [Piece.roles, known])

theorem passage (passage : Passage) (listed : passage ∈ piece.passages) :
    (looks passage.route ∧ looks passage.pending) ∧ marks passage.route ∧ marks passage.pending := by
  have member : ∀ entry ∈ passage.roles, entry ∈ piece.roles id := by
    intro entry own
    simp only [Piece.roles, List.mem_append, List.mem_flatMap]
    exact .inl (.inl (.inr ⟨passage, listed, own⟩))
  have route := words.own _ (member (.route passage, passage.route) (by simp [Passage.roles]))
  have pending := words.own _ (member (.pending passage, passage.pending) (by simp [Passage.roles]))
  exact ⟨⟨route.1, pending.1⟩, route.2, pending.2⟩

theorem inlet {entry : SideId} (own : entry ∈ piece.sides) {inlet : Handshake}
    (found : layout.inlet? entry = some inlet) :
    (∀ var ∈ inlet.vars, looks var) ∧ marks inlet.granted ∧ marks inlet.denied := by
  simp only [inlet?, Option.map_eq_some_iff, Option.bind_eq_bind, Option.bind_eq_some_iff] at found
  obtain ⟨record, ⟨mate, joined, known⟩, rfl⟩ := found
  exact words.facing entry own mate joined record known

theorem outlet {exit : SideId} (own : exit ∈ piece.sides) {outlet : Outlet}
    (found : layout.outlet? exit = some outlet) :
    (∀ var ∈ outlet.bits.vars, looks var) ∧ looks outlet.occupancy ∧
      marks outlet.bits.request ∧ marks outlet.bits.released := by
  simp only [outlet?, Option.bind_eq_bind, Option.bind_eq_some_iff] at found
  obtain ⟨record, known, occupancy, next, same⟩ := found
  obtain rfl := Option.some.inj same
  have bits := words.sides exit own record known
  exact ⟨bits.1, words.near exit own occupancy next, bits.2⟩

section Answers

variable {entry : SideId} (own : entry ∈ piece.sides) {inlet : Handshake}
  (found : layout.inlet? entry = some inlet)

include own found

theorem uses_answerResetRules : Uses looks marks (answerResetRules inlet) := by
  obtain ⟨bits, granted, denied⟩ := words.inlet own found
  simp only [Handshake.vars, List.forall_mem_cons] at bits
  simp [answerResetRules, bits, granted, denied]

theorem uses_deadBranchRules : Uses looks marks (Turnout.deadBranchRules inlet) := by
  have reset := words.uses_answerResetRules own found
  obtain ⟨bits, granted, denied⟩ := words.inlet own found
  simp only [Handshake.vars, List.forall_mem_cons] at bits
  simp [Turnout.deadBranchRules, bits, denied, reset]

theorem uses_endpointRules {record : Side} (known : layout.side? entry = some record) :
    Uses looks marks (endpointRules record.bits inlet) := by
  have reset := words.uses_answerResetRules own found
  have asks := (words.sides entry own record known).1
  obtain ⟨bits, granted, denied⟩ := words.inlet own found
  simp only [Handshake.vars, List.forall_mem_cons] at bits asks
  simp [endpointRules, bits, asks, granted, denied, reset]

end Answers

section Exits

variable {exit : SideId} (own : exit ∈ piece.sides)

include own

theorem uses_releaseDoneRules : Uses looks marks (releaseDoneRules (layout.outlet? exit)) := by
  cases found : layout.outlet? exit with
  | none => simp [releaseDoneRules]
  | some outlet =>
      obtain ⟨bits, _, _, released⟩ := words.outlet own found
      simp only [Handshake.vars, List.forall_mem_cons] at bits
      simp [releaseDoneRules, bits, released]

theorem alters_releaseNotice : Alters marks (releaseNotice (layout.outlet? exit)) := by
  cases found : layout.outlet? exit with
  | none => simp [releaseNotice]
  | some outlet =>
      obtain ⟨_, _, request, released⟩ := words.outlet own found
      simp [releaseNotice, request, released]

end Exits

section Sites

variable {site : Site} (shows : site.Shows piece)

include shows

theorem site_occupancy : looks site.occupancy := shows.occupancy ▸ words.occupancy

theorem site_seen : looks site.seen ∧ marks site.seen := words.seen shows.seen

theorem alters_occupancy (action : Var → Action) (sets : ∀ var, (action var).var? = some var) :
    Alters marks (if site.simulated then [action site.occupancy] else []) := by
  split
  · rename_i simulated
    have marked := words.occupied (shows.unsensed simulated)
    simpa [Alters, sets, shows.occupancy] using marked
  · simp

theorem site_passage {passage : Passage} (listed : passage ∈ site.passages) :
    (looks passage.route ∧ looks passage.pending) ∧ marks passage.route ∧ marks passage.pending :=
  words.passage passage (shows.passages ▸ listed)

theorem uses_clearRules : Uses looks marks site.clearRules := by
  have idle : Consults looks (site.passages.map fun passage => Condition.off passage.route) :=
    consults_map fun passage listed => by simp [words.site_passage shows listed]
  have seen := words.site_seen shows
  have occupancy := words.site_occupancy shows
  rw [Site.clearRules, uses_cons]
  refine ⟨by simp [idle, seen], ?_⟩
  split
  · rename_i simulated
    have marked := words.occupied (shows.unsensed simulated)
    rw [← shows.occupancy] at marked
    simp [idle, occupancy, marked]
  · simp

theorem looks_required {passage : Passage} {var : Var} {value : Bool}
    (required : site.required? passage = some (var, value)) : looks var := by
  simp only [Site.required?, Option.bind_eq_bind, Option.bind_eq_some_iff] at required
  obtain ⟨_, _, known, stands, same⟩ := required
  obtain ⟨rfl, rfl⟩ := Prod.mk.inj (Option.some.inj same)
  exact (words.position (shows.position ▸ stands)).1

theorem looks_demand {index : Nat} {passage : Passage} {var : Var} {value : Bool}
    (demanded : site.demand? index passage = some (var, value)) : looks var := by
  unfold Site.demand? at demanded
  split at demanded
  · cases demanded
  · exact words.looks_required shows demanded

theorem looks_conflicts (index : Nat) : ∀ bit ∈ site.conflicts index, looks bit := by
  intro bit member
  obtain ⟨rival, other, listed⟩ := List.mem_flatMap.mp member
  have bits := (words.site_passage shows (List.mem_of_mem_eraseIdx other)).1
  simp only [List.mem_cons, List.not_mem_nil, or_false] at listed
  rcases listed with rfl | rfl
  · exact bits.1
  · exact bits.2

variable {index : Nat} {passage : Passage} (listed : passage ∈ site.passages)

include listed

theorem alters_releaseActions (own : passage.exit ∈ piece.sides) :
    Alters marks (site.releaseActions passage (layout.outlet? passage.exit)) := by
  rw [Site.releaseActions_eq]
  have seen := words.site_seen shows
  have route := (words.site_passage shows listed).2.1
  have freed := words.alters_occupancy shows Action.clear fun _ => rfl
  simp [route, seen, freed, words.alters_releaseNotice own]

variable (enters : passage.entry ∈ piece.sides) {inlet : Handshake}
  (found : layout.inlet? passage.entry = some inlet)

include enters found

theorem consults_asked : Consults looks (site.asked index passage inlet) := by
  obtain ⟨bits, _, _⟩ := words.inlet enters found
  have own := (words.site_passage shows listed).1
  simp only [Handshake.vars, List.forall_mem_cons] at bits
  rw [Site.asked, consults_append]
  refine ⟨by simp [bits, own], ?_⟩
  unfold Site.selector
  split
  · rename_i required
    simpa using words.looks_required shows required
  · simp

theorem consults_acceptable : Consults looks (site.acceptable index passage inlet) := by
  have asked : Consults looks (site.asked index passage inlet) :=
    words.consults_asked shows listed enters found
  have occupancy := words.site_occupancy shows
  have idle : Consults looks ((site.conflicts index).map Condition.off) :=
    consults_map fun bit conflicting => by simp [words.looks_conflicts shows index bit conflicting]
  rw [Site.acceptable, consults_append, consults_append, consults_append]
  refine ⟨⟨⟨asked, by simpa using occupancy⟩, idle⟩, ?_⟩
  split
  · rename_i demanded
    simpa using words.looks_demand shows demanded
  · simp

theorem uses_denyRules : Uses looks marks (site.denyRules index passage inlet) := by
  have asked : Consults looks (site.asked index passage inlet) :=
    words.consults_asked shows listed enters found
  have denied := (words.inlet enters found).2.2
  have occupancy := words.site_occupancy shows
  rw [Site.denyRules, uses_cons, uses_append]
  refine ⟨by simp [asked, denied, occupancy], ?_, ?_⟩
  · apply uses_map
    intro bit conflicting
    simp [asked, denied, words.looks_conflicts shows index bit conflicting]
  · split
    · rename_i demanded
      have reason := words.looks_demand shows demanded
      simp [asked, denied, reason]
    · simp

variable (leaves : passage.exit ∈ piece.sides)

include leaves

theorem uses_acceptRules : Uses looks marks
    (site.acceptRules index passage inlet (layout.outlet? passage.exit)) := by
  have acceptable : Consults looks (site.acceptable index passage inlet) :=
    words.consults_acceptable shows listed enters found
  obtain ⟨_, granted, denied⟩ := words.inlet enters found
  obtain ⟨⟨_, pending⟩, setsRoute, setsPending⟩ := words.site_passage shows listed
  cases known : layout.outlet? passage.exit with
  | none => simp [Site.acceptRules, acceptable, setsRoute, granted]
  | some outlet =>
      obtain ⟨bits, _, request, _⟩ := words.outlet leaves known
      simp only [Handshake.vars, List.forall_mem_cons] at bits
      simp [Site.acceptRules, acceptable, pending, setsRoute, setsPending, granted, denied, bits,
        request]

theorem uses_handshakeRules : Uses looks marks
    (site.handshakeRules index passage inlet (layout.outlet? passage.exit)) := by
  have released := words.alters_releaseActions shows listed leaves
  have route := (words.site_passage shows listed).1.1
  have seen := (words.site_seen shows).1
  have occupancy := words.site_occupancy shows
  simp only [Site.handshakeRules, uses_append]
  refine ⟨⟨⟨⟨⟨?_, ?_⟩, ?_⟩, ?_⟩, ?_⟩, words.uses_releaseDoneRules leaves⟩
  · exact words.uses_denyRules shows listed enters found
  · exact words.uses_acceptRules shows listed enters found leaves
  · exact words.uses_answerResetRules enters found
  · unfold Site.passedRules
    split
    · split
      · rename_i bits next known
        have near := (words.outlet leaves known).2.1
        simp [route, seen, near, released]
      · simp
    · simp [route, seen, occupancy, released]
  · obtain ⟨bits, _, _⟩ := words.inlet enters found
    simp only [Handshake.vars, List.forall_mem_cons] at bits
    simp [Site.withdrawnRule, route, seen, occupancy, bits, released]

end Sites

section Automata

variable (shaped : piece.Shaped)

include shaped

theorem uses_tracking_site {site : Site} (shows : site.Shows piece) :
    Uses looks marks (site.seenRules layout ++ site.clearRules) := by
  refine uses_append.mpr ⟨?_, words.uses_clearRules shows⟩
  have seen := words.site_seen shows
  have noticed := words.alters_occupancy shows Action.raise fun _ => rfl
  intro rule member
  obtain ⟨passage, listed, made⟩ := List.mem_filterMap.mp member
  obtain ⟨next, known, rfl⟩ := Option.map_eq_some_iff.mp made
  have leaves := (shaped.leads (shows.passages ▸ listed)).2.1
  have near := words.near _ leaves next known
  have route := (words.site_passage shows listed).1.1
  have used : Uses looks marks [{
      conditions := [.on passage.route, .on next, .off site.seen]
      actions := .raise site.seen ::
        (if site.simulated then [.raise site.occupancy] else []) }] := by
    simp [route, near, seen, noticed]
  exact used _ List.mem_cons_self

theorem uses_passageRules {site : Site} (shows : site.Shows piece) (index : Nat) :
    Uses looks marks (site.passageRules layout index) := by
  unfold Site.passageRules
  cases placed : site.passages[index]? with
  | none => simp
  | some passage =>
      have listed := List.mem_of_getElem? placed
      obtain ⟨enters, leaves, _⟩ := shaped.leads (shows.passages ▸ listed)
      simp only
      cases found : layout.inlet? passage.entry with
      | none => simp
      | some inlet => exact words.uses_handshakeRules shows listed enters found leaves

theorem uses_duties_site {site : Site} (shows : site.Shows piece) :
    Uses looks marks ((site.duties layout).flatMap Duty.rules) := by
  intro rule member
  obtain ⟨duty, listed, member⟩ := List.mem_flatMap.mp member
  obtain ⟨⟨passage, index⟩, _, rfl⟩ := List.mem_map.mp listed
  exact words.uses_passageRules shaped shows index rule member

end Automata

end Vocabulary

section Signals

variable {layout : Layout} {id : PieceId} {looks marks : Var → Prop} {name : String}
  {occupancy request aspect used : Var} {straight : Straight}
  (words : layout.Vocabulary id { name, occupancy, body := .straight straight } looks marks)

include words

theorem Vocabulary.uses_terminusRules
    (shaped : Piece.Shaped { name, occupancy, body := .straight straight }) {inlet : Handshake}
    (found : layout.inlet? straight.ab.entry = some inlet) :
    Uses looks marks (straight.terminusRules inlet) := by
  have enters : straight.ab.entry ∈ Piece.sides { name, occupancy, body := .straight straight } :=
    (shaped.leads (by simp [Piece.passages])).1
  have reset := words.uses_answerResetRules enters found
  obtain ⟨bits, granted, denied⟩ := words.inlet enters found
  have back := (words.passage straight.ba (by simp [Piece.passages])).1
  simp only [Handshake.vars, List.forall_mem_cons] at bits
  simp [Lane.terminusRules, bits, granted, denied, back, reset]

variable (kind : straight.kind = .signal request aspect used)

include kind

theorem Vocabulary.signal : looks request ∧ looks aspect ∧ looks used ∧ marks aspect ∧ marks used := by
  obtain ⟨⟨seen, ab, ba⟩, _, a, b⟩ := straight
  subst kind
  have supplied := words.supplied
  simp only [Piece.supplied, List.forall_mem_cons] at supplied
  have driven := words.driven aspect (by simp [Piece.driven])
  have helper := words.helper rfl
  exact ⟨supplied.1, supplied.2.1, helper.1, driven, helper.2⟩

theorem Vocabulary.uses_aspectRules : Uses looks marks
    (straight.aspectRules request aspect (layout.neighbourOccupancy? straight.b)) := by
  obtain ⟨requests, shown, _, shows, _⟩ := words.signal kind
  have route := (words.passage straight.ab (by simp [Piece.passages])).1.1
  have own : straight.b ∈ Piece.sides { name, occupancy, body := .straight straight } := by
    simp [Piece.sides]
  cases known : layout.neighbourOccupancy? straight.b with
  | none => simp [Lane.aspectRules, requests, shown, shows, route]
  | some next =>
      have near := words.near _ own next known
      simp [Lane.aspectRules, requests, shown, shows, route, near]

theorem Vocabulary.uses_signalRouteRules
    (shaped : Piece.Shaped { name, occupancy, body := .straight straight }) : Uses looks marks
    (straight.signalRouteRules occupancy request used (layout.outlet? straight.ab.exit)) := by
  have leaves : straight.ab.exit ∈ Piece.sides { name, occupancy, body := .straight straight } :=
    (shaped.leads (by simp [Piece.passages])).2.1
  obtain ⟨requests, _, uses, _, setsUsed⟩ := words.signal kind
  obtain ⟨⟨route, pending⟩, setsRoute, setsPending⟩ :=
    words.passage straight.ab (by simp [Piece.passages])
  have back := (words.passage straight.ba (by simp [Piece.passages])).1
  have seen := words.seen rfl
  have occupied : looks occupancy := words.occupancy
  have released : Alters marks (straight.originRelease (layout.outlet? straight.ab.exit)) := by
    rw [Straight.originRelease_eq]
    simp [setsRoute, seen, words.alters_releaseNotice leaves]
  have allowed : Consults looks (straight.originAllowed request used) := by
    simp [Lane.originAllowed, requests, uses, route, pending, back]
  simp only [Lane.signalRouteRules, uses_append]
  refine ⟨⟨?_, ?_⟩, words.uses_releaseDoneRules leaves⟩
  · cases known : layout.outlet? straight.ab.exit with
    | none => simp [Lane.originRules, allowed, setsRoute]
    | some outlet =>
        obtain ⟨bits, _, asks, _⟩ := words.outlet leaves known
        simp only [Handshake.vars, List.forall_mem_cons] at bits
        simp [Lane.originRules, allowed, bits, asks, pending, setsRoute, setsPending]
  · simp [route, seen, occupied, requests, uses, setsUsed, released]

end Signals

theorem Vocabulary.uses_motor {layout : Layout} {id : PieceId} {looks marks : Var → Prop}
    {name : String} {occupancy position anyRoute : Var} {turnout : Turnout} {motor : Motor}
    (words : layout.Vocabulary id { name, occupancy, body := .turnout turnout } looks marks)
    (kind : turnout.kind = .movable motor position anyRoute) : Uses looks marks
      (Turnout.anyRouteRules turnout.passages anyRoute ++
        Turnout.motorRules motor position anyRoute) := by
  have held : ∀ bit ∈ Turnout.held turnout.passages, looks bit := by
    simp only [Turnout.held, List.forall_mem_append, List.forall_mem_map]
    exact ⟨fun passage own => (words.passage passage own).1.1,
      fun passage own => (words.passage passage own).1.2⟩
  obtain ⟨_, points, closed, thrown, seen, passages⟩ := turnout
  subst kind
  have supplied := words.supplied
  simp only [Piece.supplied, List.forall_mem_cons] at supplied
  have drives := words.driven motor.current (by simp [Piece.driven])
  have stands := words.position rfl
  have counts := words.anyRoute rfl
  refine uses_append.mpr ⟨uses_append.mpr ⟨?_, ?_⟩, ?_⟩
  · apply uses_map
    intro bit own
    simp [held bit own, counts]
  · have idle : Consults looks ((Turnout.held passages).map Condition.off) :=
      consults_map fun bit own => by simp [held bit own]
    simp [idle, counts]
  · simp [Turnout.motorRules, supplied, drives, stands, counts]

section Automata

variable {layout : Layout} {id : PieceId} {piece : Piece} {looks marks : Var → Prop}
  (words : layout.Vocabulary id piece looks marks)

include words

theorem Vocabulary.uses_summary : Uses looks marks (piece.summary layout) := by
  refine uses_append.mpr ⟨?_, by simp [RuleBook.startRule]⟩
  obtain ⟨name, occupancy, body⟩ := piece
  cases body with
  | straight straight =>
      cases kind : straight.kind with
      | short | long | detector | filtered => simp [kind]
      | signal request aspect used => simpa [kind] using words.uses_aspectRules kind
  | turnout turnout =>
      cases kind : turnout.kind with
      | fixed position => simp [kind]
      | movable motor position anyRoute => simpa [kind] using words.uses_motor kind
  | endpoint side => simp

variable (shaped : piece.Shaped)

include shaped

theorem Vocabulary.uses_tracking : Uses looks marks (piece.tracking layout) := by
  obtain ⟨name, occupancy, body⟩ := piece
  cases body with
  | straight straight =>
      refine uses_append.mpr ⟨?_, words.uses_tracking_site shaped (straight.site_shows name occupancy)⟩
      obtain ⟨⟨seen, ab, ba⟩, kind, a, b⟩ := straight
      cases kind with
      | short | long | detector => simp
      | filtered raw window shadow =>
          have raws := words.supplied raw (by simp [Piece.supplied])
          have shadows := words.helper rfl
          have looked : looks occupancy := words.occupancy
          have marked : marks occupancy := words.occupied rfl
          simp [filterRules, raws, shadows, looked, marked]
      | signal request aspect used =>
          cases known : layout.neighbourOccupancy? a with
          | none => simp
          | some approaching =>
              have near := words.near a (by simp [Piece.sides]) approaching known
              have looked : looks occupancy := words.occupancy
              have marked : marks occupancy := words.occupied rfl
              simp [copyRules, near, looked, marked]
  | turnout turnout => exact words.uses_tracking_site shaped (turnout.site_shows name occupancy)
  | endpoint side => simp [Piece.tracking]

theorem Vocabulary.uses_duties : Uses looks marks ((piece.duties layout).flatMap Duty.rules) := by
  obtain ⟨name, occupancy, body⟩ := piece
  cases body with
  | straight straight =>
      have shows := straight.site_shows name occupancy
      have track := words.uses_duties_site shaped shows
      cases kind : straight.kind with
      | short | long | detector | filtered => simpa [Piece.duties, kind] using track
      | signal request aspect used =>
          have back := words.uses_passageRules shaped shows 1
          have out := words.uses_signalRouteRules kind shaped
          have terminus : Uses looks marks
              ((layout.inlet? straight.ab.entry).elim [] straight.terminusRules) := by
            cases found : layout.inlet? straight.ab.entry with
            | none => simp
            | some inlet => exact words.uses_terminusRules shaped found
          simp [Piece.duties, kind, terminus, out, back]
  | turnout turnout =>
      have track := words.uses_duties_site shaped (turnout.site_shows name occupancy)
      cases kind : turnout.kind with
      | movable motor position anyRoute => simpa [Piece.duties, kind] using track
      | fixed position =>
          have own : turnout.deadSide position ∈
              Piece.sides { name, occupancy, body := .turnout turnout } := by
            cases position <;> simp [Piece.sides, Turnout.sides, Turnout.deadSide]
          have dead : Uses looks marks
              ((layout.inlet? (turnout.deadSide position)).elim [] Turnout.deadBranchRules) := by
            cases found : layout.inlet? (turnout.deadSide position) with
            | none => simp
            | some inlet => exact words.uses_deadBranchRules own found
          simp [Piece.duties, kind, dead, track]
  | endpoint side =>
      have own : side ∈ Piece.sides { name, occupancy, body := .endpoint side } := by
        simp [Piece.sides]
      simp only [Piece.duties, List.flatMap_singleton]
      split
      · rename_i record inlet known found
        exact words.uses_endpointRules own found known
      · simp

/-- The automaton of a piece mentions nothing but its vocabulary. -/
theorem Vocabulary.uses_automaton : Uses looks marks (piece.automaton layout).rules := by
  rw [piece.rules_automaton]
  exact uses_append.mpr ⟨uses_append.mpr ⟨words.uses_tracking shaped, words.uses_duties shaped⟩,
    words.uses_summary⟩

end Automata

end Layout

end Interlocking
