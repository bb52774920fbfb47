import Interlocking.Proofs.Reservation
import Interlocking.Reservation.Passage

/-!
# The rules of a passage follow the protocol

Each rule by which a piece reserves a passage is a shift of the protocol, or two of them
in a row, apart from bits with which the protocol is not concerned.
-/

namespace Interlocking

open Function (update)

/-- What tells the neighbour at an exit that a route was given up. -/
def releaseNotice : Option Outlet → List Action
  | some outlet => [.clear outlet.bits.request, .raise outlet.bits.released]
  | none => []

theorem Site.releaseActions_eq (site : Site) (passage : Passage) (outlet : Option Outlet) :
    site.releaseActions passage outlet = ([Action.clear passage.route, .clear site.seen] ++
      if site.simulated then [Action.clear site.occupancy] else []) ++ releaseNotice outlet := by
  cases outlet <;> rfl

/-- The rules of a passage without the last, which ends the announced release. -/
def Site.workRules (site : Site) (index : Nat) (passage : Passage) (inlet : Handshake)
    (outlet : Option Outlet) : List Rule :=
  site.denyRules index passage inlet ++ site.acceptRules index passage inlet outlet ++
    answerResetRules inlet ++
    (site.passedRules passage outlet ++ [site.withdrawnRule passage inlet outlet])

theorem Site.handshakeRules_eq (site : Site) (index : Nat) (passage : Passage) (inlet : Handshake)
    (outlet : Option Outlet) : site.handshakeRules index passage inlet outlet =
      site.workRules index passage inlet outlet ++ releaseDoneRules outlet := by
  simp [Site.handshakeRules, Site.workRules]

section Seen

variable (site : Site) (passage : Passage) (next : Var)

@[simp]
theorem Site.conditions_seenRule : (site.seenRule passage next).conditions =
    [.on passage.route, .on next, .off site.seen] := rfl

@[simp]
theorem Site.actions_seenRule : (site.seenRule passage next).actions =
    .raise site.seen :: (if site.simulated then [.raise site.occupancy] else []) := rfl

end Seen

/-- All refusals have one form: they differ in the reason. -/
theorem Site.mem_denyRules {site : Site} {index : Nat} {passage : Passage} {inlet : Handshake}
    {rule : Rule} (member : rule ∈ site.denyRules index passage inlet) : ∃ var value, rule =
      { conditions := site.asked index passage inlet ++ [.bit var value]
        actions := [.raise inlet.denied] } := by
  simp only [Site.denyRules, List.mem_cons, List.mem_append, List.mem_map] at member
  rcases member with rfl | ⟨bit, _, rfl⟩ | member
  · exact ⟨_, _, rfl⟩
  · exact ⟨_, _, rfl⟩
  · split at member
    · exact ⟨_, _, List.mem_singleton.mp member⟩
    · cases member

/-- The rules that give a route up after the train has passed have one form: they differ in what
the train has left. -/
theorem Site.mem_passedRules {site : Site} {passage : Passage} {outlet : Option Outlet} {rule : Rule}
    (member : rule ∈ site.passedRules passage outlet) : ∃ freed, rule =
      { conditions := [.on passage.route, .on site.seen, .off freed]
        actions := site.releaseActions passage outlet } := by
  simp only [Site.passedRules] at member
  split at member
  · split at member
    · exact ⟨_, List.mem_singleton.mp member⟩
    · cases member
  · exact ⟨_, List.mem_singleton.mp member⟩

/-- Whether the occupancy is concluded from the next piece, because the piece has no sensor and
is no signal. -/
def Piece.simulated (piece : Piece) : Bool :=
  match piece.body with
  | .straight { kind := .short, .. } => true
  | .straight { kind := .long, .. } => true
  | .turnout _ => true
  | _ => false

namespace Layout

variable {layout : Layout} {stand : PieceId → Bool} {loose : Option SideId}

/-- The bits are those of the side. -/
structure Wired (layout : Layout) (bits : Handshake) (side : SideId) : Prop where
  request : layout.role bits.request = .request side
  granted : layout.role bits.granted = .granted side
  denied : layout.role bits.denied = .denied side
  released : layout.role bits.released = .released side

/-- What the site tells of a piece is what the piece is like. -/
structure Describes (layout : Layout) (id : PieceId) (piece : Piece) (site : Site) : Prop where
  passages : site.passages = piece.passages
  position : site.position = piece.position?
  seen : layout.role site.seen = .seen id
  occupancy : site.occupancy = piece.occupancy
  simulated : site.simulated = piece.simulated
  /-- The protocol is not about the occupancy. -/
  apart : (layout.role site.occupancy).inProtocol = false

theorem Describes.seen_apart {id : PieceId} {piece : Piece} {site : Site}
    (describes : layout.Describes id piece site) :
    (layout.role site.seen).inProtocol = false := by
  rw [describes.seen]
  rfl

section Wiring

variable (sound : layout.Sound)

include sound

omit sound in
theorem mem_roles_side {side : SideId} {record : Side} (found : layout.side? side = some record)
    {entry : Role × Var} (member : entry ∈ record.bits.roles side) : entry ∈ layout.roles :=
  mem_roles.mpr (.inl ⟨side, record, found, member⟩)

omit sound in
theorem mem_roles_piece {id : PieceId} {piece : Piece} (found : layout.piece? id = some piece)
    {entry : Role × Var} (member : entry ∈ piece.roles id) : entry ∈ layout.roles :=
  mem_roles.mpr (.inr ⟨id, piece, found, member⟩)

omit sound in
theorem Way.mem_roles {id : PieceId} {passage : Passage} (way : layout.Way id passage) :
    (.route passage, passage.route) ∈ layout.roles ∧
      (.pending passage, passage.pending) ∈ layout.roles := by
  obtain ⟨piece, found, member⟩ := way
  have listed : ∀ entry ∈ passage.roles, entry ∈ piece.roles id := by
    intro entry own
    simp only [Piece.roles, List.mem_append, List.mem_flatMap]
    exact .inl (.inl (.inr ⟨passage, member, own⟩))
  constructor
  · exact mem_roles_piece found (listed _ (by simp [Passage.roles]))
  · exact mem_roles_piece found (listed _ (by simp [Passage.roles]))

omit sound in
theorem mem_roles_position {id : PieceId} {piece : Piece} (found : layout.piece? id = some piece)
    {var : Var} (known : piece.position? = some var) : (.position id, var) ∈ layout.roles :=
  mem_roles_piece found (by simp [Piece.roles, known])

theorem Sound.role_eq {role : Role} {var : Var} (member : (role, var) ∈ layout.roles) :
    layout.role var = role :=
  role_of_mem sound.distinct member

theorem Sound.wired {side : SideId} {record : Side} (found : layout.side? side = some record) :
    layout.Wired record.bits side := by
  have known : ∀ entry ∈ record.bits.roles side, layout.role entry.2 = entry.1 :=
    fun entry member => sound.role_eq (mem_roles_side found member)
  simp only [Handshake.roles, List.forall_mem_cons] at known
  exact ⟨known.1, known.2.1, known.2.2.1, known.2.2.2.1⟩

theorem Sound.role_route {id : PieceId} {passage : Passage} (way : layout.Way id passage) :
    layout.role passage.route = .route passage :=
  sound.role_eq way.mem_roles.1

theorem Sound.role_pending {id : PieceId} {passage : Passage} (way : layout.Way id passage) :
    layout.role passage.pending = .pending passage :=
  sound.role_eq way.mem_roles.2

theorem Sound.role_position {id : PieceId} {piece : Piece} (found : layout.piece? id = some piece)
    {var : Var} (known : piece.position? = some var) : layout.role var = .position id :=
  sound.role_eq (mem_roles_position found known)

theorem Sound.role_seen {id : PieceId} {piece : Piece} (found : layout.piece? id = some piece)
    {var : Var} (known : piece.seen? = some var) : layout.role var = .seen id :=
  sound.role_eq (mem_roles_piece found (by simp [Piece.roles, known]))

theorem Sound.role_helper {id : PieceId} {piece : Piece} (found : layout.piece? id = some piece)
    {var : Var} (known : piece.helper? = some var) : layout.role var = .helper id :=
  sound.role_eq (mem_roles_piece found (by simp [Piece.roles, known]))

theorem Sound.role_anyRoute {id : PieceId} {piece : Piece} (found : layout.piece? id = some piece)
    {var : Var} (known : piece.anyRoute? = some var) : layout.role var = .anyRoute id :=
  sound.role_eq (mem_roles_piece found (by simp [Piece.roles, known]))

theorem Sound.role_occupancy {id : PieceId} {piece : Piece}
    (found : layout.piece? id = some piece) (unsensed : piece.sensed = false) :
    layout.role piece.occupancy = .occupancy id :=
  sound.role_eq (mem_roles_piece found (piece.mem_roles_occupancy id unsensed))

/-- The occupancy bit of a piece is its own or an outside one. -/
theorem Sound.occupancy_aside {id : PieceId} {piece : Piece}
    (found : layout.piece? id = some piece) :
    (layout.role piece.occupancy).inProtocol = false := by
  cases sensed : piece.sensed with
  | true =>
      rw [role_of_outside (sound.supplied found _ (piece.occupancy_supplied sensed))]
      rfl
  | false =>
      rw [sound.role_occupancy found sensed]
      rfl

/-- The neighbour at an entry asks with the bits of its own side. -/
theorem Sound.inlet {entry : SideId} {inlet : Handshake}
    (found : layout.inlet? entry = some inlet) :
    ∃ asker, layout.mate? entry = some asker ∧ layout.Wired inlet asker := by
  simp only [inlet?, Option.map_eq_some_iff, Option.bind_eq_bind, Option.bind_eq_some_iff] at found
  obtain ⟨record, ⟨asker, joined, known⟩, rfl⟩ := found
  exact ⟨asker, joined, sound.wired known⟩

/-- A piece asks through an exit with the bits of the exit. -/
theorem Sound.outlet {exit : SideId} {outlet : Outlet} (found : layout.outlet? exit = some outlet) :
    layout.Wired outlet.bits exit := by
  simp only [outlet?, Option.bind_eq_bind, Option.bind_eq_some_iff] at found
  obtain ⟨record, known, occupancy, _, same⟩ := found
  obtain rfl := Option.some.inj same
  exact sound.wired known

/-- An exit without an outlet is not joined to anything. -/
theorem Sound.mate_of_no_outlet {exit : SideId} (absent : layout.outlet? exit = none) :
    layout.mate? exit = none := by
  by_contra joined
  obtain ⟨mate, joined⟩ := Option.ne_none_iff_exists'.mp joined
  have back := sound.paired joined
  obtain ⟨record, known, _⟩ := Option.bind_eq_some_iff.mp joined
  obtain ⟨other, found, _⟩ := Option.bind_eq_some_iff.mp back
  obtain ⟨piece, owner, _⟩ := sound.owned found
  simp [outlet?, neighbourOccupancy?, owner?, known, joined, found, owner] at absent

end Wiring

/-- The rules of a passage are at work on behalf of the neighbour at its entry. -/
structure Serves (layout : Layout) (id : PieceId) (piece : Piece) (site : Site) (index : Nat)
    (passage : Passage) (inlet : Handshake) (asker : SideId) : Prop where
  found : layout.piece? id = some piece
  describes : layout.Describes id piece site
  placed : site.passages[index]? = some passage
  asked : passage ∈ piece.asked
  joined : layout.mate? passage.entry = some asker
  wired : layout.Wired inlet asker

namespace Serves

variable {id : PieceId} {piece : Piece} {site : Site} {index : Nat} {passage rival : Passage}
  {inlet : Handshake} {asker : SideId} {panel : Panel}
  (serves : layout.Serves id piece site index passage inlet asker)

include serves

theorem member : passage ∈ piece.passages :=
  serves.describes.passages ▸ List.mem_of_getElem? serves.placed

theorem way : layout.Way id passage := ⟨piece, serves.found, serves.member⟩

theorem isAsked : layout.Asked passage := ⟨id, piece, serves.found, serves.asked⟩

theorem mem_rivals (member : rival ∈ piece.passages) (differs : rival ≠ passage) :
    rival ∈ site.rivals index := by
  rw [← serves.describes.passages] at member
  obtain ⟨place, found⟩ := List.mem_iff_getElem?.mp member
  apply List.mem_eraseIdx_iff_getElem?.mpr
  refine ⟨place, ?_, found⟩
  intro same
  subst same
  rw [serves.placed] at found
  exact differs (Option.some.inj found).symm

variable (sound : layout.Sound)

include sound

/-- A turnout can be asked for the position that a passage needs. -/
theorem required {position : Position} (needed : passage.position = some position) :
    ∃ var, layout.role var = .position id ∧
      site.required? passage = some (var, position.bit) := by
  obtain ⟨var, known⟩ := (sound.shaped serves.found).positioned serves.member needed
  refine ⟨var, sound.role_position serves.found known, ?_⟩
  simp [Site.required?, needed, serves.describes.position, known]

/-- What is known when a request for the passage was not dealt with yet. -/
theorem sees_asked
    (sees : ∀ condition ∈ site.asked index passage inlet, layout.Sees panel condition) :
    panel (.granted asker) = false ∧ panel (.denied asker) = false ∧ ¬panel.Held passage ∧
      (site.sharesEntry index passage = true → Fits panel id passage) := by
  simp only [Site.asked, List.forall_mem_append, List.forall_mem_cons, Sees, serves.wired.request,
    serves.wired.granted, serves.wired.denied, sound.role_pending serves.way,
    sound.role_route serves.way] at sees
  obtain ⟨⟨_, ungranted, undenied, unpending, unreserved, _⟩, selected⟩ := sees
  refine ⟨ungranted, undenied, by simp [Panel.Held, unpending, unreserved], ?_⟩
  intro shares position needed
  obtain ⟨var, role, required⟩ := serves.required sound needed
  simp only [Site.selector, shares, required, List.forall_mem_singleton, role] at selected
  exact selected

/-- No passage from the same entry is pending: the passage itself is not, and another one
would need the turnout to stand differently. -/
theorem idle (exclusive : layout.Exclusive panel)
    (sees : ∀ condition ∈ site.asked index passage inlet, layout.Sees panel condition) :
    ∀ other, layout.Asked other → other.entry = passage.entry →
      panel (.pending other) = false := by
  intro other asked entries
  obtain ⟨_, _, unheld, selected⟩ := serves.sees_asked sound sees
  obtain ⟨place, against⟩ := asked.way
  obtain rfl := (sound.borders against).1.unique (entries ▸ (sound.borders serves.way).1)
  by_contra pending
  have held : panel.Held other := .inr (by simpa using pending)
  have differs : other ≠ passage := by
    intro same
    exact unheld (same ▸ held)
  obtain ⟨piece', found', listed⟩ := against
  obtain rfl := Option.some.inj (serves.found.symm.trans found')
  obtain ⟨wanted, needed, wants, needs, positions⟩ :=
    (sound.shaped serves.found).selects listed serves.member entries differs
  have shares : site.sharesEntry index passage = true := by
    apply List.any_eq_true.mpr
    exact ⟨other, serves.mem_rivals listed differs, by simp [entries]⟩
  have stands := exclusive.aligned ⟨_, serves.found, listed⟩ held wanted wants
  rw [selected shares needed needs] at stands
  cases wanted <;> cases needed <;> simp_all [Position.bit]

/-- What is known when a request for the passage can be accepted. -/
theorem sees_acceptable
    (sees : ∀ condition ∈ site.acceptable index passage inlet, layout.Sees panel condition) :
    panel (.granted asker) = false ∧ panel (.denied asker) = false ∧ layout.Free panel id ∧
      Fits panel id passage := by
  simp only [Site.acceptable, List.forall_mem_append, List.forall_mem_map] at sees
  obtain ⟨⟨⟨asked, _⟩, unopposed⟩, demanded⟩ := sees
  obtain ⟨ungranted, undenied, unheld, selected⟩ := serves.sees_asked sound asked
  refine ⟨ungranted, undenied, ?_, ?_⟩
  · intro other ⟨piece', found', listed⟩
    obtain rfl := Option.some.inj (serves.found.symm.trans found')
    by_cases same : other = passage
    · exact same ▸ unheld
    · have against : layout.Way id other := ⟨piece, serves.found, listed⟩
      have rival := serves.mem_rivals listed same
      have unreserved := unopposed other.route
        (List.mem_flatMap.mpr ⟨other, rival, by simp⟩)
      have unpending := unopposed other.pending
        (List.mem_flatMap.mpr ⟨other, rival, by simp⟩)
      simp only [Sees, sound.role_route against] at unreserved
      simp only [Sees, sound.role_pending against] at unpending
      simp [Panel.Held, unreserved, unpending]
  · intro position needed
    obtain ⟨var, role, required⟩ := serves.required sound needed
    by_cases shares : site.sharesEntry index passage = true
    · exact selected shares position needed
    · simp only [Site.demand?, shares, Bool.false_eq_true, if_false, required,
        List.forall_mem_singleton, Sees, role] at demanded
      exact demanded

/-- Refusals follow the protocol. -/
theorem maintains_denyRules : layout.Maintains (layout.Steady stand loose)
    (site.denyRules index passage inlet) := by
  intro rule member panel steady sees
  obtain ⟨var, value, rfl⟩ := Site.mem_denyRules member
  have asked := (List.forall_mem_append.mp sees).1
  apply steady.shift sound
  simp only [carry, List.foldl_cons, List.foldl_nil, act, serves.wired.denied]
  exact .refuse serves.joined (serves.sees_asked sound asked).1
    (serves.idle sound steady.orderly.exclusive asked)

/-- Once the passage is reserved, the neighbour that has asked can be told. -/
theorem concede (exclusive : layout.Exclusive panel)
    (working : loose = some passage.exit) (reserved : panel (.route passage) = true)
    (undenied : panel (.denied asker) = false) :
    layout.Shift loose panel (update panel (.granted asker) true) := by
  have held : panel.Held passage := .inl reserved
  have unpending := exclusive.settled serves.way reserved
  apply Shift.concede serves.joined undenied
  · intro other asked entries
    by_contra pending
    obtain ⟨place, against⟩ := asked.way
    obtain rfl := (sound.borders against).1.unique (entries ▸ (sound.borders serves.way).1)
    have same := exclusive.alone against serves.way (.inr (by simpa using pending)) held
    rw [same] at pending
    exact pending unpending
  · intro place other against exits used
    obtain rfl := (sound.borders against).2.unique (exits ▸ (sound.borders serves.way).1)
    obtain rfl := exclusive.alone against serves.way used held
    exact ((sound.shaped serves.found).leads serves.member).2.2 exits.symm
  · intro place other against exits same
    by_contra pending
    have exits : other.exit = passage.exit := by
      rw [exits]
      exact Option.some.inj (same.symm.trans working)
    have same := exclusive.sole_at_exit sound serves.way held against exits
      (.inr (by simpa using pending))
    rw [same] at pending
    exact pending unpending

/-- Once the passage is given up, the neighbour that has asked can be told. -/
theorem refuse (exclusive : layout.Exclusive panel) (pending : panel (.pending passage) = true)
    {after : Panel} (touches : Touches passage panel after)
    (abandoned : after (.pending passage) = false) (ungranted : after (.granted asker) = false) :
    layout.Shift loose after (update after (.denied asker) true) := by
  apply Shift.refuse serves.joined ungranted
  intro other asked entries
  obtain ⟨place, against⟩ := asked.way
  obtain rfl := (sound.borders against).1.unique (entries ▸ (sound.borders serves.way).1)
  by_cases same : other = passage
  · exact same ▸ abandoned
  · by_contra expected
    rw [touches.pending other same] at expected
    have held : panel.Held other := .inr (by simpa using expected)
    exact same (exclusive.alone against serves.way held (.inr pending))

/-- Acceptance follows the protocol, and so does what is made of the answer. -/
theorem maintains_acceptRules : layout.Maintains (layout.Steady stand (some passage.exit))
    (site.acceptRules index passage inlet (layout.outlet? passage.exit)) := by
  cases known : layout.outlet? passage.exit with
  | none =>
      intro rule member panel steady sees
      obtain rfl := List.mem_singleton.mp member
      obtain ⟨ungranted, undenied, free, fits⟩ := serves.sees_acceptable sound sees
      have arrived := steady.shift sound
        (.arrive serves.way (sound.mate_of_no_outlet known) free fits)
      have told := serves.concede sound arrived.orderly.exclusive rfl (by simp)
        (by simpa using undenied)
      simp only [carry, List.foldl_cons, List.foldl_nil, act, serves.wired.granted,
        sound.role_route serves.way]
      exact arrived.shift sound told
  | some outlet =>
      obtain ⟨out, occupancy⟩ := outlet
      have wired := sound.outlet known
      simp only at wired
      simp only [Maintains, Site.acceptRules, List.forall_mem_cons]
      -- The three rules: ask the neighbour, take its grant over, take its refusal over.
      refine ⟨?_, ?_, ?_, by simp⟩
      · intro panel steady sees
        obtain ⟨acceptable, sees⟩ := List.forall_mem_append.mp sees
        obtain ⟨ungranted, undenied, free, fits⟩ := serves.sees_acceptable sound acceptable
        simp only [List.forall_mem_cons, Sees, wired.granted] at sees
        simp only [carry, List.foldl_cons, List.foldl_nil, act, wired.request,
          sound.role_pending serves.way]
        apply steady.shift sound
        apply Shift.ask serves.way rfl free fits sees.2.1
        intro _ other joined
        obtain rfl := Option.some.inj (serves.joined.symm.trans joined)
        exact ⟨ungranted, undenied⟩
      · intro panel steady sees
        simp only [Sees, wired.granted, sound.role_pending serves.way] at sees
        obtain ⟨pending, _, granted, _⟩ := sees
        have unanswered := steady.orderly.agreed.waiting serves.isAsked serves.joined pending
        have confirmed := steady.shift sound (.confirm serves.way pending granted)
        have told := serves.concede sound confirmed.orderly.exclusive rfl (by simp)
          (by simpa using unanswered.2)
        simp only [carry, List.foldl_cons, List.foldl_nil, act, serves.wired.granted,
          sound.role_route serves.way, sound.role_pending serves.way]
        exact confirmed.shift sound told
      · intro panel steady sees
        simp only [Sees, sound.role_pending serves.way] at sees
        have pending := sees.1
        have unanswered := steady.orderly.agreed.waiting serves.isAsked serves.joined pending
        have abandoned := steady.shift sound (.abandon serves.way pending)
        simp only [carry, List.foldl_cons, List.foldl_nil, act, serves.wired.denied, wired.request,
          sound.role_pending serves.way]
        apply abandoned.shift sound
        apply serves.refuse sound steady.orderly.exclusive pending
        · constructor <;> simp +contextual
        · simp
        · simpa using unanswered.1

end Serves

/-- Taking answers back follows the protocol, for whomever the answers were. -/
theorem Wired.maintains_answerResetRules (sound : layout.Sound) {inlet : Handshake}
    {asker : SideId} (wired : layout.Wired inlet asker) :
    layout.Maintains (layout.Steady stand loose) (answerResetRules inlet) := by
  simp only [Maintains, answerResetRules, List.forall_mem_cons, Sees, carry, List.foldl_cons, List.foldl_nil,
    act, wired.request, wired.granted, wired.denied, wired.released]
  refine ⟨?_, ?_, ?_, by simp⟩
  · intro panel steady sees
    exact steady.shift sound (.withdraw (.inl sees.1))
  · intro panel steady sees
    exact steady.shift sound (.withdraw (.inr sees.1))
  · intro panel steady sees
    exact steady.shift sound .forget

theorem Sound.maintains_releaseDoneRules (sound : layout.Sound) (exit : SideId) :
    layout.Maintains (layout.Steady stand loose) (releaseDoneRules (layout.outlet? exit)) := by
  cases known : layout.outlet? exit with
  | none => simp [Maintains, releaseDoneRules]
  | some outlet =>
      simp only [Maintains, releaseDoneRules, List.forall_mem_cons, carry, List.foldl_cons,
        List.foldl_nil, act, (sound.outlet known).released]
      exact ⟨fun panel steady _ => steady.shift sound .settle, by simp⟩

/-- Once the release is not announced any more, no side is loose. -/
theorem Sound.takes_releaseDoneRules (sound : layout.Sound) (exit : SideId) :
    layout.Takes (layout.Steady stand (some exit)) (releaseDoneRules (layout.outlet? exit))
      (layout.Steady stand none) := by
  cases known : layout.outlet? exit with
  | none =>
      have unbound := sound.mate_of_no_outlet known
      apply Takes.weaken
      intro panel steady
      apply steady.tighten
      intro side mate same joined
      rw [← Option.some.inj same, unbound] at joined
      cases joined
  | some outlet =>
      have wired := sound.outlet known
      apply Takes.single
      · intro panel steady sees
        have settled := sound.maintains_releaseDoneRules exit _ (by simp [known, releaseDoneRules])
          panel steady sees
        apply settled.tighten
        intro side mate same
        simp [carry, act, wired.released, Option.some.inj same]
      · -- The rule does not fire: nothing is announced, or the grant still stands.
        rintro panel steady ⟨condition, member, misses⟩
        apply steady.tighten
        intro side mate same joined ungranted
        obtain rfl := Option.some.inj same
        simp only [List.mem_cons, List.not_mem_nil, or_false] at member
        rcases member with rfl | rfl
        · simpa [Misses, wired.released] using misses
        · simp [Misses, wired.granted, ungranted] at misses

/-- Clearing the route and telling the exit, with other bits cleared in between, is a
release. -/
theorem Sound.steady_release (sound : layout.Sound) {id : PieceId} {passage : Passage}
    (way : layout.Way id passage) {panel cleared : Panel} (steady : layout.Steady stand loose panel)
    (reserved : panel (.route passage) = true)
    (alike : cleared.Alike (update panel (.route passage) false)) :
    layout.Steady stand loose
      (layout.carry cleared (releaseNotice (layout.outlet? passage.exit))) := by
  cases known : layout.outlet? passage.exit with
  | none =>
      have left := steady.shift sound (.leave way (sound.mate_of_no_outlet known) reserved)
      exact left.congr alike
  | some outlet =>
      have wired := sound.outlet known
      have released := steady.shift sound (.release way reserved)
      simp only [releaseNotice, carry, List.foldl_cons, List.foldl_nil, act, wired.request,
        wired.released]
      exact released.congr ((alike.update false).update true)

namespace Serves

variable {id : PieceId} {piece : Piece} {site : Site} {index : Nat} {passage : Passage}
  {inlet : Handshake} {asker : SideId} {panel : Panel}
  (serves : layout.Serves id piece site index passage inlet asker) (sound : layout.Sound)

include serves sound

/-- Of what is cleared with a route, the protocol is about the route alone. -/
theorem alike_cleared (panel : Panel) :
    (layout.carry panel ([Action.clear passage.route, .clear site.seen] ++
      if site.simulated then [Action.clear site.occupancy] else [])).Alike
        (update panel (.route passage) false) := by
  have seen := (Panel.Alike.refl (update panel (.route passage) false)).aside
    serves.describes.seen_apart false
  simp only [carry, List.foldl_append, List.foldl_cons, List.foldl_nil, act,
    sound.role_route serves.way]
  split
  · exact seen.aside serves.describes.apart false
  · exact seen

theorem steady_releaseActions (steady : layout.Steady stand loose panel)
    (reserved : panel (.route passage) = true) :
    layout.Steady stand loose (layout.carry panel
      (site.releaseActions passage (layout.outlet? passage.exit))) := by
  have released := sound.steady_release serves.way steady reserved (serves.alike_cleared sound panel)
  rw [Site.releaseActions_eq, carry, List.foldl_append]
  exact released

/-- Releases follow the protocol. -/
theorem maintains_releaseRules : layout.Maintains (layout.Steady stand loose)
    (site.passedRules passage (layout.outlet? passage.exit) ++
      [site.withdrawnRule passage inlet (layout.outlet? passage.exit)]) := by
  intro rule member panel steady sees
  obtain ⟨conditions, rfl⟩ : ∃ conditions, rule =
      { conditions := .on passage.route :: conditions
        actions := site.releaseActions passage (layout.outlet? passage.exit) } := by
    rcases List.mem_append.mp member with member | member
    · obtain ⟨freed, rfl⟩ := Site.mem_passedRules member
      exact ⟨_, rfl⟩
    · exact ⟨_, List.mem_singleton.mp member⟩
  have reserved := sees _ List.mem_cons_self
  simp only [Sees, sound.role_route serves.way] at reserved
  exact serves.steady_releaseActions sound steady reserved

/-- All work on a passage follows the protocol. -/
theorem maintains_workRules : layout.Maintains (layout.Steady stand (some passage.exit))
    (site.workRules index passage inlet (layout.outlet? passage.exit)) :=
  (((serves.maintains_denyRules sound).append (serves.maintains_acceptRules sound)).append
    (serves.wired.maintains_answerResetRules sound)).append (serves.maintains_releaseRules sound)

end Serves

end Layout

end Interlocking
