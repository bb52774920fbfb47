import Interlocking.Proofs.Cycles
import Interlocking.Proofs.Vocabulary

/-!
# Ownership of the bits

Every bit of the protocol has one writer. A side is asked and told by the piece to which it
belongs and answered by the piece at the other end of the joint, and what a piece notes for
itself no other piece touches. Where a piece looks is said here as well: at its own bits, at both
ends of its joints and at the occupancy next to it. Schedules and arbiters keep away from the bits
of the protocol.
-/

namespace Interlocking

namespace Layout

variable {layout : Layout} {id : PieceId} {piece : Piece} {rules : List Rule}

/-- The piece is the one that may write a variable with this role. -/
def Owns (layout : Layout) (id : PieceId) : Role → Prop
  | .request side | .released side => layout.Borders id side
  | .granted side | .denied side => ∃ mate, layout.mate? side = some mate ∧ layout.Borders id mate
  | .route passage | .pending passage => layout.Way id passage
  | .seen piece | .occupancy piece | .helper piece | .position piece | .anyRoute piece => piece = id
  | .outside _ => True

/-- The actions write nothing but what the piece owns and outside variables. -/
def Heeds (layout : Layout) (id : PieceId) (actions : List Action) : Prop :=
  ∀ var ∈ actions.filterMap Action.var?, layout.Owns id (layout.role var)

/-- The rules write nothing but what the piece owns and outside variables. -/
def Confines (layout : Layout) (id : PieceId) (rules : List Rule) : Prop :=
  ∀ rule ∈ rules, layout.Heeds id rule.actions

theorem owns_of_outside {var : Var} (outside : layout.Outside var) :
    layout.Owns id (layout.role var) := by
  rw [role_of_outside outside]
  trivial

/-- A side of the first piece is joined to a side of the second. -/
def Adjoins (layout : Layout) (id other : PieceId) : Prop :=
  ∃ side mate, layout.mate? side = some mate ∧ layout.Borders id side ∧ layout.Borders other mate

theorem Sound.adjoins_symm (sound : layout.Sound) {other : PieceId}
    (adjoins : layout.Adjoins id other) : layout.Adjoins other id := by
  obtain ⟨side, mate, joined, here, there⟩ := adjoins
  exact ⟨mate, side, sound.paired joined, there, here⟩

/-- The piece is one that may look at a variable with this role. -/
def Hears (layout : Layout) (id : PieceId) : Role → Prop
  | .request side | .granted side | .denied side | .released side =>
      layout.Borders id side ∨ ∃ mate, layout.mate? side = some mate ∧ layout.Borders id mate
  | .route passage | .pending passage => layout.Way id passage
  | .seen piece | .helper piece | .position piece | .anyRoute piece => piece = id
  | .occupancy piece => piece = id ∨ layout.Adjoins id piece
  | .outside var => ∃ other piece, (other = id ∨ layout.Adjoins id other) ∧
      layout.piece? other = some piece ∧ var ∈ piece.supplied

/-- The piece may write a variable with this role. Of the outside variables it may write only
those that were given to it for this. -/
def Drives (layout : Layout) (id : PieceId) (role : Role) : Prop :=
  layout.Owns id role ∧ ∀ var, role = .outside var →
    ∃ piece, layout.piece? id = some piece ∧ var ∈ piece.driven

/-- A piece looks at whatever it may write. -/
theorem Drives.hears {role : Role} (drives : layout.Drives id role) : layout.Hears id role := by
  obtain ⟨owns, outside⟩ := drives
  cases role with
  | request | released => exact .inl owns
  | granted | denied => exact .inr owns
  | route | pending | seen | helper | position | anyRoute => exact owns
  | occupancy => exact .inl owns
  | outside var =>
      obtain ⟨piece, found, driven⟩ := outside var rfl
      exact ⟨id, piece, .inl rfl, found, piece.driven_subset driven⟩

/-- The bits of a piece are for the piece itself and for its passages. -/
theorem role_of_mem_piece {role : Role} {var : Var} (member : (role, var) ∈ piece.roles id) :
    role ∈ [.occupancy id, .seen id, .helper id, .position id, .anyRoute id] ∨
      ∃ passage ∈ piece.passages, role = .route passage ∨ role = .pending passage := by
  simp only [Piece.roles, List.mem_append, List.mem_map, Option.mem_toList, List.mem_flatMap,
    Passage.roles, List.mem_cons, Prod.mk.injEq, List.not_mem_nil, or_false] at member
  rcases member with ((((member | ⟨_, _, rfl, _⟩) | ⟨_, _, rfl, _⟩) |
    ⟨passage, listed, ⟨rfl, _⟩ | ⟨rfl, _⟩⟩) | ⟨_, _, rfl, _⟩) | ⟨_, _, rfl, _⟩
  · split at member
    · cases member
    · obtain ⟨rfl, -⟩ := Prod.mk.inj (List.mem_singleton.mp member)
      simp
  · simp
  · simp
  · exact .inr ⟨passage, listed, .inl rfl⟩
  · exact .inr ⟨passage, listed, .inr rfl⟩
  · simp
  · simp

/-- What the bits of a piece are for, it may write. -/
theorem drives_of_mem_piece (found : layout.piece? id = some piece) {role : Role} {var : Var}
    (member : (role, var) ∈ piece.roles id) : layout.Drives id role := by
  rcases role_of_mem_piece member with own | ⟨passage, listed, rfl | rfl⟩
  · simp only [List.mem_cons, List.not_mem_nil, or_false] at own
    rcases own with rfl | rfl | rfl | rfl | rfl <;> exact ⟨rfl, nofun⟩
  · exact ⟨⟨piece, found, listed⟩, nofun⟩
  · exact ⟨⟨piece, found, listed⟩, nofun⟩

section Pieces

variable (sound : layout.Sound) (found : layout.piece? id = some piece)

include sound

/-- Whoever may look at both ends of a joint may look at all bits there. -/
theorem Sound.hears_side {side : SideId} {record : Side} (known : layout.side? side = some record)
    (near : layout.Borders id side ∨ ∃ mate, layout.mate? side = some mate ∧ layout.Borders id mate) :
    ∀ var ∈ record.bits.vars, layout.Hears id (layout.role var) := by
  have wired := sound.wired known
  simp only [Handshake.vars, List.forall_mem_cons]
  rw [wired.request, wired.granted, wired.denied, wired.released]
  exact ⟨near, near, near, near, by simp⟩

theorem Sound.hears_occupancy {other : PieceId} {neighbour : Piece}
    (known : layout.piece? other = some neighbour) (near : other = id ∨ layout.Adjoins id other) :
    layout.Hears id (layout.role neighbour.occupancy) := by
  cases sensed : neighbour.sensed with
  | true =>
      have given := neighbour.occupancy_supplied sensed
      rw [role_of_outside (sound.supplied known _ given)]
      exact ⟨other, neighbour, near, known, given⟩
  | false =>
      rw [sound.role_occupancy known sensed]
      exact near

include found

/-- What the rules of a piece mention: it looks where it may look and writes what it may write. -/
theorem Sound.vocabulary : layout.Vocabulary id piece (fun var => layout.Hears id (layout.role var))
    (fun var => layout.Drives id (layout.role var)) := by
  have borders : ∀ side ∈ piece.sides, layout.Borders id side := sound.listed found
  constructor
  case supplied =>
    intro var member
    rw [role_of_outside (sound.supplied found var member)]
    exact ⟨id, piece, .inl rfl, found, member⟩
  case driven =>
    intro var member
    rw [role_of_outside (sound.supplied found var (piece.driven_subset member))]
    refine ⟨trivial, ?_⟩
    rintro other ⟨rfl⟩
    exact ⟨piece, found, member⟩
  case own =>
    intro entry member
    rw [sound.role_eq (mem_roles_piece found member)]
    have drives := drives_of_mem_piece found member
    exact ⟨drives.hears, drives⟩
  case sides =>
    intro side own record known
    refine ⟨sound.hears_side known (.inl (borders side own)), ?_⟩
    rw [(sound.wired known).request, (sound.wired known).released]
    exact ⟨⟨borders side own, nofun⟩, borders side own, nofun⟩
  case facing =>
    intro side own mate joined record known
    have far : ∃ near, layout.mate? mate = some near ∧ layout.Borders id near :=
      ⟨side, sound.paired joined, borders side own⟩
    refine ⟨sound.hears_side known (.inr far), ?_⟩
    rw [(sound.wired known).granted, (sound.wired known).denied]
    exact ⟨⟨far, nofun⟩, far, nofun⟩
  case near =>
    intro side own var near
    obtain ⟨neighbour, joined, rfl⟩ := Option.map_eq_some_iff.mp near
    obtain ⟨mate, joined, owner⟩ := Option.bind_eq_some_iff.mp joined
    obtain ⟨record, there, known⟩ := Option.bind_eq_some_iff.mp owner
    refine sound.hears_occupancy known (.inr ?_)
    exact ⟨side, mate, joined, borders side own, record, there, rfl⟩

/-- All that the automaton of a piece writes belongs to the piece or lies outside. -/
theorem Sound.confines_automaton : layout.Confines id (piece.automaton layout).rules := by
  intro rule member var written
  have uses := (sound.vocabulary found).uses_automaton (sound.shaped found)
  exact ((uses rule member).2 var written).1

end Pieces

/-- Whose a bit of a piece is, there is no doubt about it. -/
theorem Sound.eq_of_owns (sound : layout.Sound) (found : layout.piece? id = some piece)
    {writer : PieceId} {role : Role} {var : Var} (member : (role, var) ∈ piece.roles id)
    (owns : layout.Owns writer (layout.role var)) : writer = id := by
  rw [sound.role_eq (mem_roles_piece found member)] at owns
  rcases role_of_mem_piece member with own | ⟨passage, listed, rfl | rfl⟩
  · simp only [List.mem_cons, List.not_mem_nil, or_false] at own
    rcases own with rfl | rfl | rfl | rfl | rfl <;> exact owns.symm
  · exact sound.same_piece owns ⟨piece, found, listed⟩ rfl
  · exact sound.same_piece owns ⟨piece, found, listed⟩ rfl

end Layout

section Programs

variable {yard : Yard} {sources : List Source} {program : Program}

/-- Whatever a program writes belongs to the piece at the place of the writer, or it lies
outside. -/
theorem Yard.Sound.owns_of_written (sound : yard.Sound) (declared : sources ⊆ yard.sources)
    (compiled : Program.compile yard.layout sources = .ok program) {writer : Nat}
    {automaton : Automaton} (placed : program.automata[writer]? = some automaton) {rule : Rule}
    (member : rule ∈ automaton.rules) {var : Var} (written : var ∈ rule.writes) :
    yard.layout.Owns ⟨writer⟩ (yard.layout.role var) := by
  obtain ⟨-, extra, mapped, automata⟩ := Program.automata_of_compile compiled
  rw [automata, List.getElem?_append] at placed
  split at placed
  · rw [Layout.automata, List.getElem?_map, Array.getElem?_toList, Option.map_eq_some_iff] at placed
    obtain ⟨piece, known, rfl⟩ := placed
    have found : yard.layout.piece? ⟨writer⟩ = some piece := known
    exact sound.layout.confines_automaton found rule member var written
  · obtain ⟨source, listed, built⟩ := mem_of_mapM_eq_ok mapped (List.mem_of_getElem? placed)
    obtain ⟨vars, writes, outside⟩ := sound.outside_of_source (declared listed) built
    exact Layout.owns_of_outside (outside var (writes rule member written))

end Programs

/-- Every bit of the protocol has one writer. Take any layout that was put together with outside
variables supplied by its author, and any program that is compiled of it and of schedules and
arbiters declared on it. Then the automaton of a piece stands at the place of the piece. Only
the automaton of the piece to which a side belongs writes the request and the announced release of
the side; only the automaton at the other end of the joint writes the answers, and nobody if
the side is not joined. What else a piece has allocated, only its own automaton writes: the
occupancy unless it is a given sensor, the mark that a train was seen, the helper, the routes and
pending marks of its passages, the position and the sum of its routes. -/
theorem protocol_bits_have_one_writer (config : Config) (orders : List Order)
    (admitted : (Yard.empty config).Admits orders) (yard : Yard)
    (made : (Yard.empty config).performAll orders = yard) (sources : List Source)
    (declared : sources ⊆ yard.sources) (program : Program)
    (compiled : Program.compile yard.layout sources = .ok program) :
    (∀ id piece, yard.layout.piece? id = some piece →
      program.automata[id.index]? = some (piece.automaton yard.layout)) ∧
    ∀ (writer : Nat) (automaton : Automaton) (rule : Rule) (var : Var),
      program.automata[writer]? = some automaton → rule ∈ automaton.rules → var ∈ rule.writes →
      (∀ side record, yard.layout.side? side = some record →
        (var = record.bits.request ∨ var = record.bits.released → writer = record.owner.index) ∧
        (var = record.bits.granted ∨ var = record.bits.denied →
          ∃ mate other, yard.layout.mate? side = some mate ∧
            yard.layout.side? mate = some other ∧ writer = other.owner.index)) ∧
      ∀ id piece, yard.layout.piece? id = some piece →
        (var = piece.occupancy ∧ piece.sensed = false ∨ piece.seen? = some var ∨
          piece.helper? = some var ∨
          (∃ passage ∈ piece.passages, var = passage.route ∨ var = passage.pending) ∨
          piece.position? = some var ∨ piece.anyRoute? = some var) →
        writer = id.index := by
  have sound : yard.Sound := made ▸ Yard.performAll_sound (Yard.empty_sound config) admitted
  refine ⟨fun id piece found => Program.getElem?_of_piece compiled found, ?_⟩
  intro writer automaton rule var placed member written
  have owns := sound.owns_of_written declared compiled placed member written
  refine ⟨fun side record found => ⟨?_, ?_⟩, ?_⟩
  · intro either
    have wired := sound.layout.wired found
    have borders : yard.layout.Borders ⟨writer⟩ side := by
      rcases either with rfl | rfl
      · rwa [wired.request] at owns
      · rwa [wired.released] at owns
    obtain ⟨known, same, owner⟩ := borders
    obtain rfl := Option.some.inj (found.symm.trans same)
    exact congrArg PieceId.index owner.symm
  · intro either
    have wired := sound.layout.wired found
    have answers : ∃ mate, yard.layout.mate? side = some mate ∧
        yard.layout.Borders ⟨writer⟩ mate := by
      rcases either with rfl | rfl
      · rwa [wired.granted] at owns
      · rwa [wired.denied] at owns
    obtain ⟨mate, joined, other, known, owner⟩ := answers
    exact ⟨mate, other, joined, known, congrArg PieceId.index owner.symm⟩
  · intro id piece found own
    have listed : ∃ role, (role, var) ∈ piece.roles id := by
      rcases own with ⟨rfl, unsensed⟩ | known | known | ⟨passage, member, rfl | rfl⟩ | known | known
      · exact ⟨.occupancy id, by simp [Piece.roles, unsensed]⟩
      · exact ⟨.seen id, by simp [Piece.roles, known]⟩
      · exact ⟨.helper id, by simp [Piece.roles, known]⟩
      · exact ⟨.route passage, by simpa [Piece.roles, Passage.roles] using member⟩
      · exact ⟨.pending passage, by simpa [Piece.roles, Passage.roles] using member⟩
      · exact ⟨.position id, by simp [Piece.roles, known]⟩
      · exact ⟨.anyRoute id, by simp [Piece.roles, known]⟩
    obtain ⟨role, listed⟩ := listed
    exact congrArg PieceId.index (sound.layout.eq_of_owns found listed owns)

section Siding

/-- The turnout `w` lies between the block `s` and the endpoint `e`, and its thrown branch leads
nowhere. The train `u` moves with the permission of `a`. -/
def sidingOrders : List Order := [
  .external "c", .external "r", .movableTurnout "w" ⟨⟨0⟩, ⟨1⟩⟩, .endpoint "e", .block "s",
  .joinPairs [(⟨9⟩, ⟨0⟩), (⟨1⟩, ⟨3⟩)], .arbiter "a", .client 0 "k", .schedule "u",
  .move 0 0 0 [] (some 0) [(⟨⟨0⟩, ⟨1⟩⟩, .closed)]]

/-- What the orders make. -/
def sidingYard : Yard := (Yard.empty {}).performAll sidingOrders

/-- The arbiter and the schedule as they were declared last. -/
def sidingSources : List Source :=
  (sidingYard.arbiters.drop 1).map Source.permission ++ (sidingYard.schedules.drop 1).map Source.train

theorem sidingYard_shows :
    (Yard.empty {}).Admits sidingOrders ∧ sidingSources ⊆ sidingYard.sources ∧
    (Program.compile sidingYard.layout sidingSources).toOption.map (·.automata.length) = some 7 ∧
    sidingYard.layout.side? ⟨0⟩ = some ⟨"points", ⟨0⟩, ⟨⟨2⟩, ⟨3⟩, ⟨4⟩, ⟨5⟩⟩, some ⟨9⟩⟩ ∧
    (sidingYard.layout.side? ⟨9⟩).map (·.owner.index) = some 4 ∧
    sidingYard.layout.side? ⟨2⟩ = some ⟨"thrown", ⟨0⟩, ⟨⟨18⟩, ⟨19⟩, ⟨20⟩, ⟨21⟩⟩, none⟩ := by
  decide +kernel

theorem protocol_bits_have_one_writer_at_siding :
    (Yard.empty {}).Admits sidingOrders ∧ sidingSources ⊆ sidingYard.sources ∧
    ∃ program, Program.compile sidingYard.layout sidingSources = .ok program ∧
      program.automata.length = 7 ∧
      ∀ (writer : Nat) (automaton : Automaton) (rule : Rule) (var : Var),
        program.automata[writer]? = some automaton → rule ∈ automaton.rules → var ∈ rule.writes →
        (var = ⟨2⟩ ∨ var = ⟨5⟩ → writer = 0) ∧ (var = ⟨3⟩ ∨ var = ⟨4⟩ → writer = 4) ∧
          ¬(var = ⟨19⟩ ∨ var = ⟨20⟩) := by
  obtain ⟨admitted, declared, compiles, points, signal, branch⟩ := sidingYard_shows
  obtain ⟨program, known, count⟩ := Option.map_eq_some_iff.mp compiles
  have compiled := Machine.mem_toOption_iff.mp known
  refine ⟨admitted, declared, program, compiled, count, ?_⟩
  intro writer automaton rule var placed member written
  obtain ⟨-, writes⟩ := protocol_bits_have_one_writer {} sidingOrders admitted sidingYard rfl
    sidingSources declared program compiled
  obtain ⟨sides, -⟩ := writes writer automaton rule var placed member written
  refine ⟨(sides _ _ points).1, fun answered => ?_, fun answered => ?_⟩
  · obtain ⟨mate, other, joined, found, here⟩ := (sides _ _ points).2 answered
    simp only [Layout.mate?, points, Option.bind_eq_bind, Option.bind_some, Option.some.injEq]
      at joined
    subst joined
    simp only [found, Option.map_some, Option.some.injEq] at signal
    exact here.trans signal
  · obtain ⟨mate, other, joined, -⟩ := (sides _ _ branch).2 answered
    simp [Layout.mate?, branch] at joined

end Siding

end Interlocking
