import Interlocking.Layout.Detection
import Interlocking.Proofs.Representation

/-!
# Lookups that succeed

In a layout that was put together by the library, every side that a piece lists is there, a mate is
again a side of the layout, and every side belongs to a piece. So from a side of the layout all
lookups succeed.
-/

namespace Interlocking

theorem Turnout.side_points (turnout : Turnout) :
    Blades.side turnout.sides Blades.points = .ok turnout.points := rfl

theorem Turnout.side_branch (turnout : Turnout) (position : Position) :
    Blades.side turnout.sides (Blades.branch position) = .ok (turnout.branch position) := by
  cases position <;> rfl

namespace Piece

/-- The side on which a train leaves that enters the piece, as far as the piece alone decides it. -/
def exit? (piece : Piece) (entry : SideId) : Option SideId :=
  match piece.body with
  | .straight straight => some (if straight.a = entry then straight.b else straight.a)
  | .turnout turnout =>
      match turnout.kind with
      | .fixed position =>
          if entry = turnout.points then some (turnout.branch position)
          else if entry = turnout.branch position then some turnout.points
          else none
      | .movable .. =>
          if entry = turnout.closed ∨ entry = turnout.thrown then some turnout.points else none
  | .endpoint _ => none

variable {piece : Piece}

/-- Either trains go to and fro between two sides, or those from the other sides leave at one. -/
theorem exit?_cases (nodup : piece.sides.Nodup) :
    (∃ left ∈ piece.sides, ∃ right ∈ piece.sides, left ≠ right ∧
      ∀ entry ∈ piece.sides, ∀ exit, piece.exit? entry = some exit ↔
        entry = left ∧ exit = right ∨ entry = right ∧ exit = left) ∨
    ∃ points ∈ piece.sides, ∀ entry ∈ piece.sides, ∀ exit, piece.exit? entry = some exit ↔
      entry ≠ points ∧ exit = points := by
  obtain ⟨name, occupancy, body⟩ := piece
  cases body with
  | straight straight =>
      obtain ⟨⟨seen, ab, ba⟩, kind, a, b⟩ := straight
      have apart : a ≠ b := by simpa [sides] using nodup
      refine .inl ⟨a, by simp [sides], b, by simp [sides], apart, ?_⟩
      intro entry member exit
      simp only [sides, List.mem_cons, List.not_mem_nil, or_false] at member
      rcases member with rfl | rfl <;> simp [exit?, apart, apart.symm, eq_comm]
  | turnout turnout =>
      have inside : turnout.points ∈ turnout.sides := by simp [Turnout.sides]
      cases kind : turnout.kind with
      | fixed position =>
          obtain ⟨live, apart⟩ : turnout.branch position ∈ turnout.sides ∧
              turnout.points ≠ turnout.branch position := by
            cases position <;> simp_all [sides, Turnout.sides, Turnout.branch]
          refine .inl ⟨turnout.points, inside, turnout.branch position, live, apart, ?_⟩
          intro entry _ exit
          simp only [exit?, kind]
          grind
      | movable motor position anyRoute =>
          refine .inr ⟨turnout.points, inside, ?_⟩
          intro entry member exit
          simp only [sides, Turnout.sides, List.mem_cons, List.not_mem_nil, or_false] at member
          rcases member with rfl | rfl | rfl <;>
            simp_all [exit?, sides, Turnout.sides, eq_comm]
  | endpoint side =>
      refine .inr ⟨side, by simp [sides], ?_⟩
      intro entry member exit
      obtain rfl := List.mem_singleton.mp member
      simp [exit?]

section Exits

variable {entry exit : SideId} (nodup : piece.sides.Nodup) (member : entry ∈ piece.sides)
  (leaves : piece.exit? entry = some exit)

include nodup member leaves

theorem exit?_leads : exit ∈ piece.sides ∧ exit ≠ entry := by
  rcases exit?_cases nodup with ⟨left, inLeft, right, inRight, apart, ways⟩ | ⟨points, inside, ways⟩
  · rcases (ways entry member exit).mp leaves with ⟨rfl, rfl⟩ | ⟨rfl, rfl⟩
    · exact ⟨inRight, apart.symm⟩
    · exact ⟨inLeft, apart⟩
  · obtain ⟨other, rfl⟩ := (ways entry member exit).mp leaves
    exact ⟨inside, other.symm⟩

end Exits

end Piece

namespace Layout

variable {layout : Layout} {entry : SideId}

theorem otherSide_eq {piece : Piece} (owned : layout.owner? entry = some piece) :
    layout.otherSide entry = .ok (piece.exit? entry) := by
  simp only [otherSide, owner, owned, bind, Except.bind]
  obtain ⟨name, occupancy, body⟩ := piece
  cases body with
  | straight | endpoint => rfl
  | turnout turnout =>
      cases kind : turnout.kind with
      | fixed position =>
          simp only [TurnoutKind.blades, Blades.exit?, Turnout.side_points, Turnout.side_branch,
            bind, Except.bind, Piece.exit?, kind]
          split
          · rfl
          · split <;> rfl
      | movable motor position anyRoute =>
          simp only [TurnoutKind.blades, Blades.exit?, Turnout.side_points, Turnout.side_branch,
            bind, Except.bind, Piece.exit?, kind]
          by_cases closed : entry = turnout.closed
          · simp [closed, Turnout.branch, pure, Except.pure]
          · by_cases thrown : entry = turnout.thrown <;>
              simp [closed, thrown, Turnout.branch, pure, Except.pure]

/-- What is seen from a side of a piece. -/
theorem outlook_eq {side : Side} {piece : Piece} (known : layout.side? entry = some side)
    (owned : layout.owner? entry = some piece) : layout.outlook entry = .ok {
      piece := piece.name
      label := side.label
      sight := sight piece
      occupancy := piece.occupancy
      onward := layout.onward entry } := by
  simp only [outlook, Layout.side, owner, known, owned, bind, Except.bind]
  rfl

/-- The layout has a side with this number. -/
def Has (layout : Layout) (side : SideId) : Prop := (layout.side? side).isSome

theorem Framed.has_of_listed (framed : layout.Framed) {id : PieceId} {piece : Piece}
    (found : layout.piece? id = some piece) {side : SideId} (listed : side ∈ piece.sides) :
    layout.Has side := by
  obtain ⟨record, known, _⟩ := framed.listed found side listed
  exact Option.isSome_of_eq_some known

/-- A mate is a side of the layout. -/
theorem Framed.has_mate (framed : layout.Framed) {mate : SideId}
    (joined : layout.mate? entry = some mate) : layout.Has mate := by
  obtain ⟨record, known, _⟩ := Option.bind_eq_some_iff.mp (framed.paired joined)
  exact Option.isSome_of_eq_some known

section Lookups

variable (framed : layout.Framed) (has : layout.Has entry)

include framed has

theorem Framed.owner?_of_has : ∃ piece ∈ layout.pieces.toList, layout.owner? entry = some piece := by
  obtain ⟨record, known⟩ := Option.isSome_iff_exists.mp has
  obtain ⟨piece, found, _⟩ := framed.owned known
  exact ⟨piece, mem_pieces.mpr ⟨_, found⟩, by simp [owner?, known, found]⟩

theorem Framed.owner_ok : ∃ piece ∈ layout.pieces.toList, layout.owner entry = .ok piece := by
  obtain ⟨piece, listed, owner⟩ := framed.owner?_of_has has
  exact ⟨piece, listed, by simp [Layout.owner, owner]⟩

/-- Where a train leaves a piece there is a side. -/
theorem Framed.exit_ok :
    ∃ exit, layout.otherSide entry = .ok exit ∧ ∀ side ∈ exit, layout.Has side := by
  obtain ⟨record, known⟩ := Option.isSome_iff_exists.mp has
  obtain ⟨piece, found, listed⟩ := framed.owned known
  have owned : layout.owner? entry = some piece := by simp [owner?, known, found]
  refine ⟨_, otherSide_eq owned, fun side leaves => ?_⟩
  exact framed.has_of_listed found (Piece.exit?_leads (framed.shaped found).sides listed leaves).1

/-- The way on through a piece can always be told, and it leads to a side of the layout. -/
theorem Framed.onward_ok :
    ∃ next, layout.onward entry = .ok next ∧ ∀ side ∈ next, layout.Has side := by
  obtain ⟨exit, told, _⟩ := framed.exit_ok has
  simp only [onward, told, bind, Except.bind]
  cases exit with
  | none => exact ⟨none, rfl, by simp⟩
  | some exit => exact ⟨layout.mate? exit, rfl, fun side joined => framed.has_mate joined⟩

end Lookups

end Layout

end Interlocking
