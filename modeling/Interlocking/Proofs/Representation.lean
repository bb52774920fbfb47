import Interlocking.Proofs.Allocation
import Interlocking.Proofs.Roles

/-!
# Sound layouts

What every layout satisfies that was put together piece by piece: no variable is used
twice, each side belongs to the piece that lists it, mates are mutual, and the passages
of a piece lead between its own sides in the way of its kind. The variables that an
author gives to a piece have to be outside ones.
-/

namespace Interlocking

/-- A way from one side to another, with the position that it needs. -/
structure Course where
  entry : SideId
  exit : SideId
  position : Option Position := none
  deriving DecidableEq, Repr

/-- Where a passage leads. -/
def Passage.course (passage : Passage) : Course where
  entry := passage.entry
  exit := passage.exit
  position := passage.position

/-- The branch to which the points lead in a position. -/
def Turnout.branch (turnout : Turnout) : Position → SideId
  | .closed => turnout.closed
  | .thrown => turnout.thrown

namespace Piece

/-- Where the passages of a piece of this kind lead. A turnout that cannot move has
passages through its live branch only. -/
def courses (piece : Piece) : List Course :=
  match piece.body with
  | .straight straight => [⟨straight.a, straight.b, none⟩, ⟨straight.b, straight.a, none⟩]
  | .turnout turnout =>
      match turnout.kind with
      | .fixed position => [
          ⟨turnout.points, turnout.branch position, none⟩,
          ⟨turnout.branch position, turnout.points, none⟩]
      | .movable .. => [
          ⟨turnout.points, turnout.closed, some .closed⟩,
          ⟨turnout.points, turnout.thrown, some .thrown⟩,
          ⟨turnout.closed, turnout.points, some .closed⟩,
          ⟨turnout.thrown, turnout.points, some .thrown⟩]
  | .endpoint _ => []

/-- The sides are different and the passages are those of the piece's kind. -/
structure Shaped (piece : Piece) : Prop where
  sides : piece.sides.Nodup
  courses : piece.passages.map Passage.course = piece.courses

/-- The variables that the author of the layout has given to the piece. -/
def supplied (piece : Piece) : List Var :=
  match piece.body with
  | .straight { kind := .detector sensor, .. } => [piece.occupancy, sensor]
  | .straight { kind := .filtered raw _ _, .. } => [raw]
  | .straight { kind := .signal request aspect _, .. } => [request, aspect]
  | .turnout { kind := .movable motor _ _, .. } => [motor.command, motor.current]
  | _ => []

theorem occupancy_supplied (piece : Piece) (sensed : piece.sensed = true) :
    piece.occupancy ∈ piece.supplied := by
  unfold Piece.sensed at sensed
  unfold supplied
  split at sensed
  · simp [*]
  · cases sensed

theorem mem_roles_occupancy (piece : Piece) (id : PieceId) (unsensed : piece.sensed = false) :
    (.occupancy id, piece.occupancy) ∈ piece.roles id := by
  simp [Piece.roles, unsensed]

variable {piece : Piece} {course other : Course}

theorem course_leads (nodup : piece.sides.Nodup) (member : course ∈ piece.courses) :
    course.entry ∈ piece.sides ∧ course.exit ∈ piece.sides ∧ course.entry ≠ course.exit := by
  obtain ⟨name, occupancy, body⟩ := piece
  cases body with
  | straight straight =>
      simp only [courses, sides, List.mem_cons, List.not_mem_nil, or_false] at member nodup ⊢
      rcases member with rfl | rfl <;> simp_all [eq_comm]
  | turnout turnout =>
      obtain ⟨kind, points, closed, thrown, seen, passages⟩ := turnout
      cases kind with
      | fixed position =>
          simp only [courses, List.mem_cons, List.not_mem_nil, or_false] at member
          cases position <;> rcases member with rfl | rfl <;>
            simp_all [sides, Turnout.sides, Turnout.branch, eq_comm]
      | movable motor position anyRoute =>
          simp only [courses, List.mem_cons, List.not_mem_nil, or_false] at member
          rcases member with rfl | rfl | rfl | rfl <;> simp_all [sides, Turnout.sides, eq_comm]
  | endpoint side => cases member

theorem courses_nodup (nodup : piece.sides.Nodup) : piece.courses.Nodup := by
  obtain ⟨name, occupancy, body⟩ := piece
  cases body with
  | straight straight => simp_all [courses, sides]
  | turnout turnout =>
      obtain ⟨kind, points, closed, thrown, seen, passages⟩ := turnout
      cases kind with
      | fixed position => cases position <;> simp_all [courses, sides, Turnout.sides, Turnout.branch]
      | movable motor position anyRoute => simp_all [courses, sides, Turnout.sides]
  | endpoint side => exact List.nodup_nil

/-- Courses that start at one side are told apart by the position of the turnout. -/
theorem course_selects (nodup : piece.sides.Nodup) (left : course ∈ piece.courses)
    (right : other ∈ piece.courses) (entries : course.entry = other.entry)
    (differ : course ≠ other) : ∃ wanted needed, course.position = some wanted ∧
      other.position = some needed ∧ wanted ≠ needed := by
  obtain ⟨name, occupancy, body⟩ := piece
  cases body with
  | straight straight =>
      simp only [courses, List.mem_cons, List.not_mem_nil, or_false] at left right
      rcases left with rfl | rfl <;> rcases right with rfl | rfl <;> simp_all [sides]
  | turnout turnout =>
      obtain ⟨kind, points, closed, thrown, seen, passages⟩ := turnout
      cases kind with
      | fixed position =>
          simp only [courses, List.mem_cons, List.not_mem_nil, or_false] at left right
          cases position <;> rcases left with rfl | rfl <;> rcases right with rfl | rfl <;>
            simp_all [sides, Turnout.sides, Turnout.branch]
      | movable motor position anyRoute =>
          simp only [courses, List.mem_cons, List.not_mem_nil, or_false] at left right
          rcases left with rfl | rfl | rfl | rfl <;> rcases right with rfl | rfl | rfl | rfl <;>
            simp_all [sides, Turnout.sides]
  | endpoint side => cases left

/-- A course that needs a position leads through a turnout that can move. -/
theorem course_positioned (member : course ∈ piece.courses) {wanted : Position}
    (needs : course.position = some wanted) : ∃ var, piece.position? = some var := by
  obtain ⟨name, occupancy, body⟩ := piece
  cases body with
  | straight straight =>
      simp only [courses, List.mem_cons, List.not_mem_nil, or_false] at member
      rcases member with rfl | rfl <;> cases needs
  | turnout turnout =>
      obtain ⟨kind, points, closed, thrown, seen, passages⟩ := turnout
      cases kind with
      | fixed position =>
          simp only [courses, List.mem_cons, List.not_mem_nil, or_false] at member
          rcases member with rfl | rfl <;> cases needs
      | movable motor position anyRoute => exact ⟨position, rfl⟩
  | endpoint side => cases member

/-- All courses through a turnout that can move need a position. -/
theorem course_position_of_movable {var : Var} (movable : piece.position? = some var)
    (member : course ∈ piece.courses) : ∃ wanted, course.position = some wanted := by
  obtain ⟨name, occupancy, body⟩ := piece
  cases body with
  | straight straight => cases movable
  | turnout turnout =>
      obtain ⟨kind, points, closed, thrown, seen, passages⟩ := turnout
      cases kind with
      | fixed position => cases movable
      | movable motor position anyRoute =>
          simp only [courses, List.mem_cons, List.not_mem_nil, or_false] at member
          rcases member with rfl | rfl | rfl | rfl <;> exact ⟨_, rfl⟩
  | endpoint side => cases movable

namespace Shaped

variable {passage rival : Passage} (shaped : piece.Shaped)

include shaped

theorem course_mem (member : passage ∈ piece.passages) : passage.course ∈ piece.courses :=
  shaped.courses ▸ List.mem_map_of_mem member

theorem nodup : piece.passages.Nodup :=
  List.Nodup.of_map Passage.course (shaped.courses ▸ courses_nodup shaped.sides)

theorem leads (member : passage ∈ piece.passages) :
    passage.entry ∈ piece.sides ∧ passage.exit ∈ piece.sides ∧ passage.entry ≠ passage.exit :=
  course_leads shaped.sides (shaped.course_mem member)

/-- Passages that start at one side are told apart by the position of the turnout. -/
theorem selects (left : passage ∈ piece.passages) (right : rival ∈ piece.passages)
    (entries : passage.entry = rival.entry) (differ : passage ≠ rival) :
    ∃ wanted needed, passage.position = some wanted ∧ rival.position = some needed ∧
      wanted ≠ needed := by
  apply course_selects shaped.sides (shaped.course_mem left) (shaped.course_mem right) entries
  intro same
  have nodup : (piece.passages.map Passage.course).Nodup :=
    shaped.courses ▸ courses_nodup shaped.sides
  exact differ (List.inj_on_of_nodup_map nodup left right same)

/-- A passage that needs a position belongs to a turnout that can move. -/
theorem positioned (member : passage ∈ piece.passages) {wanted : Position}
    (needs : passage.position = some wanted) : ∃ var, piece.position? = some var :=
  course_positioned (shaped.course_mem member) needs

theorem position_of_movable {var : Var} (movable : piece.position? = some var)
    (member : passage ∈ piece.passages) : ∃ wanted, passage.position = some wanted :=
  course_position_of_movable movable (shaped.course_mem member)

end Shaped

end Piece

namespace Layout

/-- What holds of every layout that was put together by the library, whatever variables its
author has handed to it. -/
structure Framed (layout : Layout) : Prop where
  inBounds : layout.table.InBounds
  /-- Bits have addresses that were reserved. -/
  reserved : ∀ entry ∈ layout.roles, entry.2.index < layout.table.span
  /-- No variable is used for two things. -/
  distinct : (layout.roles.map (·.2)).Nodup
  shaped : ∀ {id piece}, layout.piece? id = some piece → piece.Shaped
  /-- The sides that a piece lists belong to it. -/
  listed : ∀ {id piece}, layout.piece? id = some piece → ∀ side ∈ piece.sides,
    ∃ record, layout.side? side = some record ∧ record.owner = id
  /-- A side is listed by the piece to which it belongs. -/
  owned : ∀ {side record}, layout.side? side = some record →
    ∃ piece, layout.piece? record.owner = some piece ∧ side ∈ piece.sides
  /-- Mates are mutual. -/
  paired : ∀ {left right}, layout.mate? left = some right → layout.mate? right = some left
  /-- The names on record are those of the pieces. -/
  named : ∀ {name}, name ∈ layout.names ↔ ∃ piece ∈ layout.pieces.toList, piece.name = name

/-- What holds of every layout to which only outside variables were handed. -/
structure Sound (layout : Layout) : Prop extends layout.Framed where
  /-- What an author has supplied is outside. -/
  supplied : ∀ {id piece}, layout.piece? id = some piece →
    ∀ var ∈ piece.supplied, layout.Outside var

/-- What a later layout keeps of an earlier one. -/
structure Grows (before after : Layout) : Prop where
  span : before.table.span ≤ after.table.span
  outside : ∀ {var}, before.Outside var → after.Outside var
  pieces : ∀ {id piece}, before.piece? id = some piece → after.piece? id = some piece

namespace Grows

variable {first second third : Layout}

theorem refl (layout : Layout) : layout.Grows layout :=
  ⟨Nat.le_refl _, fun outside => outside, fun found => found⟩

theorem trans (left : first.Grows second) (right : second.Grows third) : first.Grows third :=
  ⟨Nat.le_trans left.span right.span, fun outside => right.outside (left.outside outside),
    fun found => right.pieces (left.pieces found)⟩

end Grows

variable {layout : Layout}

/-- A layout without pieces is sound. -/
theorem empty_sound (config : Config) : (empty config).Sound where
  inBounds := UInt32.zero_le
  reserved := by simp [roles, empty]
  distinct := by simp [roles, empty]
  shaped := by simp [piece?, empty]
  listed := by simp [piece?, empty]
  owned := by simp [side?, empty]
  paired := by simp [mate?, side?, empty]
  named := by simp [empty]
  supplied := by simp [piece?, empty]

/-- More reservations do no harm. -/
theorem Framed.withTable (framed : layout.Framed) {table : Table} (inBounds : table.InBounds)
    (larger : layout.table.span ≤ table.span) : ({ layout with table }).Framed where
  inBounds := inBounds
  reserved := fun entry member => Nat.lt_of_lt_of_le (framed.reserved entry member) larger
  distinct := framed.distinct
  shaped := framed.shaped
  listed := framed.listed
  owned := framed.owned
  paired := framed.paired
  named := framed.named

theorem Sound.withTable (sound : layout.Sound) {table : Table} (inBounds : table.InBounds)
    (larger : layout.table.span ≤ table.span) :
    ({ layout with table }).Sound ∧ layout.Grows { layout with table } := by
  have grows : layout.Grows { layout with table } := by
    refine ⟨larger, ?_, fun found => found⟩
    intro var outside
    exact ⟨Nat.lt_of_lt_of_le outside.1 larger, outside.2⟩
  refine ⟨⟨sound.toFramed.withTable inBounds larger, ?_⟩, grows⟩
  exact fun found var member => grows.outside (sound.supplied found var member)

end Layout

end Interlocking
