import Interlocking.Layout.Joining
import Mathlib.Data.List.Nodup

/-!
# What the bits of a layout are for

The rules of a layout mention variables; the protocol that they carry out is about sides
and passages. This module names what each variable is for. A variable that no piece has
allocated for itself is `outside`: a detector, a command, an aspect, a bit of a schedule.
-/

namespace Interlocking

/-- What a variable is for. -/
inductive Role where
  | request (side : SideId)
  | granted (side : SideId)
  | denied (side : SideId)
  | released (side : SideId)
  | route (passage : Passage)
  | pending (passage : Passage)
  | seen (piece : PieceId)
  | occupancy (piece : PieceId)
  /-- The additional bit of a filter or a signal. -/
  | helper (piece : PieceId)
  | position (piece : PieceId)
  | anyRoute (piece : PieceId)
  /-- Nothing that belongs to a piece. -/
  | outside (var : Var)
  deriving DecidableEq, Repr

/-- The bits of a side and what they are for. -/
def Handshake.roles (bits : Handshake) (side : SideId) : List (Role × Var) := [
  (.request side, bits.request),
  (.granted side, bits.granted),
  (.denied side, bits.denied),
  (.released side, bits.released)]

/-- The bits of a passage and what they are for. -/
def Passage.roles (passage : Passage) : List (Role × Var) := [
  (.route passage, passage.route),
  (.pending passage, passage.pending)]

/-- Whether the occupancy bit is a variable that was given to the piece. -/
def Piece.sensed (piece : Piece) : Bool :=
  match piece.body with
  | .straight { kind := .detector _, .. } => true
  | _ => false

/-- The bits that a piece has allocated besides those of its sides, and what they are
for, in the order of their addresses. -/
def Piece.roles (piece : Piece) (id : PieceId) : List (Role × Var) :=
  (if piece.sensed then [] else [(Role.occupancy id, piece.occupancy)]) ++
    (piece.seen?.toList.map fun seen => (Role.seen id, seen)) ++
    (piece.helper?.toList.map fun helper => (Role.helper id, helper)) ++
    piece.passages.flatMap Passage.roles ++
    (piece.position?.toList.map fun position => (Role.position id, position)) ++
    (piece.anyRoute?.toList.map fun anyRoute => (Role.anyRoute id, anyRoute))

namespace Layout

variable {layout : Layout}

/-- All bits that belong to the layout's sides and pieces. -/
def roles (layout : Layout) : List (Role × Var) :=
  layout.sides.toList.zipIdx.flatMap (fun (side, index) => side.bits.roles ⟨index⟩) ++
    layout.pieces.toList.zipIdx.flatMap (fun (piece, index) => piece.roles ⟨index⟩)

theorem mem_roles {entry : Role × Var} : entry ∈ layout.roles ↔
    (∃ id side, layout.side? id = some side ∧ entry ∈ side.bits.roles id) ∨
      (∃ id piece, layout.piece? id = some piece ∧ entry ∈ piece.roles id) := by
  simp only [roles, List.mem_append, List.mem_flatMap, Prod.exists,
    List.mem_zipIdx_iff_getElem?, Array.getElem?_toList, side?, piece?]
  constructor
  · intro listed
    rcases listed with ⟨side, index, found, member⟩ | ⟨piece, index, found, member⟩
    · exact .inl ⟨⟨index⟩, side, found, member⟩
    · exact .inr ⟨⟨index⟩, piece, found, member⟩
  · intro listed
    rcases listed with ⟨id, side, found, member⟩ | ⟨id, piece, found, member⟩
    · exact .inl ⟨side, id.index, found, member⟩
    · exact .inr ⟨piece, id.index, found, member⟩

theorem mem_pieces {piece : Piece} :
    piece ∈ layout.pieces.toList ↔ ∃ id, layout.piece? id = some piece := by
  simp only [List.mem_iff_getElem?, Array.getElem?_toList, piece?]
  exact ⟨fun ⟨index, found⟩ => ⟨⟨index⟩, found⟩, fun ⟨id, found⟩ => ⟨id.index, found⟩⟩

/-- What a variable is for in this layout. -/
def role (layout : Layout) (var : Var) : Role :=
  ((layout.roles.find? (fun entry => entry.2 = var)).map (·.1)).getD (.outside var)

/-- A variable whose address is in use, but not for a bit of a side or a piece. -/
def Outside (layout : Layout) (var : Var) : Prop :=
  var.index < layout.table.span ∧ var ∉ layout.roles.map (·.2)

instance (layout : Layout) (var : Var) : Decidable (layout.Outside var) :=
  inferInstanceAs (Decidable (_ ∧ _))

/-- The variable with which the layout serves a role. -/
def bit? (layout : Layout) : Role → Option Var
  | .request side => (layout.side? side).map (·.bits.request)
  | .granted side => (layout.side? side).map (·.bits.granted)
  | .denied side => (layout.side? side).map (·.bits.denied)
  | .released side => (layout.side? side).map (·.bits.released)
  | .route passage => some passage.route
  | .pending passage => some passage.pending
  | .seen piece => layout.piece? piece >>= Piece.seen?
  | .occupancy piece => (layout.piece? piece).map (·.occupancy)
  | .helper piece => layout.piece? piece >>= Piece.helper?
  | .position piece => layout.piece? piece >>= Piece.position?
  | .anyRoute piece => layout.piece? piece >>= Piece.anyRoute?
  | .outside var => some var

theorem bit?_of_mem {role : Role} {var : Var} (member : (role, var) ∈ layout.roles) :
    layout.bit? role = some var := by
  rcases mem_roles.mp member with ⟨id, side, found, member⟩ | ⟨id, piece, found, member⟩
  · simp only [Handshake.roles, List.mem_cons, Prod.mk.injEq, List.not_mem_nil,
      or_false] at member
    rcases member with ⟨rfl, rfl⟩ | ⟨rfl, rfl⟩ | ⟨rfl, rfl⟩ | ⟨rfl, rfl⟩ <;>
      simp [bit?, found]
  · simp only [Piece.roles, List.mem_append, List.mem_map, Option.mem_toList,
      List.mem_flatMap, Passage.roles, List.mem_cons, Prod.mk.injEq, List.not_mem_nil,
      or_false] at member
    rcases member with ((((member | ⟨_, known, rfl, rfl⟩) | ⟨_, known, rfl, rfl⟩) |
      ⟨passage, _, ⟨rfl, rfl⟩ | ⟨rfl, rfl⟩⟩) | ⟨_, known, rfl, rfl⟩) | ⟨_, known, rfl, rfl⟩
    · split at member
      · cases member
      · simp only [List.mem_singleton, Prod.mk.injEq] at member
        obtain ⟨rfl, rfl⟩ := member
        simp [bit?, found]
    all_goals first | rfl | simpa [bit?, found] using known

/-- The role of a variable determines the variable. -/
theorem bit?_role (layout : Layout) (var : Var) : layout.bit? (layout.role var) = some var := by
  unfold role
  cases found : layout.roles.find? (fun entry => entry.2 = var) with
  | none => rfl
  | some entry =>
      have same : entry.2 = var := by simpa using List.find?_some found
      subst same
      exact bit?_of_mem (List.mem_of_find?_eq_some found)

theorem role_of_outside {var : Var} (outside : layout.Outside var) :
    layout.role var = .outside var := by
  have absent : layout.roles.find? (fun entry => entry.2 = var) = none := by
    apply List.find?_eq_none.mpr
    intro entry member same
    apply outside.2
    exact List.mem_map.mpr ⟨entry, member, of_decide_eq_true same⟩
  simp [role, absent]

/-- With every variable used once, a variable has the role for which it was allocated. -/
theorem role_of_mem (distinct : (layout.roles.map (·.2)).Nodup) {role : Role} {var : Var}
    (member : (role, var) ∈ layout.roles) : layout.role var = role := by
  unfold Layout.role
  cases found : layout.roles.find? (fun entry => entry.2 = var) with
  | none =>
      have absent := List.find?_eq_none.mp found (role, var) member
      simp at absent
  | some entry =>
      have same : entry.2 = var := by simpa using List.find?_some found
      have equal : entry = (role, var) :=
        List.inj_on_of_nodup_map distinct (List.mem_of_find?_eq_some found) member same
      simp [equal]

end Layout

end Interlocking
