import Interlocking.Arena.Automata
import Interlocking.Proofs.Lookups
import Interlocking.Proofs.Monadic
import Interlocking.Proofs.Storage

/-!
# The automata of a stored layout

What is written from the records of an arena may fail at every access. Where the arena stores a
layout no access fails: the record of a piece has the bits of its kind, and from its sides all
lookups succeed. So searches and rules are those of the layout.
-/

namespace Interlocking

namespace Layout

variable {layout : Layout} {side : SideId}

/-! ## Searches -/

theorem maxDebounceCycles_arena : layout.arena.maxDebounceCycles = layout.maxDebounceCycles := by
  simp only [Arena.maxDebounceCycles, maxDebounceCycles, arena, Array.foldl_map]
  congr 1
  funext longest piece
  obtain ⟨name, occupancy, body⟩ := piece
  cases body with
  | straight straight =>
      obtain ⟨lane, kind, a, b⟩ := straight
      cases kind <;> rfl
  | turnout turnout => rfl
  | endpoint side => rfl

theorem mate_arena (has : layout.Has side) : layout.arena.mate side = .ok (layout.mate? side) := by
  obtain ⟨record, known⟩ := Option.isSome_iff_exists.mp has
  simp [Arena.mate, side_arena, Layout.side, mate?, known, Except.map]

theorem otherSide_arena (entry : SideId) :
    layout.arena.otherSide entry = layout.otherSide entry := by
  simp only [Arena.otherSide, otherSide, owner_arena]
  cases layout.owner entry with
  | error failure => rfl
  | ok piece =>
      obtain ⟨name, occupancy, body⟩ := piece
      cases body with
      | straight straight =>
          change (if straight.a = entry then _ else _) =
            Except.ok (some (ite (straight.a = entry) _ _))
          split <;> rfl
      | turnout turnout =>
          obtain ⟨kind, points, closed, thrown, seen, passages⟩ := turnout
          cases kind <;> rfl
      | endpoint side => rfl

theorem sight_element (piece : Piece) : piece.element.kind.sight = sight piece := by
  obtain ⟨name, occupancy, body⟩ := piece
  cases body with
  | straight straight =>
      obtain ⟨lane, kind, a, b⟩ := straight
      cases kind <;> rfl
  | turnout turnout => rfl
  | endpoint side => rfl

theorem searchBudget_arena : layout.arena.searchBudget = layout.searchBudget := by
  simp [Arena.searchBudget, searchBudget, arena]

theorem helperBit_element {name : String} {occupancy : Var} {straight : Straight} {helper : Var}
    (known : straight.kind.helper? = some helper) :
    (Piece.element { name, occupancy, body := .straight straight }).helperBit = .ok helper := by
  obtain ⟨lane, kind, a, b⟩ := straight
  cases kind with
  | short | long | detector => cases known
  | filtered | signal => exact congrArg Except.ok (Option.some.inj known)

section Framed

variable (framed : layout.Framed)

include framed

theorem Framed.onward_arena (has : layout.Has side) :
    layout.arena.onward side = layout.onward side := by
  obtain ⟨exit, told, leads⟩ := framed.exit_ok has
  simp only [Arena.onward, onward, otherSide_arena, told, bind, Except.bind]
  cases exit with
  | none => rfl
  | some exit => exact mate_arena (leads exit rfl)

/-- From every side one sees the same. -/
theorem Framed.outlook_arena : layout.arena.outlook = layout.outlook := by
  funext entry
  simp only [Arena.outlook, outlook, side_arena, owner_arena]
  cases known : layout.side? entry with
  | none => simp [Layout.side, known, bind, Except.bind]
  | some record =>
      have has : layout.Has entry := Option.isSome_of_eq_some known
      obtain ⟨piece, _, owner⟩ := framed.owner_ok has
      simp only [Layout.side, known, owner, Except.map, sight_element, framed.onward_arena has,
        bind, Except.bind]
      rfl

/-- In a stored layout the same detectors are found. -/
theorem Framed.detectors_arena :
    layout.arena.closeDetector = layout.closeDetector ∧
      layout.arena.farDetector = layout.farDetector ∧
      layout.arena.nextDetector = layout.nextDetector := by
  refine ⟨funext fun entry => ?_, funext fun entry => ?_, funext fun entry => ?_⟩
  · rw [Arena.closeDetector, closeDetector, framed.outlook_arena, searchBudget_arena]
  · rw [Arena.farDetector, farDetector, framed.outlook_arena, searchBudget_arena]
  · rw [Arena.nextDetector, nextDetector, framed.outlook_arena, searchBudget_arena]

theorem Framed.validateElement_arena (piece : Piece) :
    layout.arena.validateElement piece.element = layout.validatePiece piece := by
  obtain ⟨name, occupancy, body⟩ := piece
  cases body with
  | straight straight =>
      obtain ⟨lane, kind, a, b⟩ := straight
      cases kind with
      | signal request aspect used =>
          change (layout.arena.nextDetector b >>= fun _ => _) = layout.nextDetector b >>= fun _ => _
          rw [framed.detectors_arena.2.2]
      | short | long | detector | filtered => rfl
  | turnout turnout => rfl
  | endpoint side => rfl

theorem Framed.validate_arena : layout.arena.validate = layout.validate := by
  have each : layout.arena.validateElement ∘ Piece.element = layout.validatePiece :=
    funext framed.validateElement_arena
  rw [Arena.validate, validate, toList_elements_arena, ← each, List.forM_eq_forM, List.forM_map]
  rfl

/-! ## Rules -/

section Sides

variable (has : layout.Has side)

include has

theorem Framed.neighbourOccupancy_arena :
    layout.arena.neighbourOccupancy side = .ok (layout.neighbourOccupancy? side) := by
  simp only [Arena.neighbourOccupancy, mate_arena has, neighbourOccupancy?, bind, Except.bind]
  cases joined : layout.mate? side with
  | none => rfl
  | some mate =>
      obtain ⟨piece, _, owned⟩ := framed.owner?_of_has (framed.has_mate joined)
      simp [owner_arena, Layout.owner, owned, Except.map, pure, Except.pure, Piece.element]

theorem Framed.inlet_arena : layout.arena.inlet side = .ok (layout.inlet? side) := by
  simp only [Arena.inlet, mate_arena has, inlet?, bind, Except.bind]
  cases joined : layout.mate? side with
  | none => rfl
  | some mate =>
      obtain ⟨record, known⟩ := Option.isSome_iff_exists.mp (framed.has_mate joined)
      simp [side_arena, Layout.side, known, pure, Except.pure]

theorem Framed.outlet_arena : layout.arena.outlet side = .ok (layout.outlet? side) := by
  obtain ⟨record, known⟩ := Option.isSome_iff_exists.mp has
  simp only [Arena.outlet, side_arena, Layout.side, known, framed.neighbourOccupancy_arena has,
    outlet?, bind, Except.bind]
  cases layout.neighbourOccupancy? side <;> rfl

end Sides

section Sites

variable {site : Site}
  (leads : ∀ passage ∈ site.passages, layout.Has passage.entry ∧ layout.Has passage.exit)

include leads

theorem Framed.seenRulesIn_arena :
    site.seenRulesIn layout.arena = .ok (site.seenRules layout) := by
  have looked : site.passages.mapM (fun passage => do
        return (← layout.arena.neighbourOccupancy passage.exit).map (site.seenRule passage)) =
      .ok (site.passages.map fun passage =>
        (layout.neighbourOccupancy? passage.exit).map (site.seenRule passage)) := by
    apply mapM_eq_ok
    intro passage listed
    rw [framed.neighbourOccupancy_arena (leads passage listed).2]
    rfl
  rw [Site.seenRulesIn, looked]
  exact congrArg Except.ok (List.filterMap_map ..)

theorem Framed.passageRulesIn_arena {index : Nat} (inside : index < site.passages.length) :
    site.passageRulesIn layout.arena index = .ok (site.passageRules layout index) := by
  have placed := List.getElem?_eq_getElem inside
  obtain ⟨enters, leaves⟩ := leads _ (List.getElem_mem inside)
  simp only [Site.passageRulesIn, Site.passageRules, placed, framed.inlet_arena enters,
    framed.outlet_arena leaves, bind, Except.bind]
  cases layout.inlet? site.passages[index].entry <;> rfl

theorem Framed.contributeTrackingIn_arena (book : RuleBook) :
    site.contributeTrackingIn layout.arena book = .ok (site.contributeTracking layout book) := by
  rw [Site.contributeTrackingIn, framed.seenRulesIn_arena leads]
  rfl

theorem Framed.contributePassagesIn_arena (book : RuleBook) :
    site.contributePassagesIn layout.arena book = .ok (site.contributePassages layout book) := by
  unfold Site.contributePassagesIn Site.contributePassages
  have inside : ∀ index ∈ List.range site.passages.length, index < site.passages.length :=
    fun index => List.mem_range.mp
  generalize List.range site.passages.length = indices at inside
  induction indices generalizing book with
  | nil => rfl
  | cons index indices ih =>
      obtain ⟨here, others⟩ := List.forall_mem_cons.mp inside
      rw [List.foldlM_cons, framed.passageRulesIn_arena leads here]
      exact ih _ others

end Sites

/-! ## Automata -/

theorem Framed.has_passage {id : PieceId} {piece : Piece} (found : layout.piece? id = some piece) :
    ∀ passage ∈ piece.passages, layout.Has passage.entry ∧ layout.Has passage.exit := by
  intro passage member
  obtain ⟨enters, leaves, _⟩ := (framed.shaped found).leads member
  exact ⟨framed.has_of_listed found enters, framed.has_of_listed found leaves⟩

section Straight

variable {id : PieceId} {name : String} {occupancy : Var} {straight : Straight}
  (found : layout.piece? id = some { name, occupancy, body := .straight straight })

include found

theorem Framed.trackBook_arena (filter : List Rule) {simulated : Bool}
    (same : straight.simulated = simulated) :
    (Piece.element { name, occupancy, body := .straight straight }).trackBook layout.arena
      simulated filter = .ok (straight.trackBook layout name occupancy filter) := by
  subst same
  have leads := framed.has_passage found
  change (straight.site occupancy).contributeTrackingIn layout.arena _ >>= _ = _
  rw [framed.contributeTrackingIn_arena leads]
  exact framed.contributePassagesIn_arena leads _

theorem Framed.signalBook_arena {request aspect used : Var}
    (kind : straight.kind = .signal request aspect used) :
    (Piece.element { name, occupancy, body := .straight straight }).signalBook layout.arena
      request aspect = .ok (straight.signalBook layout name occupancy request aspect used) := by
  have leads : ∀ passage ∈ (straight.site occupancy).passages,
      layout.Has passage.entry ∧ layout.Has passage.exit := framed.has_passage found
  obtain ⟨enters, leaves⟩ := leads straight.ab List.mem_cons_self
  have hasA : layout.Has straight.a := framed.has_of_listed found (by simp [Piece.sides])
  have hasB : layout.Has straight.b := framed.has_of_listed found (by simp [Piece.sides])
  have second : (straight.site occupancy).passageRulesIn layout.arena 1 = .ok _ :=
    framed.passageRulesIn_arena leads Nat.one_lt_two
  generalize stored : Piece.element { name, occupancy, body := .straight straight } = element
  obtain ⟨named, occupied⟩ : element.name = name ∧ element.occupancy = occupancy := by
    simp [← stored, Piece.element]
  have sideA : element.side 0 = .ok straight.a := by rw [← stored]; rfl
  have sideB : element.side 1 = .ok straight.b := by rw [← stored]; rfl
  have lane : element.lane = .ok straight.toLane := by rw [← stored]; rfl
  have helper : element.helperBit = .ok used := by
    rw [← stored]
    exact helperBit_element (by simp [StraightKind.helper?, kind])
  have site : element.site false = .ok (straight.site occupancy) := by
    have simulated : straight.simulated = false := by simp [Straight.simulated, kind]
    rw [← stored, ← simulated]
    rfl
  simp only [Element.signalBook, Straight.signalBook, sideA, sideB, helper, lane, site, named,
    occupied, framed.neighbourOccupancy_arena hasA, framed.neighbourOccupancy_arena hasB,
    framed.contributeTrackingIn_arena leads, framed.inlet_arena enters, framed.outlet_arena leaves,
    second, bind, Except.bind, pure, Except.pure]

theorem Framed.straightBook_arena :
    (Piece.element { name, occupancy, body := .straight straight }).straightBook layout.arena
      straight.kind.track = .ok (straight.book layout name occupancy) := by
  cases kind : straight.kind with
  | short | long | detector sensor =>
      simp only [StraightKind.track, Element.straightBook, Straight.book, kind]
      exact framed.trackBook_arena found []
        (by simp [Straight.simulated, TrackKind.simulated, kind])
  | filtered raw window shadow =>
      have helper : straight.kind.helper? = some shadow := by simp [StraightKind.helper?, kind]
      simp only [StraightKind.track, Element.straightBook, Straight.book, kind,
        helperBit_element helper, bind, Except.bind]
      exact framed.trackBook_arena found _ (by simp [Straight.simulated, TrackKind.simulated, kind])
  | signal request aspect used =>
      simp only [StraightKind.track, Element.straightBook, Straight.book, kind]
      exact framed.signalBook_arena found kind

end Straight

theorem Framed.turnoutBook_arena {id : PieceId} {name : String} {occupancy : Var}
    {turnout : Turnout}
    (found : layout.piece? id = some { name, occupancy, body := .turnout turnout }) :
    (Piece.element { name, occupancy, body := .turnout turnout }).turnoutBook layout.arena
      turnout.kind.drive = .ok (turnout.book layout name occupancy) := by
  have leads : ∀ passage ∈ (turnout.site occupancy).passages,
      layout.Has passage.entry ∧ layout.Has passage.exit := framed.has_passage found
  have hasClosed : layout.Has turnout.closed :=
    framed.has_of_listed found (by simp [Piece.sides, Turnout.sides])
  have hasThrown : layout.Has turnout.thrown :=
    framed.has_of_listed found (by simp [Piece.sides, Turnout.sides])
  have site : (Piece.element { name, occupancy, body := .turnout turnout }).site true =
      .ok (turnout.site occupancy) := by
    obtain ⟨kind, points, closed, thrown, seen, passages⟩ := turnout
    cases kind <;> rfl
  simp only [Element.turnoutBook, site, framed.contributeTrackingIn_arena leads, bind, Except.bind,
    framed.contributePassagesIn_arena leads]
  obtain ⟨kind, points, closed, thrown, seen, passages⟩ := turnout
  cases kind with
  | fixed position =>
      cases position with
      | closed =>
          change (layout.arena.inlet thrown >>= fun _ => _) = _
          rw [framed.inlet_arena hasThrown]
          rfl
      | thrown =>
          change (layout.arena.inlet closed >>= fun _ => _) = _
          rw [framed.inlet_arena hasClosed]
          rfl
  | movable motor position anyRoute => rfl

theorem Framed.endpointBook_arena {id : PieceId} {name : String} {occupancy : Var} {side : SideId}
    (found : layout.piece? id = some { name, occupancy, body := .endpoint side }) :
    (Piece.element { name, occupancy, body := .endpoint side }).endpointBook layout.arena =
      .ok (endpointBook layout name side) := by
  have has : layout.Has side := framed.has_of_listed found (by simp [Piece.sides])
  obtain ⟨record, known⟩ := Option.isSome_iff_exists.mp has
  have first : (Piece.element { name, occupancy, body := .endpoint side }).side 0 = .ok side := rfl
  simp only [Element.endpointBook, first, framed.inlet_arena has, side_arena, Layout.side, known,
    bind, Except.bind, endpointBook]
  cases layout.inlet? side <;> rfl

theorem Framed.automaton_arena {id : PieceId} {piece : Piece}
    (found : layout.piece? id = some piece) :
    piece.element.automaton layout.arena = .ok (piece.automaton layout) := by
  obtain ⟨name, occupancy, body⟩ := piece
  cases body with
  | straight straight =>
      change Element.straightBook _ _ _ >>= _ = _
      rw [framed.straightBook_arena found]
      rfl
  | turnout turnout =>
      change Element.turnoutBook _ _ _ >>= _ = _
      rw [framed.turnoutBook_arena found]
      rfl
  | endpoint side =>
      change Element.endpointBook _ _ >>= _ = _
      rw [framed.endpointBook_arena found]
      rfl

/-- All automata of a stored layout can be written, and they are those of the layout. -/
theorem Framed.automata_arena : layout.arena.automata = .ok layout.automata := by
  rw [Arena.automata, toList_elements_arena, List.mapM_map]
  apply mapM_eq_ok
  intro piece listed
  obtain ⟨id, found⟩ := mem_pieces.mp listed
  exact framed.automaton_arena found

end Framed

end Layout

end Interlocking
