import Interlocking.Proofs.Formation
import Interlocking.Proofs.Lookups
import Mathlib.Data.Finset.Card
import Mathlib.Data.Nat.Find

/-!
# Searches for detectors

The search for a detector walks from piece to piece and gives up after as many pieces as the layout
has, and one more. There are more sides than pieces, and where two branches of a movable turnout
come together the walk can run into a loop that it did not begin in. Nevertheless nothing is missed:
a walk never comes back through a side by which it has left, so when it meets a piece for the second
time, it ends there, or it goes on as it did the first time.
-/

namespace Interlocking

namespace Piece

section Exits

variable {piece : Piece} {entry exit : SideId} (nodup : piece.sides.Nodup)
  (member : entry ∈ piece.sides) (leaves : piece.exit? entry = some exit)

include nodup member leaves

/-- A train that comes back takes the same way, if the piece decides it. -/
theorem exit?_back {other : SideId} (back : piece.exit? exit = some other) : other = entry := by
  have inside := (exit?_leads nodup member leaves).1
  rcases exit?_cases nodup with ⟨left, _, right, _, _, ways⟩ | ⟨points, _, ways⟩
  · have there := (ways entry member exit).mp leaves
    have home := (ways exit inside other).mp back
    grind
  · obtain ⟨_, rfl⟩ := (ways entry member exit).mp leaves
    exact absurd rfl ((ways exit inside other).mp back).1

/-- Of two trains the one leaves where the other enters, or both leave at the same side. -/
theorem exit?_apart {second out : SideId} (other : second ∈ piece.sides)
    (leavesToo : piece.exit? second = some out) : exit = second ∨ exit = out := by
  rcases exit?_cases nodup with ⟨left, _, right, _, _, ways⟩ | ⟨points, _, ways⟩
  · have first := (ways entry member exit).mp leaves
    have last := (ways second other out).mp leavesToo
    grind
  · obtain ⟨_, rfl⟩ := (ways entry member exit).mp leaves
    exact .inr ((ways second other out).mp leavesToo).2.symm

end Exits

end Piece

namespace Layout

variable {layout : Layout} {entry : SideId}

/-- The side on which a train leaves that entered at `entry`, if the layout alone decides it. -/
def exit? (layout : Layout) (entry : SideId) : Option SideId :=
  match layout.otherSide entry with
  | .ok exit => exit
  | .error _ => none

/-- The side at which a train enters the next piece, if it can be told and there is one. -/
def onward? (layout : Layout) (entry : SideId) : Option SideId :=
  (layout.exit? entry).bind layout.mate?

/-- The side at which the walk from `entry` enters the piece after so many steps. -/
def walk? (layout : Layout) : SideId → Nat → Option SideId
  | entry, 0 => some entry
  | entry, steps + 1 => (layout.onward? entry).bind fun next => layout.walk? next steps

theorem walk?_add (first second : Nat) : layout.walk? entry (first + second) =
    (layout.walk? entry first).bind fun side => layout.walk? side second := by
  induction first generalizing entry with
  | zero => simp [walk?]
  | succ first ih =>
      rw [Nat.succ_add, walk?, walk?, Option.bind_assoc]
      simp only [ih]

theorem walk?_succ (steps : Nat) :
    layout.walk? entry (steps + 1) = (layout.walk? entry steps).bind layout.onward? := by
  rw [walk?_add]
  simp [walk?]

theorem walk?_of_le {first last : Nat} {side : SideId}
    (there : layout.walk? entry last = some side) (before : first ≤ last) :
    ∃ middle, layout.walk? entry first = some middle := by
  obtain ⟨rest, rfl⟩ := Nat.exists_eq_add_of_le before
  rw [walk?_add] at there
  obtain ⟨middle, known, _⟩ := Option.bind_eq_some_iff.mp there
  exact ⟨middle, known⟩

theorem exit?_eq {piece : Piece} (owned : layout.owner? entry = some piece) :
    layout.exit? entry = piece.exit? entry := by
  rw [exit?, otherSide_eq owned]

/-- The side is one of the piece. -/
structure Belongs (layout : Layout) (side : SideId) (id : PieceId) (piece : Piece) : Prop where
  found : layout.piece? id = some piece
  listed : side ∈ piece.sides

theorem Framed.belongs (framed : layout.Framed) (has : layout.Has entry) :
    ∃ id piece, layout.Belongs entry id piece := by
  obtain ⟨record, known⟩ := Option.isSome_iff_exists.mp has
  obtain ⟨piece, found, listed⟩ := framed.owned known
  exact ⟨record.owner, piece, found, listed⟩

theorem Framed.owner?_of_belongs (framed : layout.Framed) {id : PieceId} {piece : Piece}
    (belongs : layout.Belongs entry id piece) : layout.owner? entry = some piece := by
  obtain ⟨record, known, owner⟩ := framed.listed belongs.found entry belongs.listed
  simp [owner?, known, owner, belongs.found]

theorem onward?_eq_some {next : SideId} : layout.onward? entry = some next ↔
    ∃ exit, layout.exit? entry = some exit ∧ layout.mate? exit = some next :=
  Option.bind_eq_some_iff

section Walks

variable {given : Var → Prop} (formed : layout.Formed given) (has : layout.Has entry)

include formed has

theorem Formed.has_walk {steps : Nat} {side : SideId}
    (there : layout.walk? entry steps = some side) :
    layout.Has side := by
  cases steps with
  | zero => exact Option.some.inj there ▸ has
  | succ steps =>
      rw [walk?_succ] at there
      obtain ⟨before, _, goes⟩ := Option.bind_eq_some_iff.mp there
      obtain ⟨exit, _, joined⟩ := onward?_eq_some.mp goes
      exact formed.framed.has_mate joined

/-- Leaving a piece leads to another of its sides, and from there back if anywhere. -/
theorem Formed.exit?_leads {exit : SideId} (leaves : layout.exit? entry = some exit) :
    exit ≠ entry ∧ ∀ back, layout.exit? exit = some back → back = entry := by
  obtain ⟨id, piece, belongs⟩ := formed.framed.belongs has
  have nodup := (formed.framed.shaped belongs.found).sides
  rw [exit?_eq (formed.framed.owner?_of_belongs belongs)] at leaves
  obtain ⟨inside, apart⟩ := Piece.exit?_leads nodup belongs.listed leaves
  refine ⟨apart, fun back returns => ?_⟩
  rw [exit?_eq (formed.framed.owner?_of_belongs ⟨belongs.found, inside⟩)] at returns
  exact Piece.exit?_back nodup belongs.listed leaves returns

/-- A walk does not enter a piece by a side by which it has left one. -/
theorem Formed.walk?_ne_exit {first gap : Nat} {left exit : SideId}
    (there : layout.walk? entry first = some left) (leaves : layout.exit? left = some exit) :
    layout.walk? entry (first + (gap + 1)) ≠ some exit := by
  -- Otherwise the walk would come back the way it went, and would have turned somewhere.
  induction gap using Nat.strong_induction_on generalizing first left exit with
  | _ gap ih =>
      intro enters
      rw [← Nat.add_assoc, walk?_succ] at enters
      obtain ⟨last, atLast, goes⟩ := Option.bind_eq_some_iff.mp enters
      obtain ⟨out, leavesLast, joined⟩ := onward?_eq_some.mp goes
      have mated := formed.framed.paired joined
      have second : layout.walk? entry (first + 1) = some out := by
        rw [walk?_succ, there]
        exact onward?_eq_some.mpr ⟨exit, leaves, mated⟩
      match gap with
      | 0 =>
          obtain rfl := Option.some.inj (atLast.symm.trans there)
          obtain rfl := Option.some.inj (leavesLast.symm.trans leaves)
          exact formed.apart _ joined
      | 1 =>
          obtain rfl := Option.some.inj (atLast.symm.trans second)
          exact (formed.exit?_leads (formed.has_walk has atLast) leavesLast).1 rfl
      | gap + 2 =>
          have later : first + 1 + 1 ≤ first + (gap + 2) := by omega
          obtain ⟨third, atThird⟩ := walk?_of_le atLast later
          rw [walk?_succ, second] at atThird
          obtain ⟨back, returns, _⟩ := onward?_eq_some.mp atThird
          obtain rfl := (formed.exit?_leads (formed.has_walk has atLast) leavesLast).2 back returns
          refine ih gap (by omega) second returns ?_
          rw [← atLast]
          congr 1
          omega

/-- Where a walk goes on from a piece that it has been to, it goes on as it did before. -/
theorem Formed.walk?_again {first second : Nat} {early late next : SideId} {id : PieceId}
    {piece : Piece} (before : first < second) (there : layout.walk? entry first = some early)
    (again : layout.walk? entry second = some late) (ofEarly : layout.Belongs early id piece)
    (ofLate : layout.Belongs late id piece)
    (goes : layout.walk? entry (second + 1) = some next) :
    layout.walk? entry (first + 1) = layout.walk? entry (second + 1) := by
  obtain ⟨after, went⟩ := walk?_of_le again (Nat.succ_le_of_lt before)
  rw [walk?_succ, there] at went
  obtain ⟨exit, leaves, _⟩ := onward?_eq_some.mp went
  rw [walk?_succ, again] at goes
  obtain ⟨out, leavesToo, _⟩ := onward?_eq_some.mp goes
  have nodup := (formed.framed.shaped ofEarly.found).sides
  have ofPiece := exit?_eq (formed.framed.owner?_of_belongs ofEarly)
  have ofPieceToo := exit?_eq (formed.framed.owner?_of_belongs ofLate)
  rcases Piece.exit?_apart nodup ofEarly.listed (ofPiece ▸ leaves) ofLate.listed
    (ofPieceToo ▸ leavesToo) with rfl | rfl
  · obtain ⟨gap, rfl⟩ := Nat.exists_eq_add_of_lt before
    have apart : layout.walk? entry (first + (gap + 1)) ≠ _ :=
      formed.walk?_ne_exit has there leaves
    exact absurd again apart
  · rw [walk?_succ, walk?_succ, there, again]
    simp only [Option.bind_some, onward?, leaves, leavesToo]

/-- A walk that visits more pieces than there are visits one of them twice. -/
theorem Formed.exists_again {side : SideId}
    (goes : layout.walk? entry (layout.pieces.size + 1) = some side) :
    ∃ first second, first < second ∧ second ≤ layout.pieces.size ∧
      layout.walk? entry (first + 1) = layout.walk? entry (second + 1) := by
  -- The place of the piece that is visited after so many steps.
  let place : Nat → Nat := fun steps =>
    ((layout.walk? entry steps).bind layout.side?).elim 0 (·.owner.index)
  have visited : ∀ steps ≤ layout.pieces.size, ∃ side piece,
      layout.walk? entry steps = some side ∧ layout.Belongs side ⟨place steps⟩ piece := by
    intro steps early
    obtain ⟨side, there⟩ := walk?_of_le goes (Nat.le_succ_of_le early)
    obtain ⟨record, known⟩ := Option.isSome_iff_exists.mp (formed.has_walk has there)
    obtain ⟨piece, found, listed⟩ := formed.framed.owned known
    have owner : place steps = record.owner.index := by simp [place, there, known]
    exact ⟨side, piece, there, owner ▸ found, listed⟩
  have inside : ∀ steps ∈ Finset.range (layout.pieces.size + 1),
      place steps ∈ Finset.range layout.pieces.size := by
    intro steps early
    have bounded := Nat.le_of_lt_succ (Finset.mem_range.mp early)
    obtain ⟨side, piece, _, belongs⟩ := visited steps bounded
    exact Finset.mem_range.mpr (Array.getElem?_eq_some_iff.mp belongs.found).1
  have again : ∀ first second, first < second → second ≤ layout.pieces.size →
      place first = place second →
      layout.walk? entry (first + 1) = layout.walk? entry (second + 1) := by
    intro first second before late same
    obtain ⟨_, piece, there, ofEarly⟩ := visited first (by omega)
    obtain ⟨_, other, again, ofLate⟩ := visited second late
    obtain ⟨next, goesOn⟩ := walk?_of_le goes (Nat.succ_le_succ late)
    rw [same] at ofEarly
    obtain rfl := Option.some.inj (ofEarly.found.symm.trans ofLate.found)
    exact formed.walk?_again has before there again ofEarly ofLate goesOn
  obtain ⟨first, early, second, late, apart, same⟩ :=
    Finset.exists_ne_map_eq_of_card_lt_of_maps_to (by simp) inside
  have early := Nat.le_of_lt_succ (Finset.mem_range.mp early)
  have late := Nat.le_of_lt_succ (Finset.mem_range.mp late)
  rcases Nat.lt_or_gt_of_ne apart with before | behind
  · exact ⟨first, second, before, late, again first second before late same⟩
  · exact ⟨second, first, behind, early, again second first behind early same.symm⟩

/-- Later it comes to no piece at which it has not been by then. -/
theorem Formed.walk?_repeats {side : SideId}
    (goes : layout.walk? entry (layout.pieces.size + 1) = some side) (steps : Nat) :
    ∃ earlier ≤ layout.pieces.size, layout.walk? entry steps = layout.walk? entry earlier := by
  obtain ⟨first, second, before, late, again⟩ := formed.exists_again has goes
  induction steps using Nat.strong_induction_on with
  | _ steps ih =>
      by_cases early : steps ≤ layout.pieces.size
      · exact ⟨steps, early, rfl⟩
      · obtain ⟨rest, rfl⟩ := Nat.exists_eq_add_of_le (by omega : second + 1 ≤ steps)
        obtain ⟨earlier, bounded, same⟩ := ih (first + 1 + rest) (by omega)
        refine ⟨earlier, bounded, ?_⟩
        rw [← same, walk?_add (first + 1), walk?_add (second + 1), again]

end Walks

/-- The piece at which the walk from `entry` is after so many steps. -/
def visit? (layout : Layout) (entry : SideId) (steps : Nat) : Option Piece :=
  (layout.walk? entry steps).bind layout.owner?

/-- Of the pieces on the walk this is the first one of its kind. -/
def Reaches (layout : Layout) (kind : Piece → Bool) (entry : SideId) (piece : Piece) : Prop :=
  ∃ steps, layout.visit? entry steps = some piece ∧ kind piece = true ∧
    ∀ earlier < steps, ∀ other ∈ layout.visit? entry earlier, kind other = false

/-- The walk comes to an end, and no piece on it is of the kind. -/
def RunsOut (layout : Layout) (kind : Piece → Bool) (entry : SideId) : Prop :=
  (∃ steps, layout.visit? entry steps = none) ∧
    ∀ steps, ∀ piece ∈ layout.visit? entry steps, kind piece = false

/-- The walk goes on for ever, and no piece on it is of the kind. -/
def Circles (layout : Layout) (kind : Piece → Bool) (entry : SideId) : Prop :=
  ∀ steps, ∃ piece, layout.visit? entry steps = some piece ∧ kind piece = false

theorem visit?_succ {next : SideId} (goes : layout.onward? entry = some next) (steps : Nat) :
    layout.visit? entry (steps + 1) = layout.visit? next steps := by
  simp [visit?, walk?, goes]

/-- One of the three is the case. -/
theorem reaches_or (layout : Layout) (kind : Piece → Bool) (entry : SideId) :
    (∃ piece, layout.Reaches kind entry piece) ∨ layout.RunsOut kind entry ∨
      layout.Circles kind entry := by
  by_cases seen : ∃ steps, ∃ piece ∈ layout.visit? entry steps, kind piece = true
  · classical
    obtain ⟨piece, visited, ofKind⟩ := Nat.find_spec seen
    refine .inl ⟨piece, Nat.find seen, visited, ofKind, ?_⟩
    intro earlier before other met
    by_contra alsoOfKind
    exact Nat.find_min seen before ⟨other, met, by simpa using alsoOfKind⟩
  · have unseen : ∀ steps, ∀ piece ∈ layout.visit? entry steps, kind piece = false := by
      intro steps piece visited
      by_contra ofKind
      exact seen ⟨steps, piece, visited, by simpa using ofKind⟩
    by_cases ends : ∃ steps, layout.visit? entry steps = none
    · exact .inr (.inl ⟨ends, unseen⟩)
    · refine .inr (.inr fun steps => ?_)
      obtain ⟨piece, visited⟩ := Option.ne_none_iff_exists'.mp fun none => ends ⟨steps, none⟩
      exact ⟨piece, visited, unseen steps piece visited⟩

/-- The function searches along the walk for the first piece of a kind, as far as its budget goes,
and gives an answer about it. -/
structure Searches (layout : Layout) (kind : Piece → Bool) (answer : Piece → Option Var)
    (search : Nat → SideId → Except Failure (Option Var)) : Prop where
  spent : ∀ {entry piece}, layout.owner? entry = some piece →
    search 0 entry = .error (.defect (.lookupCycle piece.name))
  found : ∀ {budget entry piece}, layout.owner? entry = some piece → kind piece = true →
    search (budget + 1) entry = .ok (answer piece)
  ended : ∀ {budget entry piece}, layout.owner? entry = some piece → kind piece = false →
    layout.onward? entry = none → search (budget + 1) entry = .ok none
  goes : ∀ {budget entry piece next}, layout.owner? entry = some piece → kind piece = false →
    layout.onward? entry = some next → search (budget + 1) entry = search budget next

namespace Searches

variable {kind : Piece → Bool} {answer : Piece → Option Var}
  {search : Nat → SideId → Except Failure (Option Var)} {given : Var → Prop}
  (searches : layout.Searches kind answer search) (formed : layout.Formed given)
  (has : layout.Has entry) {budget : Nat}

include searches formed has

theorem of_visit {steps : Nat} {piece : Piece} (enough : steps < budget)
    (visited : layout.visit? entry steps = some piece) (ofKind : kind piece = true)
    (first : ∀ earlier < steps, ∀ other ∈ layout.visit? entry earlier, kind other = false) :
    search budget entry = .ok (answer piece) := by
  induction steps generalizing entry budget with
  | zero =>
      obtain ⟨budget, rfl⟩ := Nat.exists_eq_succ_of_ne_zero (Nat.ne_of_gt enough)
      exact searches.found visited ofKind
  | succ steps ih =>
      obtain ⟨budget, rfl⟩ := Nat.exists_eq_add_of_lt (Nat.zero_lt_of_lt enough)
      obtain ⟨own, _, owned⟩ := formed.framed.owner?_of_has has
      cases onward : layout.onward? entry with
      | none => simp [visit?, walk?, onward] at visited
      | some next =>
          obtain ⟨exit, _, joined⟩ := onward?_eq_some.mp onward
          rw [searches.goes owned (first 0 (Nat.succ_pos _) own owned) onward]
          refine ih (formed.framed.has_mate joined) (Nat.lt_of_succ_lt_succ enough)
            (visit?_succ onward steps ▸ visited) fun earlier before other met => ?_
          exact first (earlier + 1) (Nat.succ_lt_succ before) other (visit?_succ onward _ ▸ met)

theorem of_end (ends : layout.walk? entry budget = none)
    (unseen : ∀ steps, ∀ piece ∈ layout.visit? entry steps, kind piece = false) :
    search budget entry = .ok none := by
  induction budget generalizing entry with
  | zero => cases ends
  | succ budget ih =>
      obtain ⟨own, _, owned⟩ := formed.framed.owner?_of_has has
      cases onward : layout.onward? entry with
      | none => exact searches.ended owned (unseen 0 own owned) onward
      | some next =>
          obtain ⟨exit, _, joined⟩ := onward?_eq_some.mp onward
          rw [searches.goes owned (unseen 0 own owned) onward]
          refine ih (formed.framed.has_mate joined) (by simpa [walk?, onward] using ends) ?_
          exact fun steps piece met => unseen (steps + 1) piece (visit?_succ onward _ ▸ met)

omit formed has in
theorem of_circles (circles : layout.Circles kind entry) :
    ∃ name, search budget entry = .error (.defect (.lookupCycle name)) := by
  obtain ⟨own, owned, notOfKind⟩ := circles 0
  induction budget generalizing entry own with
  | zero => exact ⟨own.name, searches.spent owned⟩
  | succ budget ih =>
      cases onward : layout.onward? entry with
      | none =>
          obtain ⟨piece, visited, _⟩ := circles 1
          simp [visit?, walk?, onward] at visited
      | some next =>
          rw [searches.goes owned notOfKind onward]
          have circlesOn : layout.Circles kind next :=
            fun steps => visit?_succ onward steps ▸ circles (steps + 1)
          obtain ⟨after, owns, alsoNot⟩ := circlesOn 0
          exact ih circlesOn after owns alsoNot

/-- The budget is always enough to find the first piece of the kind. -/
theorem of_reaches {piece : Piece} (reaches : layout.Reaches kind entry piece) :
    search layout.searchBudget entry = .ok (answer piece) := by
  obtain ⟨steps, visited, ofKind, first⟩ := reaches
  refine searches.of_visit formed has (Nat.lt_succ_of_le ?_) visited ofKind first
  by_contra late
  obtain ⟨side, there, owned⟩ := Option.bind_eq_some_iff.mp visited
  obtain ⟨last, goes⟩ := walk?_of_le there (Nat.lt_of_not_le late)
  obtain ⟨earlier, bounded, same⟩ := formed.walk?_repeats has goes steps
  have met : layout.visit? entry earlier = some piece := by
    rw [visit?, ← same]
    exact visited
  have notOfKind := first earlier (Nat.lt_of_le_of_lt bounded (Nat.lt_of_not_le late)) piece met
  rw [ofKind] at notOfKind
  cases notOfKind

/-- The budget is always enough to come to the end of a walk. -/
theorem of_runsOut (runsOut : layout.RunsOut kind entry) :
    search layout.searchBudget entry = .ok none := by
  obtain ⟨⟨steps, ends⟩, unseen⟩ := runsOut
  refine searches.of_end formed has ?_ unseen
  by_contra going
  obtain ⟨side, goes⟩ := Option.ne_none_iff_exists'.mp going
  obtain ⟨earlier, bounded, same⟩ := formed.walk?_repeats has goes steps
  obtain ⟨middle, there⟩ := walk?_of_le goes (Nat.le_succ_of_le bounded)
  obtain ⟨piece, _, owned⟩ := formed.framed.owner?_of_has (formed.has_walk has there)
  rw [visit?, same, there, Option.bind_some, owned] at ends
  cases ends

/-- A search with the full budget succeeds exactly if the walk reaches a piece of the kind or comes
to an end. -/
theorem ok_iff {result : Option Var} : search layout.searchBudget entry = .ok result ↔
    (∃ piece, layout.Reaches kind entry piece ∧ answer piece = result) ∨
      layout.RunsOut kind entry ∧ result = none := by
  constructor
  · intro told
    rcases layout.reaches_or kind entry with ⟨piece, reaches⟩ | runsOut | circles
    · have answers := (searches.of_reaches formed has reaches).symm.trans told
      exact .inl ⟨piece, reaches, Except.ok.inj answers⟩
    · have answers := (searches.of_runsOut formed has runsOut).symm.trans told
      exact .inr ⟨runsOut, (Except.ok.inj answers).symm⟩
    · obtain ⟨name, failed⟩ := searches.of_circles circles
      cases failed.symm.trans told
  · rintro (⟨piece, reaches, rfl⟩ | ⟨runsOut, rfl⟩)
    · exact searches.of_reaches formed has reaches
    · exact searches.of_runsOut formed has runsOut

/-- A search with the full budget that gives no answer runs around a loop, and reports one. -/
theorem circles_of_error {failure : Failure}
    (failed : search layout.searchBudget entry = .error failure) :
    layout.Circles kind entry ∧ ∃ name, failure = .defect (.lookupCycle name) := by
  rcases layout.reaches_or kind entry with ⟨piece, reaches⟩ | runsOut | circles
  · cases (searches.of_reaches formed has reaches).symm.trans failed
  · cases (searches.of_runsOut formed has runsOut).symm.trans failed
  · obtain ⟨name, told⟩ := searches.of_circles circles
    exact ⟨circles, name, Except.error.inj (failed.symm.trans told)⟩

end Searches

end Layout

/-- The piece is longer than any train. -/
def Piece.long (piece : Piece) : Bool :=
  match piece.body with
  | .straight { kind := .long, .. } => true
  | _ => false

/-- The piece decides whether a detector is close. -/
def Piece.decisive (piece : Piece) : Bool := piece.hasDetector || piece.long

/-- The detector of a piece that has one. -/
def Piece.detector? (piece : Piece) : Option Var :=
  if piece.hasDetector then some piece.occupancy else none

namespace Layout

variable {layout : Layout} {entry : SideId} {piece : Piece}

theorem onward_eq (owned : layout.owner? entry = some piece) :
    layout.onward entry = .ok (layout.onward? entry) := by
  simp only [onward, onward?, otherSide_eq owned, exit?_eq owned, bind, Except.bind]
  cases piece.exit? entry <;> rfl

/-- What is said of a piece in the terms of the searches. -/
theorem sight_eq (piece : Piece) :
    piece.hasDetector = decide (sight piece = .measured) ∧
      piece.long = decide (sight piece = .distant) ∧
      (sight piece = .blind → ∀ entry, piece.exit? entry = none) := by
  obtain ⟨name, occupancy, body⟩ := piece
  cases body with
  | straight straight =>
      obtain ⟨⟨seen, ab, ba⟩, kind, a, b⟩ := straight
      cases kind <;> simp [Piece.hasDetector, Piece.long, sight]
  | turnout turnout => simp [Piece.hasDetector, Piece.long, sight]
  | endpoint side => simp [Piece.hasDetector, Piece.long, sight, Piece.exit?]

/-- A decisive piece without a detector is a long one. -/
theorem detector?_eq_none_iff (decisive : piece.decisive = true) :
    piece.detector? = none ↔ piece.long = true := by
  obtain ⟨measured, distant, _⟩ := sight_eq piece
  rw [Piece.decisive, measured, distant] at decisive
  rw [Piece.detector?, measured, distant]
  cases seen : sight piece <;> simp_all

theorem onward?_of_blind (owned : layout.owner? entry = some piece) (blind : sight piece = .blind) :
    layout.onward? entry = none := by
  rw [onward?, exit?_eq owned, (sight_eq piece).2.2 blind]
  rfl

theorem cycleAt_eq {α : Type} (owned : layout.owner? entry = some piece) :
    (layout.outlook.cycleAt entry : Except Failure α) =
      .error (.defect (.lookupCycle piece.name)) := by
  obtain ⟨side, known, _⟩ := Option.bind_eq_some_iff.mp owned
  simp only [Outlook.cycleAt, outlook_eq known owned, bind, Except.bind]
  rfl

/-- The close detector seen from `entry` or else the far one, with one budget for both. -/
def nextWithin (layout : Layout) (budget : Nat) (entry : SideId) : Except Failure (Option Var) := do
  match ← layout.outlook.closeWithin budget entry with
  | some detector => return some detector
  | none => layout.outlook.farWithin budget entry

theorem closeWithin_succ (owned : layout.owner? entry = some piece) (budget : Nat) :
    layout.outlook.closeWithin (budget + 1) entry = match sight piece with
      | .measured => .ok (some piece.occupancy)
      | .distant | .blind => .ok none
      | .through => (layout.onward? entry).elim (.ok none) (layout.outlook.closeWithin budget) := by
  obtain ⟨side, known, _⟩ := Option.bind_eq_some_iff.mp owned
  simp only [Outlook.closeWithin, outlook_eq known owned, onward_eq owned, bind, Except.bind]
  cases sight piece with
  | measured | distant | blind => rfl
  | through => cases layout.onward? entry <;> rfl

theorem farWithin_succ (owned : layout.owner? entry = some piece) (budget : Nat) :
    layout.outlook.farWithin (budget + 1) entry = match sight piece with
      | .blind => .ok none
      | .through => (layout.onward? entry).elim (.ok none) (layout.outlook.farWithin budget)
      | .measured | .distant =>
          (layout.onward? entry).elim (.ok none) (layout.nextWithin budget) := by
  obtain ⟨side, known, _⟩ := Option.bind_eq_some_iff.mp owned
  simp only [Outlook.farWithin, outlook_eq known owned, onward_eq owned, bind, Except.bind]
  cases sight piece with
  | blind => rfl
  | through | measured | distant => cases layout.onward? entry <;> rfl

/-- The search for a close detector ends at the first decisive piece. -/
theorem searches_close (layout : Layout) :
    layout.Searches Piece.decisive Piece.detector? layout.outlook.closeWithin where
  spent owned := cycleAt_eq owned
  found {budget entry piece} owned decisive := by
    obtain ⟨measured, distant, _⟩ := sight_eq piece
    rw [closeWithin_succ owned, Piece.detector?, measured]
    rw [Piece.decisive, measured, distant] at decisive
    cases seen : sight piece <;> simp_all
  ended {budget entry piece} owned undecided ends := by
    obtain ⟨measured, distant, _⟩ := sight_eq piece
    rw [closeWithin_succ owned, ends]
    rw [Piece.decisive, measured, distant] at undecided
    cases seen : sight piece <;> simp_all
  goes {budget entry piece next} owned undecided goes := by
    obtain ⟨measured, distant, _⟩ := sight_eq piece
    have blind := onward?_of_blind owned
    rw [closeWithin_succ owned, goes]
    rw [Piece.decisive, measured, distant] at undecided
    cases seen : sight piece <;> simp_all

/-- The two searches together end at the first detector. -/
theorem searches_next (layout : Layout) :
    layout.Searches Piece.hasDetector (fun piece => some piece.occupancy) layout.nextWithin where
  spent owned := by
    simp only [nextWithin, Outlook.closeWithin, cycleAt_eq owned, bind, Except.bind]
  found {budget entry piece} owned measured := by
    rw [(sight_eq piece).1, decide_eq_true_iff] at measured
    simp only [nextWithin, closeWithin_succ owned, measured, bind, Except.bind]
    rfl
  ended {budget entry piece} owned unmeasured ends := by
    rw [(sight_eq piece).1] at unmeasured
    rw [nextWithin, closeWithin_succ owned, farWithin_succ owned, ends]
    cases seen : sight piece <;> simp_all [bind, Except.bind]
  goes {budget entry piece next} owned unmeasured goes := by
    have blind := onward?_of_blind owned
    rw [(sight_eq piece).1] at unmeasured
    rw [nextWithin, closeWithin_succ owned, farWithin_succ owned, goes]
    cases seen : sight piece <;> simp_all [nextWithin, bind, Except.bind]

theorem nextDetector_eq {side : Side} (known : layout.side? entry = some side)
    (owned : layout.owner? entry = some piece) :
    layout.nextDetector entry = (layout.nextWithin layout.searchBudget entry).bind fun answer =>
      answer.elim (.error (.defect (.noDetector piece.name side.label))) .ok := by
  simp only [nextDetector, Outlook.nextWithin, nextWithin, outlook_eq known owned, bind, Except.bind]
  cases layout.outlook.closeWithin layout.searchBudget entry with
  | error failure => rfl
  | ok close =>
      cases close with
      | some detector => rfl
      | none =>
          cases layout.outlook.farWithin layout.searchBudget entry with
          | error failure => rfl
          | ok far => cases far <;> rfl

section Lookups

variable {given : Var → Prop} (formed : layout.Formed given) {side : Side}
  (known : layout.side? entry = some side) (owned : layout.owner? entry = some piece)

include formed known owned

theorem Formed.nextDetector_ok_iff (var : Var) : layout.nextDetector entry = .ok var ↔
    ∃ seen, layout.Reaches Piece.hasDetector entry seen ∧ seen.occupancy = var := by
  have has : layout.Has entry := Option.isSome_of_eq_some known
  rw [nextDetector_eq known owned]
  constructor
  · intro told
    cases searched : layout.nextWithin layout.searchBudget entry with
    | error failure => simp [searched, Except.bind] at told
    | ok answer =>
        cases answer with
        | none => simp [searched, Except.bind] at told
        | some detector =>
            obtain rfl : detector = var := by simpa [searched, Except.bind] using told
            simpa using (layout.searches_next.ok_iff formed has).mp searched
  · rintro ⟨seen, reaches, rfl⟩
    rw [layout.searches_next.of_reaches formed has reaches]
    rfl

theorem Formed.nextDetector_none_iff :
    layout.nextDetector entry = .error (.defect (.noDetector piece.name side.label)) ↔
      layout.RunsOut Piece.hasDetector entry := by
  have has : layout.Has entry := Option.isSome_of_eq_some known
  rw [nextDetector_eq known owned]
  constructor
  · intro told
    cases searched : layout.nextWithin layout.searchBudget entry with
    | error failure =>
        obtain ⟨_, name, rfl⟩ := layout.searches_next.circles_of_error formed has searched
        simp [searched, Except.bind] at told
    | ok answer =>
        cases answer with
        | none => simpa using (layout.searches_next.ok_iff formed has).mp searched
        | some detector => simp [searched, Except.bind] at told
  · intro runsOut
    rw [layout.searches_next.of_runsOut formed has runsOut]
    rfl

theorem Formed.nextDetector_cycle_iff :
    (∃ name, layout.nextDetector entry = .error (.defect (.lookupCycle name))) ↔
      layout.Circles Piece.hasDetector entry := by
  have has : layout.Has entry := Option.isSome_of_eq_some known
  rw [nextDetector_eq known owned]
  constructor
  · rintro ⟨name, told⟩
    cases searched : layout.nextWithin layout.searchBudget entry with
    | error failure => exact (layout.searches_next.circles_of_error formed has searched).1
    | ok answer => cases answer <;> simp [searched, Except.bind] at told
  · intro circles
    obtain ⟨name, searched⟩ := layout.searches_next.of_circles circles
    exact ⟨name, by rw [searched]; rfl⟩

end Lookups

end Layout

section Balloon

/-- A long piece in front of a detector, and a turnout whose points lead back to a branch. -/
def balloon : Layout :=
  ((Yard.empty {}).performAll [
    .external "c", .external "d", .external "s", .long "l", .movableTurnout "t" ⟨⟨0⟩, ⟨1⟩⟩,
    .short "p", .detector "f" ⟨2⟩, .join ⟨1⟩ ⟨7⟩, .join ⟨2⟩ ⟨5⟩, .join ⟨6⟩ ⟨4⟩]).layout

theorem balloon_shows :
    (∃ side ∈ balloon.side? ⟨0⟩, side.label = "a") ∧
    (∃ side ∈ balloon.side? ⟨3⟩, side.label = "closed") ∧
    balloon.nextDetector ⟨0⟩ = .ok ⟨2⟩ ∧ balloon.closeDetector ⟨0⟩ = .ok none ∧
    balloon.nextDetector ⟨3⟩ = .error (.defect (.lookupCycle "p")) := by
  decide +kernel

end Balloon

/-- The lookup of the next detector finds the first detector on the walk, reports that there is
none exactly if the walk ends without one, and a loop exactly if it goes on for ever without one.
The lookup of a close detector finds the same one if no long piece comes before it, and nothing
exactly if the walk comes to a long piece first or ends first. -/
theorem detector_lookup_is_exact (config : Config) (orders : List Order) {layout : Layout}
    (built : ((Yard.empty config).performAll orders).layout = layout) {entry : SideId} {side : Side}
    (known : layout.side? entry = some side) :
    ∃ piece, layout.owner? entry = some piece ∧
      (∀ var, layout.nextDetector entry = .ok var ↔
        ∃ seen, layout.Reaches Piece.hasDetector entry seen ∧ seen.occupancy = var) ∧
      (layout.nextDetector entry = .error (.defect (.noDetector piece.name side.label)) ↔
        layout.RunsOut Piece.hasDetector entry) ∧
      ((∃ name, layout.nextDetector entry = .error (.defect (.lookupCycle name))) ↔
        layout.Circles Piece.hasDetector entry) ∧
      (∀ var, layout.closeDetector entry = .ok (some var) ↔ ∃ seen,
        layout.Reaches Piece.decisive entry seen ∧ seen.hasDetector = true ∧ seen.occupancy = var) ∧
      (layout.closeDetector entry = .ok none ↔
        (∃ seen, layout.Reaches Piece.decisive entry seen ∧ seen.long = true) ∨
          layout.RunsOut Piece.decisive entry) ∧
      ((∃ name, layout.closeDetector entry = .error (.defect (.lookupCycle name))) ↔
        layout.Circles Piece.decisive entry) := by
  have formed : layout.Formed fun _ => True :=
    built ▸ (Yard.performAll_formed (.empty config) fun _ _ _ _ => trivial).layout
  have has : layout.Has entry := Option.isSome_of_eq_some known
  obtain ⟨piece, _, owned⟩ := formed.framed.owner?_of_has has
  have close := layout.searches_close
  refine ⟨piece, owned, formed.nextDetector_ok_iff known owned,
    formed.nextDetector_none_iff known owned, formed.nextDetector_cycle_iff known owned, ?_, ?_, ?_⟩
  · intro var
    have told : layout.closeDetector entry = .ok (some var) ↔ _ := close.ok_iff formed has
    simpa [Piece.detector?] using told
  · refine (close.ok_iff formed has).trans (or_congr (exists_congr fun seen => ?_) (by simp))
    exact and_congr_right fun ⟨_, _, decisive, _⟩ => Layout.detector?_eq_none_iff decisive
  · constructor
    · rintro ⟨name, failed⟩
      exact (close.circles_of_error formed has failed).1
    · exact close.of_circles

theorem detector_lookup_is_exact_at_balloon :
    balloon.nextDetector ⟨0⟩ = .ok ⟨2⟩ ∧
      (∃ seen, balloon.Reaches Piece.hasDetector ⟨0⟩ seen ∧ seen.occupancy = ⟨2⟩) ∧
      balloon.closeDetector ⟨0⟩ = .ok none ∧
      ((∃ seen, balloon.Reaches Piece.decisive ⟨0⟩ seen ∧ seen.long = true) ∨
        balloon.RunsOut Piece.decisive ⟨0⟩) ∧
      balloon.nextDetector ⟨3⟩ = .error (.defect (.lookupCycle "p")) ∧
      balloon.Circles Piece.hasDetector ⟨3⟩ := by
  obtain ⟨⟨side, known, _⟩, ⟨branch, knownToo, _⟩, next, close, cycle⟩ := balloon_shows
  obtain ⟨_, _, found, _, _, _, closed, _⟩ := detector_lookup_is_exact {} _ rfl known
  obtain ⟨_, _, _, _, circles, _⟩ := detector_lookup_is_exact {} _ rfl knownToo
  exact ⟨next, (found _).mp next, close, closed.mp close, cycle, circles.mp ⟨_, cycle⟩⟩

end Interlocking
