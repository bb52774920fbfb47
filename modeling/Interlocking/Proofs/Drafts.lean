import Interlocking.Proofs.Representation

/-!
# Drafts of pieces

Every kind of piece is prepared in a scope of its own. The lemmas here say, kind by kind,
that the finished draft uses each variable that the scope handed out exactly once, and
that its passages have the shape of its kind.
-/

namespace Interlocking

/-- The bits of a side in the order of their addresses. -/
def Handshake.vars (bits : Handshake) : List Var :=
  [bits.request, bits.granted, bits.denied, bits.released]

@[simp] theorem Handshake.roles_vars (bits : Handshake) (side : SideId) :
    (bits.roles side).map (·.2) = bits.vars := rfl

/-- The bits of a passage in the order of their addresses. -/
def Passage.vars (passage : Passage) : List Var := [passage.route, passage.pending]

@[simp] theorem Passage.roles_vars (passages : List Passage) :
    (passages.flatMap Passage.roles).map (·.2) = passages.flatMap Passage.vars := by
  induction passages with
  | nil => rfl
  | cons passage passages ih =>
      rw [List.flatMap_cons, List.map_append, ih]
      rfl

/-- The piece that a draft becomes. -/
def Draft.piece (draft : Draft) (name : String) : Piece where
  name
  occupancy := draft.occupancy
  body := draft.body

/-- A draft of the piece `id`, with sides numbered from `first`, that uses the variables
`vars` for its own bits and takes all others from those that satisfy `given`. -/
structure Draft.Fits (draft : Draft) (name : String) (id : PieceId) (first : Nat)
    (given : Var → Prop) (vars : List Var) : Prop where
  handed : vars = draft.sides.flatMap (·.bits.vars) ++ ((draft.piece name).roles id).map (·.2)
  fresh : ∀ side ∈ draft.sides, side.owner = id ∧ side.mate = none
  numbered : (draft.piece name).sides = (List.range' first draft.sides.length).map SideId.mk
  shaped : (draft.piece name).Shaped
  supplied : ∀ var ∈ (draft.piece name).supplied, given var

theorem Side.allocate_hands (label : String) (owner : PieceId) :
    Scoped.Hands (Side.allocate label owner)
      (fun side vars => vars = side.bits.vars ∧ side.owner = owner ∧ side.mate = none) := by
  apply Scope.within_hands
  apply (Scope.allocate_hands _).bind
  intro request _ handed
  subst handed
  apply (Scope.allocate_hands _).bind
  intro granted _ handed
  subst handed
  apply (Scope.allocate_hands _).bind
  intro denied _ handed
  subst handed
  apply (Scope.allocate_hands _).bind
  intro released _ handed
  subst handed
  exact .pure ⟨rfl, rfl, rfl⟩

theorem Passage.allocate_hands (label : String) (entry exit : SideId)
    (position : Option Position) :
    Scoped.Hands (Passage.allocate label entry exit position)
      (fun passage vars => vars = passage.vars ∧ passage.course = ⟨entry, exit, position⟩) := by
  apply (Scope.allocate_hands _).bind
  intro route _ handed
  subst handed
  apply (Scope.allocate_hands _).bind
  intro pending _ handed
  subst handed
  exact .pure ⟨rfl, rfl⟩

/-- What a straight piece of a kind takes from its scope: `occupied` for its occupancy and
`others` for what only its kind needs. -/
def StraightKind.Takes (kind : StraightKind) (given : Var → Prop) (occupancy : Var)
    (occupied others : List Var) : Prop :=
  match kind with
  | .short | .long => occupied = [occupancy] ∧ others = []
  | .detector sensor => occupied = [] ∧ others = [] ∧ given occupancy ∧ given sensor
  | .filtered raw _ shadow => occupied = [occupancy] ∧ others = [shadow] ∧ given raw
  | .signal request aspect used =>
      occupied = [occupancy] ∧ others = [used] ∧ given request ∧ given aspect

theorem Straight.draft_hands {occupancy : Scoped Var} {kind : Scoped StraightKind}
    {occupied : Var → List Var → Prop} {others : StraightKind → List Var → Prop}
    {given : Var → Prop} (occupancyHands : Scoped.Hands occupancy occupied)
    (kindHands : Scoped.Hands kind others)
    (takes : ∀ var vars kind vars', occupied var vars → others kind vars' →
      kind.Takes given var vars vars')
    (name : String) (id : PieceId) (first : Nat) :
    Scoped.Hands (Straight.draft occupancy kind id first)
      (fun draft vars => draft.Fits name id first given vars) := by
  apply (Side.allocate_hands "a" id).bind
  intro sideA _ ⟨handedA, ownerA, mateA⟩
  apply (Side.allocate_hands "b" id).bind
  intro sideB _ ⟨handedB, ownerB, mateB⟩
  apply occupancyHands.bind
  intro occupancy occupancyVars occupied
  apply (Scope.allocate_hands _).bind
  intro seen _ handedSeen
  apply kindHands.bind
  intro kind kindVars others
  apply (Passage.allocate_hands _ _ _ _).bind
  intro ab _ ⟨handedAb, leadsAb⟩
  apply (Passage.allocate_hands _ _ _ _).bind
  intro ba _ ⟨handedBa, leadsBa⟩
  apply Scoped.Hands.pure
  have taken := takes _ _ _ _ occupied others
  subst handedA handedB handedSeen handedAb handedBa
  constructor
  · cases kind <;> simp only [StraightKind.Takes] at taken <;>
      simp [taken, Draft.piece, Piece.roles, Piece.sensed, Piece.seen?, Piece.helper?,
        Piece.passages, Piece.position?, Piece.anyRoute?, Passage.roles, Passage.vars]
  · simp [ownerA, ownerB, mateA, mateB]
  · rfl
  · exact ⟨by simp [Draft.piece, Piece.sides], by
      simp [Draft.piece, Piece.passages, Piece.courses, leadsAb, leadsBa]⟩
  · cases kind <;> simp only [StraightKind.Takes] at taken <;>
      simp [Draft.piece, Piece.supplied, taken]

/-- The action that makes a passage with a label and a course. -/
def Course.action (order : String × Course) : Scoped Passage :=
  Passage.allocate order.1 order.2.entry order.2.exit order.2.position

theorem Passage.allocateAll_hands (orders : List (String × Course)) :
    Scoped.Hands ((orders.map Course.action).mapM (fun passage => passage))
      (fun passages vars => vars = passages.flatMap Passage.vars ∧
        passages.map Passage.course = orders.map (·.2)) := by
  induction orders with
  | nil => exact .pure ⟨rfl, rfl⟩
  | cons order orders ih =>
      rw [List.map_cons, List.mapM_cons]
      apply (Passage.allocate_hands _ _ _ _).bind
      intro passage _ ⟨handed, course⟩
      apply ih.bind
      intro passages _ ⟨handedAll, courses⟩
      apply Scoped.Hands.pure
      subst handed handedAll
      exact ⟨by simp, by rw [List.map_cons, List.map_cons, course, courses]⟩

/-- What a turnout of a kind takes from its scope besides its passages. -/
def TurnoutKind.Takes (kind : TurnoutKind) (given : Var → Prop) (vars : List Var) : Prop :=
  match kind with
  | .fixed _ => vars = []
  | .movable motor position anyRoute =>
      vars = [position, anyRoute] ∧ given motor.command ∧ given motor.current

theorem Turnout.draft_hands (orders : List (String × Course)) {kind : Scoped TurnoutKind}
    {others : TurnoutKind → List Var → Prop} {given : Var → Prop}
    (kindHands : Scoped.Hands kind others)
    (takes : ∀ kind vars, others kind vars → kind.Takes given vars)
    (name : String) (id : PieceId) (first : Nat)
    (courses : ∀ kind vars occupancy passages seen, others kind vars →
      Piece.courses ⟨name, occupancy,
        .turnout ⟨kind, ⟨first⟩, ⟨first + 1⟩, ⟨first + 2⟩, seen, passages⟩⟩ = orders.map (·.2)) :
    Scoped.Hands (Turnout.draft (orders.map Course.action) kind id first)
      (fun draft vars => draft.Fits name id first given vars) := by
  apply (Side.allocate_hands "points" id).bind
  intro points _ ⟨handedPoints, ownerPoints, matePoints⟩
  apply (Side.allocate_hands "closed" id).bind
  intro closed _ ⟨handedClosed, ownerClosed, mateClosed⟩
  apply (Side.allocate_hands "thrown" id).bind
  intro thrown _ ⟨handedThrown, ownerThrown, mateThrown⟩
  apply (Scope.allocate_hands _).bind
  intro occupancy _ handedOccupancy
  apply (Scope.allocate_hands _).bind
  intro seen _ handedSeen
  apply (Passage.allocateAll_hands orders).bind
  intro passages _ ⟨handedPassages, met⟩
  apply kindHands.bind
  intro kind kindVars others
  apply Scoped.Hands.pure
  have taken := takes _ _ others
  subst handedPoints handedClosed handedThrown handedOccupancy handedSeen handedPassages
  constructor
  · cases kind <;> simp only [TurnoutKind.Takes] at taken <;>
      simp [taken, Draft.piece, Piece.roles, Piece.sensed, Piece.seen?, Piece.helper?,
        Piece.passages, Piece.position?, Piece.anyRoute?]
  · simp [ownerPoints, ownerClosed, ownerThrown, matePoints, mateClosed, mateThrown]
  · rfl
  · exact ⟨by simp [Draft.piece, Piece.sides, Turnout.sides],
      met.trans (courses kind kindVars occupancy passages seen others).symm⟩
  · cases kind <;> simp only [TurnoutKind.Takes] at taken <;>
      simp [Draft.piece, Piece.supplied, taken]

theorem Piece.endpointDraft_hands {given : Var → Prop} (name : String) (id : PieceId)
    (first : Nat) :
    Scoped.Hands (Piece.endpointDraft id first)
      (fun draft vars => draft.Fits name id first given vars) := by
  apply (Side.allocate_hands "side" id).bind
  intro side _ ⟨handedSide, owner, mate⟩
  apply (Scope.allocate_hands _).bind
  intro occupancy _ handedOccupancy
  apply Scoped.Hands.pure
  subst handedSide handedOccupancy
  constructor
  · simp [Draft.piece, Piece.roles, Piece.sensed, Piece.seen?, Piece.helper?,
      Piece.passages, Piece.position?, Piece.anyRoute?]
  · simp [owner, mate]
  · rfl
  · exact ⟨by simp [Draft.piece, Piece.sides], rfl⟩
  · simp [Draft.piece, Piece.supplied]

end Interlocking
