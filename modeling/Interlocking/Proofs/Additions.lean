import Interlocking.Proofs.Drafts

/-!
# Ways to add a piece

Every operation that adds a piece prepares a draft and stores it. The kinds of pieces differ in
the drafts alone, and here each of them is shown to make drafts that fit.
-/

namespace Interlocking

/-- The action adds a piece from a draft that fits, and `given` holds of the variables that were
handed to it. -/
def Build.Adds (action : Build PieceId) (given : Var → Prop) : Prop :=
  ∃ name count draft, action = Layout.addPiece name count draft ∧
    ∀ id first, Scoped.Hands (draft id first)
      (fun draft vars => draft.Fits name id first given vars)

namespace Layout

variable {given : Var → Prop}

theorem adds_straight (name : String) {occupancy : Scoped Var} {kind : Scoped StraightKind}
    {occupied : Var → List Var → Prop} {others : StraightKind → List Var → Prop}
    (occupancyHands : Scoped.Hands occupancy occupied) (kindHands : Scoped.Hands kind others)
    (takes : ∀ var vars kind vars', occupied var vars → others kind vars' →
      kind.Takes given var vars vars') :
    Build.Adds (addStraight name occupancy kind) given :=
  ⟨name, Straight.bitCount, Straight.draft occupancy kind, rfl,
    Straight.draft_hands occupancyHands kindHands takes name⟩

theorem adds_short (name : String) : Build.Adds (addShort name) given := by
  have kinds : Scoped.Hands (pure StraightKind.short)
      (fun kind vars => kind = .short ∧ vars = []) :=
    .pure ⟨rfl, rfl⟩
  apply adds_straight name (Scope.allocate_hands _) kinds
  intro var vars kind vars' occupied ⟨same, others⟩
  subst same
  exact ⟨occupied, others⟩

theorem adds_long (name : String) : Build.Adds (addLong name) given := by
  have kinds : Scoped.Hands (pure StraightKind.long)
      (fun kind vars => kind = .long ∧ vars = []) :=
    .pure ⟨rfl, rfl⟩
  apply adds_straight name (Scope.allocate_hands _) kinds
  intro var vars kind vars' occupied ⟨same, others⟩
  subst same
  exact ⟨occupied, others⟩

theorem adds_detector (name : String) {sensor : Var} (handed : given sensor) :
    Build.Adds (addDetector name sensor) given := by
  have sensors : Scoped.Hands (pure sensor) (fun var vars => var = sensor ∧ vars = []) :=
    .pure ⟨rfl, rfl⟩
  have kinds : Scoped.Hands (pure (StraightKind.detector sensor))
      (fun kind vars => kind = .detector sensor ∧ vars = []) := .pure ⟨rfl, rfl⟩
  apply adds_straight name sensors kinds
  intro var vars kind vars' ⟨sensed, occupied⟩ ⟨same, others⟩
  subst sensed same
  exact ⟨occupied, others, handed, handed⟩

theorem adds_filtered (name : String) {raw : Var} (window : UInt8) (handed : given raw) :
    Build.Adds (addFiltered name raw window) given := by
  have kinds : Scoped.Hands
      (do let shadow ← Scope.allocate "tmp_debounce"; return StraightKind.filtered raw window shadow)
      (fun kind vars => ∃ shadow, kind = .filtered raw window shadow ∧ vars = [shadow]) := by
    apply (Scope.allocate_hands _).bind
    intro shadow _ handed
    subst handed
    exact .pure ⟨shadow, rfl, rfl⟩
  apply adds_straight name (Scope.allocate_hands _) kinds
  intro var vars kind vars' occupied ⟨shadow, same, others⟩
  subst same
  exact ⟨occupied, others, handed⟩

theorem adds_signal (name : String) {request aspect : Var} (requestHanded : given request)
    (aspectHanded : given aspect) : Build.Adds (addSignal name request aspect) given := by
  have kinds : Scoped.Hands
      (do let used ← Scope.allocate "tmp_route_used"; return StraightKind.signal request aspect used)
      (fun kind vars => ∃ used, kind = .signal request aspect used ∧ vars = [used]) := by
    apply (Scope.allocate_hands _).bind
    intro used _ handed
    subst handed
    exact .pure ⟨used, rfl, rfl⟩
  apply adds_straight name (Scope.allocate_hands _) kinds
  intro var vars kind vars' occupied ⟨used, same, others⟩
  subst same
  exact ⟨occupied, others, requestHanded, aspectHanded⟩

theorem adds_endpoint (name : String) : Build.Adds (addEndpoint name) given :=
  ⟨name, Piece.endpointBitCount, Piece.endpointDraft, rfl, Piece.endpointDraft_hands name⟩

theorem adds_fixedTurnout (name : String) (position : Position) :
    Build.Adds (addFixedTurnout name position) given := by
  refine ⟨name, Turnout.bitCount, _, rfl, ?_⟩
  intro id first
  have kinds : Scoped.Hands (pure (TurnoutKind.fixed position))
      (fun kind vars => kind = .fixed position ∧ vars = []) := .pure ⟨rfl, rfl⟩
  have takes : ∀ kind vars, kind = .fixed position ∧ vars = [] →
      TurnoutKind.Takes kind given vars := by
    intro kind vars ⟨same, others⟩
    subst same
    exact others
  cases position with
  | closed =>
      apply Turnout.draft_hands
        [("PC", ⟨⟨first⟩, ⟨first + 1⟩, none⟩), ("CP", ⟨⟨first + 1⟩, ⟨first⟩, none⟩)]
        kinds takes name id first
      intro kind vars occupancy passages seen ⟨same, _⟩
      subst same
      rfl
  | thrown =>
      apply Turnout.draft_hands
        [("PT", ⟨⟨first⟩, ⟨first + 2⟩, none⟩), ("TP", ⟨⟨first + 2⟩, ⟨first⟩, none⟩)]
        kinds takes name id first
      intro kind vars occupancy passages seen ⟨same, _⟩
      subst same
      rfl

theorem adds_movableTurnout (name : String) {motor : Motor} (commandHanded : given motor.command)
    (currentHanded : given motor.current) : Build.Adds (addMovableTurnout name motor) given := by
  refine ⟨name, Turnout.bitCount, _, rfl, ?_⟩
  intro id first
  have kinds : Scoped.Hands
      (do
        let position ← Scope.allocate "turnout_state"
        let anyRoute ← Scope.allocate "any_route_set"
        return TurnoutKind.movable motor position anyRoute)
      (fun kind vars => ∃ position anyRoute, kind = .movable motor position anyRoute ∧
        vars = [position, anyRoute]) := by
    apply (Scope.allocate_hands _).bind
    intro position _ handedPosition
    apply (Scope.allocate_hands _).bind
    intro anyRoute _ handedAny
    subst handedPosition handedAny
    exact .pure ⟨position, anyRoute, rfl, rfl⟩
  apply Turnout.draft_hands [
      ("PC", ⟨⟨first⟩, ⟨first + 1⟩, some .closed⟩), ("PT", ⟨⟨first⟩, ⟨first + 2⟩, some .thrown⟩),
      ("CP", ⟨⟨first + 1⟩, ⟨first⟩, some .closed⟩), ("TP", ⟨⟨first + 2⟩, ⟨first⟩, some .thrown⟩)]
    kinds _ name id first
  · intro kind vars occupancy passages seen ⟨position, anyRoute, same, _⟩
    subst same
    rfl
  · intro kind vars ⟨position, anyRoute, same, others⟩
    subst same
    exact ⟨others, commandHanded, currentHanded⟩

end Layout

end Interlocking
