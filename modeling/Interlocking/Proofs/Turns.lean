import Interlocking.Proofs.Chains

/-!
# Whole turns

A turn of a piece maintains the reservation protocol, and it moves a turnout only if no
passage of the turnout is in use at its end. What the deeds of a piece maintain is
maintained by its turn: keeping track of the trains and summing up leave the reservations
as they are.
-/

namespace Interlocking

/-- Whether bits of this role tell of reservations or of trains. -/
def Role.lasting : Role → Bool
  | .position _ | .anyRoute _ | .outside _ => false
  | _ => true

theorem Role.lasting_of_reserving {role : Role} (reserving : role.reserving = true) :
    role.lasting = true := by
  cases role <;> first | rfl | cases reserving

namespace Layout

open Function (update)

variable {layout : Layout} {id : PieceId} {piece : Piece} {stand : PieceId → Bool}

/-- Keeping track of the trains does not concern the protocol. -/
theorem Sound.tracking_aside (sound : layout.Sound) (found : layout.piece? id = some piece) :
    layout.Aside (piece.tracking layout) := by
  have tracked : ∀ {site : Site}, layout.Describes id piece site →
      layout.Aside (site.seenRules layout ++ site.clearRules) :=
    fun describes => describes.seenRules_aside.append describes.clearRules_aside
  obtain ⟨name, occupancy, body⟩ := piece
  cases body with
  | straight straight =>
      have describes := sound.describes_straight found
      refine Aside.append ?_ (tracked describes)
      cases kind : straight.kind with
      | short | long | detector => simp [Aside]
      | filtered raw window shadow => exact sound.filterRules_aside found kind
      | signal request aspect used =>
          have occupied : (layout.role occupancy).inProtocol = false := describes.apart
          cases layout.neighbourOccupancy? straight.a with
          | none => simp [Aside]
          | some approaching => simp [Aside, copyRules, Rule.writes, Action.var?, occupied]
  | turnout turnout => exact tracked (sound.describes_turnout found)
  | endpoint side => simp [Aside, Piece.tracking]

section Duties

variable {extra invariant : Panel → Prop}

/-- What the deeds of a piece maintain, its duties maintain. -/
theorem Sound.duties_keep (sound : layout.Sound) (found : layout.piece? id = some piece)
    (extras : ∀ duty ∈ piece.duties layout, layout.Maintains extra duty.rules)
    (kept : ∀ {loose work before after}, layout.Orderly loose before → extra before →
      invariant before → layout.Deed id before work after → invariant after)
    (congr : ∀ {panel other : Panel}, panel.Alike other → invariant other → invariant panel) :
    layout.Takes (fun panel => (layout.Steady stand none panel ∧ extra panel) ∧ invariant panel)
      ((piece.duties layout).flatMap Duty.rules)
      (fun panel => (layout.Steady stand none panel ∧ extra panel) ∧ invariant panel) := by
  apply Takes.flatMap
  intro duty member
  exact (sound.task found duty member).keeps sound (extras duty member) kept congr

/-- The duties of a piece follow the protocol. -/
theorem Sound.steady_duties (sound : layout.Sound) (found : layout.piece? id = some piece) :
    layout.Takes (layout.Steady stand none) ((piece.duties layout).flatMap Duty.rules)
      (layout.Steady stand none) := by
  intro before after steady runs
  have nothing : ∀ rules, layout.Maintains (fun _ => True) rules := by simp [Maintains]
  have kept : layout.Takes (fun panel => (layout.Steady stand none panel ∧ True) ∧ True) _
      (fun panel => (layout.Steady stand none panel ∧ True) ∧ True) :=
    sound.duties_keep found (fun duty _ => nothing duty.rules) (fun _ _ _ _ => trivial)
      (fun _ _ => trivial)
  exact (kept before after ⟨⟨steady, trivial⟩, trivial⟩ runs).1.1

end Duties

/-- When a piece has summed up, a turnout has moved only if it is free. -/
theorem Sound.takes_summary (sound : layout.Sound) (found : layout.piece? id = some piece) :
    layout.Takes (layout.Steady stand none) (piece.summary layout) (layout.Turned stand) := by
  have turned : layout.Takes (layout.Steady stand none) [] (layout.Turned stand) :=
    Takes.weaken fun _ steady => steady.turned
  refine Takes.append ?_ takes_startRule
  obtain ⟨name, occupancy, body⟩ := piece
  cases body with
  | straight straight =>
      cases kind : straight.kind with
      | short | long | detector | filtered => simpa only [kind] using turned
      | signal request aspect used =>
          simp only [kind]
          exact (sound.aspectRules_aside found kind _).takes.mono fun _ steady => steady.turned
  | turnout turnout =>
      cases kind : turnout.kind with
      | fixed position => simpa only [kind] using turned
      | movable motor position anyRoute =>
          simp only [kind]
          -- The routes are summed up in front of the motor, so that the sum which the motor
          -- looks at is about the reservations at the end of the turn.
          exact ((sound.takes_anyRouteRules found kind).append
            (sound.takes_motorRules found kind)).mono fun _ guarded => guarded.turned
  | endpoint side => exact turned

/-- A turn of a piece maintains the protocol, and it moves a turnout only if no passage of
the turnout is in use at the end of the turn. -/
theorem Sound.takes_automaton (sound : layout.Sound) (found : layout.piece? id = some piece) :
    layout.Takes (layout.Steady stand none) (piece.automaton layout).rules
      (layout.Turned stand) := by
  rw [piece.rules_automaton]
  exact ((sound.tracking_aside found).takes.append (sound.steady_duties found)).append
    (sound.takes_summary found)

/-- The rules write nothing but positions, sums of routes and outside variables. -/
def Summarizes (layout : Layout) (rules : List Rule) : Prop :=
  ∀ rule ∈ rules, ∀ var ∈ rule.writes, (layout.role var).lasting = false

theorem Summarizes.maintains {rules : List Rule} (summarizes : layout.Summarizes rules)
    {invariant : Panel → Prop}
    (congr : ∀ {panel other : Panel}, (∀ role, role.lasting = true → panel role = other role) →
      invariant other → invariant panel) : layout.Maintains invariant rules := by
  intro rule member panel holds _
  exact congr (fun _ concerned => carry_apart (summarizes rule member) concerned) holds

/-- Summing up leaves the reservations, and what is known of trains, as they are. -/
theorem Sound.summary_summarizes (sound : layout.Sound) (found : layout.piece? id = some piece) :
    layout.Summarizes (piece.summary layout) := by
  refine List.forall_mem_append.mpr ⟨?_, by simp [RuleBook.startRule, Rule.writes, Action.var?]⟩
  obtain ⟨name, occupancy, body⟩ := piece
  cases body with
  | straight straight =>
      cases kind : straight.kind with
      | short | long | detector | filtered => simp [kind]
      | signal request aspect used =>
          have outside := role_of_outside (sound.supplied found aspect (straight_of_signal kind).2.2)
          simp only [kind]
          cases layout.neighbourOccupancy? straight.b <;>
            simp [Lane.aspectRules, Rule.writes, Action.var?, outside, Role.lasting]
  | turnout turnout =>
      cases kind : turnout.kind with
      | fixed position => simp [kind]
      | movable motor position anyRoute =>
          obtain ⟨positioned, counted, supplied⟩ := turnout_of_movable kind
          have stands := sound.role_position found positioned
          have counts := sound.role_anyRoute found counted
          have reports := role_of_outside (sound.supplied found _ supplied)
          simp only [kind]
          refine List.forall_mem_append.mpr ⟨List.forall_mem_append.mpr ⟨?_, ?_⟩, ?_⟩
          · intro rule member
            obtain ⟨bit, _, rfl⟩ := List.mem_map.mp member
            simp [Rule.writes, Action.var?, counts, Role.lasting]
          · simp [Rule.writes, Action.var?, counts, Role.lasting]
          · simp [Turnout.motorRules, Rule.writes, Action.var?, stands, reports, Role.lasting]
  | endpoint side => simp

/-- What the deeds of a piece maintain about reservations, its turn maintains. -/
theorem Sound.turn_keeps (sound : layout.Sound) (found : layout.piece? id = some piece)
    {invariant : Panel → Prop}
    (kept : ∀ {loose work before after}, layout.Orderly loose before → invariant before →
      layout.Deed id before work after → invariant after)
    (congr : ∀ {panel other : Panel}, panel.Accords other → invariant other → invariant panel) :
    layout.Takes (fun panel => layout.Steady stand none panel ∧ invariant panel)
      (piece.automaton layout).rules invariant := by
  have aside := sound.tracking_aside found
  have tracked := Takes.each ((aside.maintains fun alike (steady : layout.Steady stand none _) =>
    steady.congr alike).and (aside.maintains fun alike => congr alike.accords))
  have nothing : ∀ rules, layout.Maintains (fun _ => True) rules := by simp [Maintains]
  have worked : layout.Takes
      (fun panel => (layout.Steady stand none panel ∧ True) ∧ invariant panel) _ _ :=
    sound.duties_keep found (fun duty _ => nothing duty.rules) (fun orderly _ => kept orderly)
      (fun alike => congr alike.accords)
  have summed : layout.Maintains invariant (piece.summary layout) := by
    refine (sound.summary_summarizes found).maintains ?_
    intro panel other same
    exact congr fun role reserving => same role (Role.lasting_of_reserving reserving)
  rw [piece.rules_automaton]
  refine Takes.append ?_ (Takes.each summed)
  refine Takes.mono (Takes.append ?_ worked) fun _ holds => holds.2
  exact tracked.mono fun _ both => ⟨⟨both.1, trivial⟩, both.2⟩

end Layout

end Interlocking
