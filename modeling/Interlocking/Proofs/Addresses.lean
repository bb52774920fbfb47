import Interlocking.Proofs.Operation
import Interlocking.Proofs.Vocabulary

/-!
# Turns of pieces succeed

A turn can fail only because a rule mentions an address without a bit. The variables in the
rules of a piece are bits of the layout or were supplied by its author, and all of these have
addresses that were reserved. So every turn of a piece succeeds.
-/

namespace Interlocking

/-- The address was reserved. -/
def Layout.Holds (layout : Layout) (var : Var) : Prop := var.index < layout.table.span

namespace Layout

variable {layout : Layout}

/-- The condition looks at nothing but reserved addresses. -/
def Looks (layout : Layout) : Condition → Prop
  | .bit var _ => layout.Holds var
  | _ => True

/-- The action writes to nothing but reserved addresses. -/
def Marks (layout : Layout) : Action → Prop
  | .set var _ => layout.Holds var
  | _ => True

/-- All variables of the rules have addresses that were reserved. -/
def Addresses (layout : Layout) (rules : List Rule) : Prop :=
  ∀ rule ∈ rules, (∀ condition ∈ rule.conditions, layout.Looks condition) ∧
    ∀ action ∈ rule.actions, layout.Marks action

section Turns

variable {turn : Turn} (size : turn.memory.bits.size = layout.table.span)

include size

theorem read_ok {var : Var} (held : layout.Holds var) :
    turn.memory.read var = .ok (turn.memory.value var) :=
  Memory.read_eq_ok.mpr ⟨size ▸ held, rfl⟩

theorem enabled_ok {conditions : List Condition}
    (looks : ∀ condition ∈ conditions, layout.Looks condition) :
    ∃ answer, Rule.enabled turn conditions = .ok answer := by
  induction conditions with
  | nil => exact ⟨true, rfl⟩
  | cons condition conditions ih =>
      obtain ⟨look, looks⟩ := List.forall_mem_cons.mp looks
      obtain ⟨first, told⟩ : ∃ first, condition.holds turn = .ok first := by
        cases condition with
        | bit var value => exact ⟨_, Condition.holds_bit_eq_ok.mpr ⟨_, read_ok size look, rfl⟩⟩
        | inState | notInState | timerExpired => exact ⟨_, rfl⟩
      obtain ⟨rest, tells⟩ := ih looks
      cases first with
      | true => exact ⟨rest, Rule.enabled_cons_eq_ok.mpr (.inl ⟨told, tells⟩)⟩
      | false => exact ⟨false, Rule.enabled_cons_eq_ok.mpr (.inr ⟨told, rfl⟩)⟩

theorem perform_ok {action : Action} (marks : layout.Marks action) :
    ∃ after, action.perform turn = .ok after := by
  cases action with
  | set var value =>
      have inside : var.index < turn.memory.bits.size := size ▸ marks
      have read := read_ok size marks
      by_cases same : turn.memory.value var = value
      · exact ⟨turn, Action.perform_eq_ok.mpr (.keep (same ▸ read))⟩
      · obtain ⟨memory, written⟩ := Memory.write_ok inside value
        exact ⟨_, Action.perform_eq_ok.mpr (.store read same written)⟩
  | goto state =>
      by_cases here : turn.state = state
      · exact ⟨turn, Action.perform_eq_ok.mpr (.stay here)⟩
      · exact ⟨_, Action.perform_eq_ok.mpr (.leave here)⟩
  | loadTimer cycles => exact ⟨_, rfl⟩

theorem performs_ok {actions : List Action} (marks : ∀ action ∈ actions, layout.Marks action) :
    ∃ after, actions.foldlM Action.perform turn = .ok after := by
  induction actions generalizing turn with
  | nil => exact ⟨turn, rfl⟩
  | cons action actions ih =>
      obtain ⟨mark, marks⟩ := List.forall_mem_cons.mp marks
      obtain ⟨next, done⟩ := perform_ok size mark
      obtain ⟨after, rest⟩ := ih ((perform_outcome layout done).2.trans size) marks
      exact ⟨after, foldlM_cons_eq_ok.mpr ⟨next, done, rest⟩⟩

/-- Rules that mention reserved addresses only run to their end. -/
theorem Addresses.run_ok {rules : List Rule} (addresses : layout.Addresses rules) :
    ∃ after, rules.foldlM Rule.run turn = .ok after := by
  induction rules generalizing turn with
  | nil => exact ⟨turn, rfl⟩
  | cons rule rules ih =>
      obtain ⟨⟨looks, marks⟩, addresses⟩ := List.forall_mem_cons.mp addresses
      obtain ⟨answer, told⟩ := enabled_ok size looks
      cases answer with
      | false =>
          obtain ⟨after, rest⟩ := ih size addresses
          have skipped : rule.run turn = .ok turn := Rule.run_eq_ok.mpr (.inr ⟨told, rfl⟩)
          exact ⟨after, foldlM_cons_eq_ok.mpr ⟨turn, skipped, rest⟩⟩
      | true =>
          obtain ⟨next, done⟩ := performs_ok size marks
          obtain ⟨after, rest⟩ := ih ((performs_outcome layout done).2.trans size) addresses
          have fired : rule.run turn = .ok next := Rule.run_eq_ok.mpr (.inl ⟨told, done⟩)
          exact ⟨after, foldlM_cons_eq_ok.mpr ⟨next, fired, rest⟩⟩

end Turns

theorem addresses_iff_uses {rules : List Rule} :
    layout.Addresses rules ↔ Uses layout.Holds layout.Holds rules := by
  have looks (conditions : List Condition) :
      (∀ condition ∈ conditions, layout.Looks condition) ↔ Consults layout.Holds conditions := by
    induction conditions with
    | nil => simp
    | cons condition conditions ih =>
        rw [List.forall_mem_cons, ih]
        cases condition <;> simp [Looks, Consults, Condition.var?]
  have marks (actions : List Action) :
      (∀ action ∈ actions, layout.Marks action) ↔ Alters layout.Holds actions := by
    induction actions with
    | nil => simp
    | cons action actions ih =>
        rw [List.forall_mem_cons, ih]
        cases action <;> simp [Marks]
  simp only [Addresses, Uses, looks, marks]
  rfl

/-- What holds of all bits of a layout and of all that was given to its pieces holds of all that
the rules of a piece mention. -/
theorem vocabulary_of_all {holds : Var → Prop} (bits : ∀ entry ∈ layout.roles, holds entry.2)
    (supplied : ∀ {id piece}, layout.piece? id = some piece → ∀ var ∈ piece.supplied, holds var)
    {id : PieceId} {piece : Piece} (found : layout.piece? id = some piece) :
    layout.Vocabulary id piece holds holds := by
  have sides {side : SideId} {record : Side} (known : layout.side? side = some record) :
      ∀ var ∈ record.bits.vars, holds var := by
    intro var member
    obtain ⟨entry, listed, rfl⟩ := List.mem_map.mp (record.bits.roles_vars side ▸ member)
    exact bits entry (mem_roles_side known listed)
  constructor
  case supplied => exact supplied found
  case driven =>
    intro var member
    exact supplied found var (piece.driven_subset member)
  case own =>
    intro entry member
    have held := bits entry (mem_roles_piece found member)
    exact ⟨held, held⟩
  case sides =>
    intro side _ record known
    have all := sides known
    exact ⟨all, all _ (by simp [Handshake.vars]), all _ (by simp [Handshake.vars])⟩
  case facing =>
    intro side _ mate _ record known
    have all := sides known
    exact ⟨all, all _ (by simp [Handshake.vars]), all _ (by simp [Handshake.vars])⟩
  case near =>
    intro side _ var near
    obtain ⟨neighbour, joined, rfl⟩ := Option.map_eq_some_iff.mp near
    obtain ⟨mate, _, owner⟩ := Option.bind_eq_some_iff.mp joined
    obtain ⟨record, _, known⟩ := Option.bind_eq_some_iff.mp owner
    cases sensed : neighbour.sensed with
    | true => exact supplied known _ (neighbour.occupancy_supplied sensed)
    | false => exact bits _ (mem_roles_piece known (neighbour.mem_roles_occupancy _ sensed))

theorem Sound.addresses_automaton (sound : layout.Sound) {id : PieceId} {piece : Piece}
    (found : layout.piece? id = some piece) :
    layout.Addresses (piece.automaton layout).rules := by
  have words : layout.Vocabulary id piece layout.Holds layout.Holds :=
    vocabulary_of_all sound.reserved (fun known var member => (sound.supplied known var member).1)
      found
  exact addresses_iff_uses.mpr (words.uses_automaton (sound.shaped found))

/-- A turn of rules that mention reserved addresses only succeeds. -/
theorem Addresses.evaluate_ok {machine : Machine} {index : Nat} {cell : Cell}
    (addresses : layout.Addresses cell.automaton.rules)
    (size : machine.memory.bits.size = layout.table.span)
    (found : machine.cells[index]? = some cell) :
    ∃ next changed, machine.evaluate index = .ok (next, changed) := by
  obtain ⟨turn, ran⟩ : ∃ turn, cell.automaton.run
      { memory := machine.memory, state := cell.state, timer := cell.timer } = .ok turn :=
    addresses.run_ok (by rw [Turn.memory_tick]; exact size)
  exact ⟨_, _, Machine.evaluate_of_run found ran⟩

/-- Every turn of a piece succeeds. -/
theorem Sound.evaluate_ok (sound : layout.Sound) {machine : Machine}
    (automata : machine.automata = layout.automata)
    (size : machine.memory.bits.size = layout.table.span) {id : PieceId} {piece : Piece}
    (found : layout.piece? id = some piece) :
    ∃ next changed, machine.evaluate id.index = .ok (next, changed) := by
  obtain ⟨cell, known, same⟩ := cell_of_piece automata found
  exact (same ▸ sound.addresses_automaton found : layout.Addresses cell.automaton.rules).evaluate_ok
    size known

end Layout

end Interlocking
