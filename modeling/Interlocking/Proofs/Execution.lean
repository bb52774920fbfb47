import Interlocking.Machine
import Interlocking.Proofs.Monadic

/-!
# Execution

What a machine does succeeds step by step or not at all. So a step that has succeeded can be
taken apart: into the conditions and actions of a rule, the turns of a cycle. What is shown of runs rests on this, and not on how the steps are computed.
-/

namespace Interlocking

section Turns

variable {turn after : Turn}

theorem Condition.holds_bit_eq_ok {var : Var} {value answer : Bool} :
    (Condition.bit var value).holds turn = .ok answer ↔
      ∃ found, turn.memory.read var = .ok found ∧ answer = (found == value) := by
  simp only [holds, bind_eq_ok]
  refine exists_congr fun found => and_congr_right fun _ => ?_
  exact ⟨fun told => (Except.ok.inj told).symm, fun told => congrArg _ told.symm⟩

/-- The conditions behind one that fails are not looked at. -/
theorem Rule.enabled_cons_eq_ok {condition : Condition} {conditions : List Condition}
    {answer : Bool} : Rule.enabled turn (condition :: conditions) = .ok answer ↔
      condition.holds turn = .ok true ∧ Rule.enabled turn conditions = .ok answer ∨
      condition.holds turn = .ok false ∧ answer = false := by
  rw [Rule.enabled, bind_eq_ok]
  constructor
  · rintro ⟨holds | holds, told, rest⟩
    · exact .inr ⟨told, (Except.ok.inj rest).symm⟩
    · exact .inl ⟨told, rest⟩
  · rintro (⟨told, rest⟩ | ⟨told, rfl⟩)
    · exact ⟨true, told, rest⟩
    · exact ⟨false, told, rfl⟩

/-- What an action makes of a turn. Setting a variable to the value that it has, or going to the
state that the register holds, is no change. -/
inductive Action.Performs (turn : Turn) : Action → Turn → Prop where
  | keep {var : Var} {value : Bool} (read : turn.memory.read var = .ok value) :
      Performs turn (.set var value) turn
  | store {var : Var} {value old : Bool} {memory : Memory}
      (read : turn.memory.read var = .ok old) (differs : old ≠ value)
      (written : turn.memory.write var value = .ok memory) :
      Performs turn (.set var value) { turn with memory, changed := true }
  | stay {state : State} (here : turn.state = state) : Performs turn (.goto state) turn
  | leave {state : State} (differs : turn.state ≠ state) :
      Performs turn (.goto state) { turn with state, changed := true }
  | load (cycles : UInt8) : Performs turn (.loadTimer cycles) { turn with timer := cycles }

theorem Action.perform_eq_ok {action : Action} :
    action.perform turn = .ok after ↔ Performs turn action after := by
  constructor
  · intro done
    cases action with
    | set var value =>
        obtain ⟨old, read, done⟩ := bind_eq_ok.mp done
        split at done
        · rename_i same
          obtain rfl := Except.ok.inj done
          exact .keep (same ▸ read)
        · rename_i differs
          obtain ⟨memory, written, done⟩ := bind_eq_ok.mp done
          obtain rfl := Except.ok.inj done
          exact .store read differs written
    | goto state =>
        simp only [perform] at done
        split at done
        · rename_i here
          obtain rfl := Except.ok.inj done
          exact .stay here
        · rename_i differs
          obtain rfl := Except.ok.inj done
          exact .leave differs
    | loadTimer cycles =>
        obtain rfl := Except.ok.inj done
        exact .load cycles
  · rintro (read | ⟨read, differs, written⟩ | here | differs | cycles)
    · exact bind_eq_ok.mpr ⟨_, read, if_pos rfl⟩
    · exact bind_eq_ok.mpr ⟨_, read, (if_neg differs).trans (bind_eq_ok.mpr ⟨_, written, rfl⟩)⟩
    · exact if_pos here
    · exact if_neg differs
    · rfl

/-- A rule that runs carries its actions out or leaves the turn as it is. -/
theorem Rule.run_eq_ok {rule : Rule} : rule.run turn = .ok after ↔
    Rule.enabled turn rule.conditions = .ok true ∧
      rule.actions.foldlM Action.perform turn = .ok after ∨
    Rule.enabled turn rule.conditions = .ok false ∧ turn = after := by
  rw [Rule.run, bind_eq_ok]
  constructor
  · rintro ⟨answer | answer, told, done⟩
    · exact .inr ⟨told, Except.ok.inj done⟩
    · exact .inl ⟨told, done⟩
  · rintro (⟨told, done⟩ | ⟨told, rfl⟩)
    · exact ⟨true, told, done⟩
    · exact ⟨false, told, rfl⟩

/-- Rules that are not enabled leave a turn as it is. -/
theorem foldlM_run_eq_self {rules : List Rule}
    (disabled : ∀ rule ∈ rules, Rule.enabled turn rule.conditions = .ok false) :
    rules.foldlM Rule.run turn = .ok turn := by
  induction rules with
  | nil => rfl
  | cons rule rules ih =>
      obtain ⟨here, others⟩ := List.forall_mem_cons.mp disabled
      exact foldlM_cons_eq_ok.mpr ⟨turn, Rule.run_eq_ok.mpr (.inr ⟨here, rfl⟩), ih others⟩

end Turns

namespace Machine

variable {machine next last : Machine} {changed : Bool}

theorem mem_order {index : Nat} : index ∈ machine.order ↔ index < machine.cells.size := by
  unfold order
  split <;> simp

theorem evaluateAll_cons_eq_ok {index : Nat} {indices : List Nat} :
    machine.evaluateAll (index :: indices) = .ok (last, changed) ↔
      ∃ middle early late, machine.evaluate index = .ok (middle, early) ∧
        middle.evaluateAll indices = .ok (last, late) ∧ changed = (early || late) := by
  simp only [evaluateAll, bind_eq_ok, Prod.exists]
  constructor
  · rintro ⟨middle, early, head, ending, late, rest, same⟩
    obtain ⟨rfl, rfl⟩ := Prod.mk.inj (Except.ok.inj same)
    exact ⟨middle, early, late, head, rest, rfl⟩
  · rintro ⟨middle, early, late, head, rest, rfl⟩
    exact ⟨middle, early, head, last, late, rest, rfl⟩

/-- A cycle is a turn of every automaton. -/
theorem step_eq_ok : machine.step = .ok (next, changed) ↔
    ∃ last, machine.evaluateAll machine.order = .ok (last, changed) ∧
      next = { last with cycles := last.cycles + 1 } := by
  simp only [step, bind_eq_ok, Prod.exists]
  constructor
  · rintro ⟨last, told, evaluated, same⟩
    obtain ⟨rfl, rfl⟩ := Prod.mk.inj (Except.ok.inj same)
    exact ⟨last, evaluated, rfl⟩
  · rintro ⟨last, evaluated, rfl⟩
    exact ⟨last, changed, evaluated, rfl⟩

theorem run_succ_eq_ok {count : Nat} : machine.run (count + 1) = .ok last ↔
    ∃ next changed, machine.step = .ok (next, changed) ∧ next.run count = .ok last := by
  simp only [run, bind_eq_ok, Prod.exists]

/-- Settling goes on exactly after a cycle that reports a change. -/
theorem settleWithin_succ_eq_ok {bound : Nat} {settled : Bool} :
    machine.settleWithin (bound + 1) = .ok (last, settled) ↔
      (∃ next, machine.step = .ok (next, true) ∧
        next.settleWithin bound = .ok (last, settled)) ∨
      machine.step = .ok (last, false) ∧ settled = true := by
  simp only [settleWithin, bind_eq_ok, Prod.exists]
  constructor
  · rintro ⟨next, changed | changed, stepped, done⟩
    · obtain ⟨rfl, rfl⟩ := Prod.mk.inj (Except.ok.inj done)
      exact .inr ⟨stepped, rfl⟩
    · exact .inl ⟨next, stepped, done⟩
  · rintro (⟨next, stepped, done⟩ | ⟨stepped, rfl⟩)
    · exact ⟨next, true, stepped, done⟩
    · exact ⟨last, false, stepped, rfl⟩

end Machine

end Interlocking
