import Interlocking.Proofs.Operation

/-!
# Turns as functions

A view is all that the rules of one automaton look at: the bits, and the register and the timer
of the automaton. On views rules are functions, and a turn that succeeds does to the view of its
automaton what its rules do one after another. What a list of rules maintains is shown rule by
rule.
-/

namespace Interlocking

open Function (update)

/-- What the rules of an automaton look at. -/
structure View where
  bits : Var → Bool
  state : State
  timer : UInt8

namespace View

/-- Whether a condition holds. -/
def Meets (view : View) : Condition → Prop
  | .bit var value => view.bits var = value
  | .inState state => view.state = state
  | .notInState state => view.state ≠ state
  | .timerExpired => view.timer = 0

instance (view : View) : DecidablePred view.Meets
  | .bit _ _ => inferInstanceAs (Decidable (_ = _))
  | .inState _ => inferInstanceAs (Decidable (_ = _))
  | .notInState _ => inferInstanceAs (Decidable (_ ≠ _))
  | .timerExpired => inferInstanceAs (Decidable (_ = _))

/-- Whether all conditions of a rule hold. -/
def Enables (view : View) (rule : Rule) : Prop := ∀ condition ∈ rule.conditions, view.Meets condition

instance (view : View) : DecidablePred view.Enables :=
  fun rule => inferInstanceAs (Decidable (∀ condition ∈ rule.conditions, view.Meets condition))

/-- What an action makes of a view. -/
def act (view : View) : Action → View
  | .set var value => { view with bits := update view.bits var value }
  | .goto state => { view with state }
  | .loadTimer timer => { view with timer }

/-- What actions make of a view one after another. -/
def carry (view : View) (actions : List Action) : View := actions.foldl act view

/-- What a rule makes of a view. -/
def fire (view : View) (rule : Rule) : View :=
  if view.Enables rule then view.carry rule.actions else view

/-- What rules make of a view one after another. -/
def pass (view : View) (rules : List Rule) : View := rules.foldl fire view

/-- The timer counts down if it is running. -/
def tick (view : View) : View :=
  if view.timer = 0 then view else { view with timer := view.timer - 1 }

variable {view : View} {rule : Rule} {rules : List Rule} {actions : List Action} {var : Var}

@[simp] theorem carry_nil : view.carry [] = view := rfl

@[simp] theorem carry_cons (action : Action) :
    view.carry (action :: actions) = (view.act action).carry actions := rfl

@[simp] theorem act_set (value : Bool) :
    view.act (.set var value) = { view with bits := update view.bits var value } := rfl

@[simp] theorem act_goto (state : State) : view.act (.goto state) = { view with state } := rfl

@[simp] theorem act_loadTimer (timer : UInt8) :
    view.act (.loadTimer timer) = { view with timer } := rfl

@[simp] theorem bits_tick : view.tick.bits = view.bits := by
  unfold tick
  split <;> rfl

@[simp] theorem state_tick : view.tick.state = view.state := by
  unfold tick
  split <;> rfl

theorem carry_append (others : List Action) :
    view.carry (actions ++ others) = (view.carry actions).carry others := List.foldl_append

theorem pass_append (others : List Rule) :
    view.pass (rules ++ others) = (view.pass rules).pass others := List.foldl_append

theorem pass_cons (rule : Rule) : view.pass (rule :: rules) = (view.fire rule).pass rules := rfl

/-- What every rule that fires maintains is maintained by all rules. -/
theorem pass_induct {motive : View → Prop}
    (each : ∀ rule ∈ rules, ∀ view, motive view → view.Enables rule →
      motive (view.carry rule.actions))
    (begins : motive view) : motive (view.pass rules) := by
  induction rules generalizing view with
  | nil => exact begins
  | cons rule rules ih =>
      obtain ⟨here, others⟩ := List.forall_mem_cons.mp each
      apply ih others
      unfold fire
      split
      · rename_i enabled
        exact here view begins enabled
      · exact begins

/-- Where no rule fires, nothing changes. -/
theorem pass_eq_self (blocked : ∀ rule ∈ rules, ¬view.Enables rule) : view.pass rules = view := by
  induction rules with
  | nil => rfl
  | cons rule rules ih =>
      obtain ⟨here, others⟩ := List.forall_mem_cons.mp blocked
      rw [pass_cons, fire, if_neg here]
      exact ih others

/-- Actions change nothing but the bits that they write. -/
theorem bits_carry (apart : var ∉ actions.filterMap Action.var?) :
    (view.carry actions).bits var = view.bits var := by
  induction actions generalizing view with
  | nil => rfl
  | cons action actions ih =>
      cases action with
      | set other value =>
          simp only [List.filterMap_cons, Action.var?, List.mem_cons, not_or] at apart
          rw [carry_cons, ih apart.2]
          exact Function.update_of_ne apart.1 ..
      | goto state => exact ih (by simpa [Action.var?] using apart)
      | loadTimer cycles => exact ih (by simpa [Action.var?] using apart)

/-- Rules change nothing but the bits that they write. -/
theorem bits_pass (apart : ∀ rule ∈ rules, var ∉ rule.writes) :
    (view.pass rules).bits var = view.bits var := by
  refine pass_induct (motive := fun next => next.bits var = view.bits var) ?_ rfl
  intro rule member next same _
  exact (bits_carry (apart rule member)).trans same

/-- Whether a rule of this kind is carried out when the rules run. -/
def Fires (kind : Rule → Prop) : List Rule → View → Prop
  | [], _ => False
  | rule :: rules, view => kind rule ∧ view.Enables rule ∨ Fires kind rules (view.fire rule)

instance decidableFires (kind : Rule → Prop) [DecidablePred kind] :
    ∀ (rules : List Rule) (view : View), Decidable (Fires kind rules view)
  | [], _ => inferInstanceAs (Decidable False)
  | rule :: rules, view =>
      have := decidableFires kind rules (view.fire rule)
      inferInstanceAs (Decidable (_ ∧ _ ∨ _))

section Fires

variable {kind : Rule → Prop}

/-- What every rule maintains can keep rules of a kind from being carried out. -/
theorem not_fires {motive : View → Prop}
    (each : ∀ rule ∈ rules, ∀ view : View, motive view → view.Enables rule →
      motive (view.carry rule.actions))
    (excluded : ∀ rule ∈ rules, ∀ view : View, motive view → kind rule → ¬view.Enables rule)
    (begins : motive view) : ¬Fires kind rules view := by
  induction rules generalizing view with
  | nil => exact id
  | cons rule rules ih =>
      obtain ⟨here, others⟩ := List.forall_mem_cons.mp each
      obtain ⟨notHere, notElsewhere⟩ := List.forall_mem_cons.mp excluded
      rintro (⟨ofKind, enabled⟩ | later)
      · exact notHere view begins ofKind enabled
      · refine ih others notElsewhere ?_ later
        unfold fire
        split
        · rename_i enabled
          exact here view begins enabled
        · exact begins

theorem fires_append (others : List Rule) :
    Fires kind (rules ++ others) view ↔ Fires kind rules view ∨ Fires kind others (view.pass rules) := by
  induction rules generalizing view with
  | nil => simp [Fires, pass]
  | cons rule rules ih => rw [List.cons_append, Fires, Fires, ih, pass_cons, or_assoc]

/-- What a rule that is carried out brings about holds at the end, if the rules maintain it and what
holds before. -/
theorem Fires.pass (before after : View → Prop) (fires : Fires kind rules view) (begins : before view)
    (each : ∀ rule ∈ rules, ∀ view, before view → view.Enables rule → before (view.carry rule.actions))
    (turns : ∀ rule ∈ rules, ∀ view, kind rule → before view → view.Enables rule →
      after (view.carry rule.actions))
    (keeps : ∀ rule ∈ rules, ∀ view, after view → view.Enables rule →
      after (view.carry rule.actions)) : after (view.pass rules) := by
  induction rules generalizing view with
  | nil => cases fires
  | cons rule rules ih =>
      obtain ⟨eachHere, each⟩ := List.forall_mem_cons.mp each
      obtain ⟨turnsHere, turns⟩ := List.forall_mem_cons.mp turns
      obtain ⟨-, keepsLater⟩ := List.forall_mem_cons.mp keeps
      rw [pass_cons]
      rcases fires with ⟨ofKind, enabled⟩ | later
      · rw [fire, if_pos enabled]
        exact pass_induct keepsLater (turnsHere view ofKind begins enabled)
      · refine ih later ?_ each turns keepsLater
        unfold fire
        split
        · rename_i enabled
          exact eachHere view begins enabled
        · exact begins

end Fires

/-- No automaton is in the power-on state after a turn. -/
theorem state_pass_ne_initial : (view.pass (rules ++ [RuleBook.startRule])).state ≠ .initial := by
  rw [pass_append, pass_cons, fire]
  split
  · simp [RuleBook.startRule, pass, State.base, State.initial]
  · rename_i disabled
    intro initial
    exact disabled (by simpa [Enables, Meets, RuleBook.startRule, pass] using initial)

end View

/-- What the rules of an automaton see in a turn. -/
def Turn.view (turn : Turn) : View := ⟨turn.memory.value, turn.state, turn.timer⟩

/-- What the rules of the automaton of a cell see. -/
def Cell.view (cell : Cell) (memory : Memory) : View := ⟨memory.value, cell.state, cell.timer⟩

section Turns

variable {turn after : Turn}

theorem Turn.view_tick (turn : Turn) : turn.tick.view = turn.view.tick := by
  by_cases stopped : turn.timer = 0 <;> simp [Turn.tick, View.tick, Turn.view, stopped]

theorem Condition.meets_iff_of_holds {condition : Condition} {answer : Bool}
    (told : condition.holds turn = .ok answer) : turn.view.Meets condition ↔ answer = true := by
  cases condition with
  | bit var value =>
      obtain ⟨found, read, rfl⟩ := holds_bit_eq_ok.mp told
      simp [View.Meets, Turn.view, (Memory.read_eq_ok.mp read).2]
  | inState state =>
      obtain rfl := Except.ok.inj told
      simp [View.Meets, Turn.view]
  | notInState state =>
      obtain rfl := Except.ok.inj told
      simp [View.Meets, Turn.view]
  | timerExpired =>
      obtain rfl := Except.ok.inj told
      simp [View.Meets, Turn.view]

theorem Rule.meets_iff_of_enabled {conditions : List Condition} {answer : Bool}
    (told : Rule.enabled turn conditions = .ok answer) :
    (∀ condition ∈ conditions, turn.view.Meets condition) ↔ answer = true := by
  induction conditions with
  | nil =>
      obtain rfl := Except.ok.inj told
      simp
  | cons condition conditions ih =>
      rw [List.forall_mem_cons]
      rcases enabled_cons_eq_ok.mp told with ⟨holds, rest⟩ | ⟨fails, rfl⟩
      · simpa [Condition.meets_iff_of_holds holds] using ih rest
      · simp [Condition.meets_iff_of_holds fails]

theorem Action.view_perform {action : Action} (done : action.perform turn = .ok after) :
    after.view = turn.view.act action ∧ after.memory.bits.size = turn.memory.bits.size := by
  cases perform_eq_ok.mp done with
  | keep read => exact ⟨by simp [Turn.view, ← (Memory.read_eq_ok.mp read).2], rfl⟩
  | store _ _ written =>
      obtain ⟨size, values⟩ := Memory.write_eq_ok written
      refine ⟨?_, size⟩
      simp only [Turn.view, View.act_set, View.mk.injEq, and_true]
      funext other
      rw [values, Function.update_apply]
  | stay here => exact ⟨by simp [Turn.view, here], rfl⟩
  | leave | load => exact ⟨rfl, rfl⟩

/-- What is done step by step to a turn is done to its view. -/
theorem foldlM_view {α : Type} {step : Turn → α → Except Failure Turn} {effect : View → α → View}
    (each : ∀ {turn after item}, step turn item = .ok after →
      after.view = effect turn.view item ∧ after.memory.bits.size = turn.memory.bits.size)
    {items : List α} (done : items.foldlM step turn = .ok after) :
    after.view = items.foldl effect turn.view ∧
      after.memory.bits.size = turn.memory.bits.size := by
  induction items generalizing turn with
  | nil =>
      obtain rfl := Except.ok.inj done
      exact ⟨rfl, rfl⟩
  | cons item items ih =>
      obtain ⟨middle, first, done⟩ := foldlM_cons_eq_ok.mp done
      obtain ⟨view, size⟩ := each first
      obtain ⟨views, sizes⟩ := ih done
      exact ⟨by rw [views, view, List.foldl_cons], sizes.trans size⟩

theorem Rule.view_run {rule : Rule} (done : rule.run turn = .ok after) :
    after.view = turn.view.fire rule ∧ after.memory.bits.size = turn.memory.bits.size := by
  rcases run_eq_ok.mp done with ⟨asked, acted⟩ | ⟨asked, rfl⟩
  · have enabled : turn.view.Enables rule := (meets_iff_of_enabled asked).mpr rfl
    rw [View.fire, if_pos enabled]
    exact foldlM_view Action.view_perform acted
  · have disabled : ¬turn.view.Enables rule := by simp [View.Enables, meets_iff_of_enabled asked]
    rw [View.fire, if_neg disabled]
    exact ⟨rfl, rfl⟩

/-- A turn that succeeds does to the view what the rules do. -/
theorem Automaton.view_run {automaton : Automaton} (done : automaton.run turn = .ok after) :
    after.view = turn.view.tick.pass automaton.rules ∧
      after.memory.bits.size = turn.memory.bits.size := by
  obtain ⟨view, size⟩ := foldlM_view Rule.view_run done
  rw [Turn.view_tick] at view
  rw [Turn.memory_tick] at size
  exact ⟨view, size⟩

/-- Conditions that hold ask for variables in memory. -/
theorem Rule.inside_of_enabled {conditions : List Condition}
    (told : Rule.enabled turn conditions = .ok true) {var : Var} {value : Bool}
    (asked : .bit var value ∈ conditions) : var.index < turn.memory.bits.size := by
  induction conditions with
  | nil => cases asked
  | cons condition conditions ih =>
      obtain ⟨holds, rest⟩ := (enabled_cons_eq_ok.mp told).resolve_right (by simp)
      rcases List.mem_cons.mp asked with rfl | asked
      · obtain ⟨found, read, -⟩ := Condition.holds_bit_eq_ok.mp holds
        exact (Memory.read_eq_ok.mp read).1
      · exact ih rest asked

/-- All variables that an enabled rule asks for are in memory. -/
theorem Rule.reads_of_run {rule : Rule} (done : rule.run turn = .ok after)
    (enabled : turn.view.Enables rule) {var : Var} {value : Bool}
    (asked : .bit var value ∈ rule.conditions) : var.index < turn.memory.bits.size := by
  rcases run_eq_ok.mp done with ⟨told, -⟩ | ⟨told, -⟩
  · exact inside_of_enabled told asked
  · exact absurd ((meets_iff_of_enabled told).mp enabled) Bool.false_ne_true

/-- What every rule maintains that is carried out in a turn holds at its end. That the turn
succeeds can be relied on. -/
theorem Automaton.run_induct {automaton : Automaton} {motive : View → Prop}
    (each : ∀ rule ∈ automaton.rules, ∀ view : View, motive view → view.Enables rule →
      (∀ {var value}, .bit var value ∈ rule.conditions → var.index < turn.memory.bits.size) →
      motive (view.carry rule.actions))
    (begins : motive turn.view.tick) (done : automaton.run turn = .ok after) : motive after.view := by
  refine (foldlM_induct (motive := fun state =>
    state.memory.bits.size = turn.memory.bits.size ∧ motive state.view) ?_
    ⟨by rw [turn.memory_tick], turn.view_tick ▸ begins⟩ done).2
  rintro rule member state next ⟨size, holds⟩ ran
  obtain ⟨view, sizes⟩ := Rule.view_run ran
  refine ⟨sizes.trans size, ?_⟩
  rw [view, View.fire]
  split
  · rename_i enabled
    exact each rule member state.view holds enabled fun asked =>
      size ▸ Rule.reads_of_run ran enabled asked
  · exact holds

end Turns

namespace Machine

variable {machine next : Machine} {index : Nat} {changed : Bool}

/-- A turn changes the view of its own automaton as the rules do, and of the other cells nothing
but the bits that they see. -/
theorem view_evaluate (evaluated : machine.evaluate index = .ok (next, changed)) :
    ∃ cell after, machine.cells[index]? = some cell ∧ next.cells[index]? = some after ∧
      after.automaton = cell.automaton ∧
      after.view next.memory = (cell.view machine.memory).tick.pass cell.automaton.rules ∧
      (∀ other, other ≠ index → next.cells[other]? = machine.cells[other]?) ∧
      next.memory.bits.size = machine.memory.bits.size := by
  obtain ⟨cell, turn, found, ran, rfl, _⟩ := evaluate_eq_ok evaluated
  obtain ⟨view, size⟩ := Automaton.view_run ran
  refine ⟨cell, { cell with state := turn.state, timer := turn.timer }, found, ?_, rfl, view, ?_,
    size⟩
  · simp [(Array.getElem?_eq_some_iff.mp found).1]
  · intro other apart
    simp [Ne.symm apart]

end Machine

end Interlocking
