import Interlocking.Proofs.Execution
import Interlocking.Proofs.Roles
import Mathlib.Logic.Function.Basic

/-!
# Rules as the layout sees them

A panel shows the value of every bit under its role. Looked at through a panel, a turn of
an automaton is a sequence of rules that fire or do not, whatever its register and its
timer hold. What a list of rules makes of a panel is stated in the manner of a Hoare
triple.
-/

namespace Interlocking

/-- The values of all bits, by what they are for. -/
abbrev Panel := Role → Bool

/-- The value of a variable, where one without a bit counts as 0. -/
def Memory.value (memory : Memory) (var : Var) : Bool := memory.bits.getD var.index false

namespace Memory

variable {memory after : Memory} {var : Var} {value : Bool}

theorem read_eq_ok : memory.read var = .ok value ↔
    var.index < memory.bits.size ∧ memory.value var = value := by
  unfold read Memory.value
  by_cases inside : var.index < memory.bits.size
  · simp [inside]
  · simp [inside]

theorem write_eq_ok (written : memory.write var value = .ok after) :
    after.bits.size = memory.bits.size ∧
      ∀ other, after.value other = if other = var then value else memory.value other := by
  unfold write at written
  split at written
  · rename_i inside
    obtain rfl := Except.ok.inj written
    refine ⟨by simp, ?_⟩
    intro other
    have indices : var.index = other.index ↔ other = var := by
      constructor
      · intro same
        cases other
        cases var
        exact congrArg Var.mk (UInt32.toNat_inj.mp same.symm)
      · intro same
        rw [same]
    simp only [Memory.value, Array.getD_eq_getD_getElem?, Array.getElem?_setIfInBounds, indices]
    split <;> simp_all
  · cases written

theorem write_ok (inside : var.index < memory.bits.size) (value : Bool) :
    ∃ after, memory.write var value = .ok after :=
  ⟨_, by rw [write, if_pos inside]⟩

@[simp] theorem value_zeros (span : Nat) (var : Var) : (zeros span).value var = false := by
  by_cases inside : var.index < span <;> simp [Memory.value, zeros, inside]

end Memory

namespace Layout

variable {layout : Layout}

/-- What a memory shows. A role that no variable of the layout has shows 0. -/
def panel (layout : Layout) (memory : Memory) : Panel := fun role =>
  match layout.bit? role with
  | some var => if layout.role var = role then memory.value var else false
  | none => false

theorem panel_role (layout : Layout) (memory : Memory) (var : Var) :
    layout.panel memory (layout.role var) = memory.value var := by
  simp [panel, layout.bit?_role var]

theorem panel_zeros (layout : Layout) (span : Nat) :
    layout.panel (.zeros span) = fun _ => false := by
  funext role
  unfold panel
  cases layout.bit? role with
  | none => rfl
  | some var => simp

theorem panel_write {memory after : Memory} {var : Var} {value : Bool}
    (written : memory.write var value = .ok after) :
    layout.panel after = Function.update (layout.panel memory) (layout.role var) value := by
  have values := (Memory.write_eq_ok written).2
  funext role
  rw [Function.update_apply]
  split
  · rename_i same
    rw [same, panel_role, values]
    exact if_pos rfl
  · rename_i differs
    unfold panel
    cases layout.bit? role with
    | none => rfl
    | some other =>
        simp only
        split
        · rename_i served
          have others : other ≠ var := fun same => differs (by rw [← served, same])
          rw [values, if_neg others]
        · rfl

/-- What a panel tells about a condition that holds. -/
def Sees (layout : Layout) (panel : Panel) : Condition → Prop
  | .bit var value => panel (layout.role var) = value
  | _ => True

/-- What a panel tells about a condition that fails. -/
def Misses (layout : Layout) (panel : Panel) : Condition → Prop
  | .bit var value => panel (layout.role var) = !value
  | _ => True

/-- The panel after an action. -/
def act (layout : Layout) (panel : Panel) : Action → Panel
  | .set var value => Function.update panel (layout.role var) value
  | _ => panel

/-- The panel after a list of actions. -/
def carry (layout : Layout) (panel : Panel) (actions : List Action) : Panel :=
  actions.foldl layout.act panel

/-- Actions do not change what they do not write. -/
theorem carry_apart {part : Role → Bool} {panel : Panel} {actions : List Action}
    (apart : ∀ var ∈ actions.filterMap Action.var?, part (layout.role var) = false) {role : Role}
    (concerned : part role = true) : layout.carry panel actions role = panel role := by
  induction actions generalizing panel with
  | nil => rfl
  | cons action actions ih =>
      cases action with
      | set var value =>
          simp only [List.filterMap_cons, Action.var?, List.forall_mem_cons] at apart
          have differs : role ≠ layout.role var := by
            intro same
            rw [same, apart.1] at concerned
            cases concerned
          have first : layout.act panel (.set var value) role = panel role := by
            simp [act, differs]
          exact (ih apart.2).trans first
      | goto state => exact ih (by simpa [Action.var?] using apart)
      | loadTimer cycles => exact ih (by simpa [Action.var?] using apart)

/-- A panel can become another while the rules run from top to bottom. -/
inductive Runs (layout : Layout) : List Rule → Panel → Panel → Prop where
  | done {panel : Panel} : Runs layout [] panel panel
  | fire {rule : Rule} {rules : List Rule} {before after : Panel}
      (seen : ∀ condition ∈ rule.conditions, layout.Sees before condition)
      (rest : Runs layout rules (layout.carry before rule.actions) after) :
      Runs layout (rule :: rules) before after
  | skip {rule : Rule} {rules : List Rule} {before after : Panel}
      (missed : ∃ condition ∈ rule.conditions, layout.Misses before condition)
      (rest : Runs layout rules before after) : Runs layout (rule :: rules) before after

/-- What a list of rules does, its parts do one after the other. -/
theorem Runs.split {first second : List Rule} {before after : Panel}
    (runs : layout.Runs (first ++ second) before after) :
    ∃ middle, layout.Runs first before middle ∧ layout.Runs second middle after := by
  induction first generalizing before with
  | nil => exact ⟨before, .done, runs⟩
  | cons rule first ih =>
      cases runs with
      | fire seen rest =>
          obtain ⟨middle, left, right⟩ := ih rest
          exact ⟨middle, .fire seen left, right⟩
      | skip missed rest =>
          obtain ⟨middle, left, right⟩ := ih rest
          exact ⟨middle, .skip missed left, right⟩

section Turns

variable {turn after : Turn}

theorem sees_of_holds (layout : Layout) {condition : Condition} {answer : Bool}
    (told : condition.holds turn = .ok answer) :
    if answer then layout.Sees (layout.panel turn.memory) condition
    else layout.Misses (layout.panel turn.memory) condition := by
  cases condition with
  | bit var value =>
      obtain ⟨found, read, rfl⟩ := Condition.holds_bit_eq_ok.mp told
      simp only [Sees, Misses, panel_role, (Memory.read_eq_ok.mp read).2]
      cases found <;> cases value <;> simp
  | inState state => cases answer <;> trivial
  | notInState state => cases answer <;> trivial
  | timerExpired => cases answer <;> trivial

theorem enabled_outcome (layout : Layout) {conditions : List Condition} {answer : Bool}
    (told : Rule.enabled turn conditions = .ok answer) :
    if answer then ∀ condition ∈ conditions, layout.Sees (layout.panel turn.memory) condition
    else ∃ condition ∈ conditions, layout.Misses (layout.panel turn.memory) condition := by
  induction conditions with
  | nil =>
      obtain rfl := Except.ok.inj told
      simp
  | cons condition conditions ih =>
      rcases Rule.enabled_cons_eq_ok.mp told with ⟨holds, rest⟩ | ⟨fails, rfl⟩
      · have first := sees_of_holds layout holds
        have rest := ih rest
        cases answer with
        | true => exact List.forall_mem_cons.mpr ⟨first, rest⟩
        | false =>
            obtain ⟨other, member, misses⟩ := rest
            exact ⟨other, List.mem_cons_of_mem _ member, misses⟩
      · exact ⟨condition, List.mem_cons_self, sees_of_holds layout fails⟩

theorem perform_outcome (layout : Layout) {action : Action}
    (done : action.perform turn = .ok after) :
    layout.panel after.memory = layout.act (layout.panel turn.memory) action ∧
      after.memory.bits.size = turn.memory.bits.size := by
  cases Action.perform_eq_ok.mp done with
  | keep read =>
      refine ⟨(Function.update_eq_self_iff.mpr ?_).symm, rfl⟩
      rw [panel_role, (Memory.read_eq_ok.mp read).2]
  | store _ _ written => exact ⟨panel_write written, (Memory.write_eq_ok written).1⟩
  | stay | leave | load => exact ⟨rfl, rfl⟩

theorem performs_outcome (layout : Layout) {actions : List Action}
    (done : actions.foldlM Action.perform turn = .ok after) :
    layout.panel after.memory = layout.carry (layout.panel turn.memory) actions ∧
      after.memory.bits.size = turn.memory.bits.size := by
  induction actions generalizing turn with
  | nil =>
      obtain rfl := Except.ok.inj done
      exact ⟨rfl, rfl⟩
  | cons action actions ih =>
      obtain ⟨next, first, done⟩ := foldlM_cons_eq_ok.mp done
      obtain ⟨shown, size⟩ := perform_outcome layout first
      obtain ⟨rest, sizes⟩ := ih done
      exact ⟨by rw [rest, shown]; rfl, sizes.trans size⟩

/-- What a turn does to the memory, seen through a panel. -/
theorem runs_of_foldlM (layout : Layout) {rules : List Rule}
    (done : rules.foldlM Rule.run turn = .ok after) :
    layout.Runs rules (layout.panel turn.memory) (layout.panel after.memory) ∧
      after.memory.bits.size = turn.memory.bits.size := by
  induction rules generalizing turn with
  | nil =>
      obtain rfl := Except.ok.inj done
      exact ⟨.done, rfl⟩
  | cons rule rules ih =>
      obtain ⟨next, first, done⟩ := foldlM_cons_eq_ok.mp done
      obtain ⟨rest, sizes⟩ := ih done
      rcases Rule.run_eq_ok.mp first with ⟨asked, acted⟩ | ⟨asked, rfl⟩
      · obtain ⟨shown, size⟩ := performs_outcome layout acted
        exact ⟨.fire (enabled_outcome layout asked) (shown ▸ rest), sizes.trans size⟩
      · exact ⟨.skip (enabled_outcome layout asked) rest, sizes⟩

end Turns

/-- None of the rules fires. -/
def Rests (layout : Layout) (panel : Panel) (rules : List Rule) : Prop :=
  ∀ rule ∈ rules, ¬∀ condition ∈ rule.conditions, layout.Sees panel condition

theorem Rests.append {panel : Panel} {first second : List Rule} (left : layout.Rests panel first)
    (right : layout.Rests panel second) : layout.Rests panel (first ++ second) :=
  List.forall_mem_append.mpr ⟨left, right⟩

theorem Rests.eq_of_runs {before after : Panel} {rules : List Rule}
    (rests : layout.Rests before rules) (runs : layout.Runs rules before after) :
    after = before := by
  induction runs with
  | done => rfl
  | fire seen rest ih => exact absurd seen (rests _ List.mem_cons_self)
  | skip missed rest ih => exact ih fun rule member => rests rule (List.mem_cons_of_mem _ member)

/-- Rules that start in `pre` end in `post`. -/
def Takes (layout : Layout) (pre : Panel → Prop) (rules : List Rule) (post : Panel → Prop) :
    Prop :=
  ∀ before after, pre before → layout.Runs rules before after → post after

/-- Every rule of the list that fires maintains the invariant. -/
def Maintains (layout : Layout) (invariant : Panel → Prop) (rules : List Rule) : Prop :=
  ∀ rule ∈ rules, ∀ panel, invariant panel →
    (∀ condition ∈ rule.conditions, layout.Sees panel condition) →
    invariant (layout.carry panel rule.actions)

theorem Maintains.append {invariant : Panel → Prop} {first second : List Rule}
    (left : layout.Maintains invariant first) (right : layout.Maintains invariant second) :
    layout.Maintains invariant (first ++ second) :=
  List.forall_mem_append.mpr ⟨left, right⟩

theorem Maintains.and {first second : Panel → Prop} {rules : List Rule}
    (left : layout.Maintains first rules) (right : layout.Maintains second rules) :
    layout.Maintains (fun panel => first panel ∧ second panel) rules :=
  fun rule member panel holds sees =>
    ⟨left rule member panel holds.1 sees, right rule member panel holds.2 sees⟩

namespace Takes

variable {pre between post : Panel → Prop} {first second rules : List Rule} {rule : Rule}

theorem weaken (weaker : ∀ panel, pre panel → post panel) : layout.Takes pre [] post := by
  intro before after holds runs
  cases runs
  exact weaker before holds

theorem mono {weaker : Panel → Prop} (takes : layout.Takes pre rules post)
    (weaken : ∀ panel, post panel → weaker panel) : layout.Takes pre rules weaker :=
  fun before after holds runs => weaken after (takes before after holds runs)

theorem append (left : layout.Takes pre first between)
    (right : layout.Takes between second post) : layout.Takes pre (first ++ second) post := by
  intro before after holds runs
  obtain ⟨middle, leftRuns, rightRuns⟩ := runs.split
  exact right middle after (left before middle holds leftRuns) rightRuns

theorem and {other : Panel → Prop} (left : layout.Takes pre rules post)
    (right : layout.Takes pre rules other) :
    layout.Takes pre rules (fun panel => post panel ∧ other panel) :=
  fun before after holds runs => ⟨left before after holds runs, right before after holds runs⟩

theorem single
    (fired : ∀ panel, pre panel → (∀ condition ∈ rule.conditions, layout.Sees panel condition) →
      post (layout.carry panel rule.actions))
    (skipped : ∀ panel, pre panel → (∃ condition ∈ rule.conditions, layout.Misses panel condition) →
      post panel) : layout.Takes pre [rule] post := by
  intro before after holds runs
  cases runs with
  | fire seen rest =>
      cases rest
      exact fired before holds seen
  | skip missed rest =>
      cases rest
      exact skipped before holds missed

/-- Rules that each maintain an invariant when they fire maintain it together. -/
theorem each {invariant : Panel → Prop} (kept : layout.Maintains invariant rules) :
    layout.Takes invariant rules invariant := by
  induction rules with
  | nil => exact weaken fun _ holds => holds
  | cons rule rules ih =>
      have head : layout.Takes invariant [rule] invariant :=
        single (kept rule List.mem_cons_self) (fun _ holds _ => holds)
      exact head.append (ih fun other member => kept other (List.mem_cons_of_mem _ member))

theorem flatMap {α : Type} {invariant : Panel → Prop} {items : List α} {body : α → List Rule}
    (kept : ∀ item ∈ items, layout.Takes invariant (body item) invariant) :
    layout.Takes invariant (items.flatMap body) invariant := by
  induction items with
  | nil => exact weaken fun _ holds => holds
  | cons item items ih =>
      exact (kept item List.mem_cons_self).append
        (ih fun other member => kept other (List.mem_cons_of_mem _ member))

end Takes

end Layout

end Interlocking
