import Interlocking.Variable.Scope

/-!
# What the allocator hands out

Addresses are handed out in ascending order, inside a scope as well as from the table
itself. An action in a scope is described by the variables that belong to its result:
they ascend from the scope's next address to the next address that the action leaves
behind, so that the variables of two actions in sequence are never the same.
-/

namespace Interlocking

/-- The addresses of `vars` ascend from `first` and stay below `limit`. -/
def Ascends (first limit : Nat) : List Var → Prop
  | [] => first ≤ limit
  | var :: vars => first ≤ var.index ∧ Ascends (var.index + 1) limit vars

namespace Ascends

variable {first middle limit : Nat} {vars others : List Var}

theorem le (ascends : Ascends first limit vars) : first ≤ limit := by
  induction vars generalizing first with
  | nil => exact ascends
  | cons var vars ih =>
      have rest := ih ascends.2
      have head := ascends.1
      omega

theorem from_le {start : Nat} (ascends : Ascends first limit vars) (earlier : start ≤ first) :
    Ascends start limit vars := by
  cases vars with
  | nil => exact Nat.le_trans earlier ascends
  | cons var vars => exact ⟨Nat.le_trans earlier ascends.1, ascends.2⟩

theorem append (left : Ascends first middle vars) (right : Ascends middle limit others) :
    Ascends first limit (vars ++ others) := by
  induction vars generalizing first with
  | nil => exact right.from_le left
  | cons var vars ih => exact ⟨left.1, ih left.2⟩

theorem to_le {bound : Nat} (ascends : Ascends first limit vars) (later : limit ≤ bound) :
    Ascends first bound vars := by
  have rest : Ascends limit bound [] := later
  simpa using ascends.append rest

theorem bounds (ascends : Ascends first limit vars) {var : Var} (member : var ∈ vars) :
    first ≤ var.index ∧ var.index < limit := by
  induction vars generalizing first with
  | nil => cases member
  | cons head vars ih =>
      cases member with
      | head => exact ⟨ascends.1, ascends.2.le⟩
      | tail _ member =>
          have rest := ih ascends.2 member
          have start := ascends.1
          exact ⟨by omega, rest.2⟩

/-- Variables that ascend are pairwise different. -/
theorem nodup (ascends : Ascends first limit vars) : vars.Nodup := by
  induction vars generalizing first with
  | nil => exact List.nodup_nil
  | cons var vars ih =>
      apply List.nodup_cons.mpr
      constructor
      · intro member
        have later := (ascends.2.bounds member).1
        omega
      · exact ih ascends.2

end Ascends

/-- What holds of the state, and of the value if there is one, after an action was run. -/
def Outcome {ε σ α : Type} (result : EStateM.Result ε σ α) (ok : α → σ → Prop)
    (error : σ → Prop) : Prop :=
  match result with
  | .ok value state => ok value state
  | .error _ state => error state

namespace Outcome

variable {ε σ α β : Type} {ok : α → σ → Prop} {error : σ → Prop}

theorem mono {result : EStateM.Result ε σ α} {ok' : α → σ → Prop} {error' : σ → Prop}
    (outcome : Outcome result ok error) (onOk : ∀ value state, ok value state → ok' value state)
    (onError : ∀ state, error state → error' state) : Outcome result ok' error' := by
  cases result with
  | ok value state => exact onOk value state outcome
  | error failure state => exact onError state outcome

theorem and {result : EStateM.Result ε σ α} {ok' : α → σ → Prop} {error' : σ → Prop}
    (left : Outcome result ok error) (right : Outcome result ok' error') :
    Outcome result (fun value state => ok value state ∧ ok' value state)
      (fun state => error state ∧ error' state) := by
  cases result with
  | ok value state => exact ⟨left, right⟩
  | error failure state => exact ⟨left, right⟩

theorem of_ok {result : EStateM.Result ε σ α} (outcome : Outcome result ok error) {value : α}
    {state : σ} (ran : result = .ok value state) : ok value state := by
  rw [ran] at outcome
  exact outcome

/-- Actions in sequence: the second starts where the first has ended. -/
theorem bind {first : EStateM ε σ α} {next : α → EStateM ε σ β} {state : σ}
    {ok' : β → σ → Prop} (outcome : Outcome (first state) ok error)
    (continued : ∀ value state, ok value state → Outcome (next value state) ok' error) :
    Outcome ((first >>= next) state) ok' error := by
  change Outcome (EStateM.bind first next state) ok' error
  unfold EStateM.bind
  cases run : first state with
  | ok value after =>
      rw [run] at outcome
      exact continued value after outcome
  | error failure after =>
      rw [run] at outcome
      exact outcome

end Outcome

namespace Table

/-- The reservations of two tables are the same. -/
def SameBounds (before after : Table) : Prop :=
  after.next = before.next ∧ after.size = before.size

theorem SameBounds.trans {first second third : Table}
    (left : first.SameBounds second) (right : second.SameBounds third) :
    first.SameBounds third :=
  ⟨right.1.trans left.1, right.2.trans left.2⟩

/-- Every address that was reserved lies in the table. -/
def InBounds (table : Table) : Prop := table.next ≤ table.size

/-- Naming a variable changes no reservation, whether it succeeds or not. -/
theorem register_outcome (address : UInt32) (name : String) (table : Table) :
    Outcome (register address name table)
      (fun var after => var = ⟨address⟩ ∧ table.SameBounds after)
      (fun after => table.SameBounds after) := by
  unfold register
  split
  · exact ⟨rfl, rfl⟩
  · cases events? table.eventBase address with
    | none => exact ⟨rfl, rfl⟩
    | some events => exact ⟨rfl, rfl, rfl⟩

/-- A reservation gives the first of `count` new addresses. -/
theorem reserve_outcome (count : UInt32) (caller : String) {table : Table}
    (inBounds : table.InBounds) :
    Outcome (reserve count caller table)
      (fun first after => first = table.next ∧ after.size = table.size ∧
        after.next = table.next + count ∧ after.span = table.span + count.toNat ∧
        after.InBounds)
      (fun after => after = table) := by
  unfold reserve
  split
  · exact rfl
  · rename_i enough
    have nextLe : table.next.toNat ≤ table.size.toNat := UInt32.le_iff_toNat_le.mp inBounds
    have sizeLt := table.size.toNat_lt
    have room : count.toNat ≤ table.size.toNat - table.next.toNat := by
      have notLess := UInt32.le_iff_toNat_le.mp (UInt32.not_lt.mp enough)
      rwa [remaining, UInt32.toNat_sub_of_le _ _ inBounds] at notLess
    have sum : (table.next + count).toNat = table.next.toNat + count.toNat := by
      rw [UInt32.toNat_add, Nat.mod_eq_of_lt (by omega)]
    refine ⟨rfl, rfl, rfl, sum, ?_⟩
    apply UInt32.le_iff_toNat_le.mpr
    simp only [sum]
    omega

end Table

/-- What use leaves of a scope: the same range, of which a later part is still free. -/
structure Scope.Leaves (before after : Scope) : Prop where
  later : before.next ≤ after.next
  inside : after.next ≤ before.limit
  limit : after.limit = before.limit

namespace Scope.Leaves

variable {first second third : Scope}

theorem refl (ordered : first.next ≤ first.limit) : first.Leaves first :=
  ⟨UInt32.le_refl _, ordered, rfl⟩

theorem trans (left : first.Leaves second) (right : second.Leaves third) :
    first.Leaves third :=
  ⟨UInt32.le_trans left.later right.later, left.limit ▸ right.inside,
    right.limit.trans left.limit⟩

theorem ordered (leaves : first.Leaves second) : second.next ≤ second.limit :=
  leaves.limit ▸ leaves.inside

end Scope.Leaves

/-- For each of its results, `action` hands out variables as `handed` tells, ascending
from the scope's next address to the next address that it leaves behind. -/
def Scoped.Hands {α : Type} (action : Scoped α) (handed : α → List Var → Prop) : Prop :=
  ∀ scope table, scope.next ≤ scope.limit →
    Outcome (action (scope, table))
      (fun result (inner, after) =>
        (∃ vars, handed result vars ∧ Ascends scope.next.toNat inner.next.toNat vars) ∧
          scope.Leaves inner ∧ table.SameBounds after)
      (fun (inner, after) => scope.Leaves inner ∧ table.SameBounds after)

namespace Scoped.Hands

variable {α β : Type} {action : Scoped α} {handed : α → List Var → Prop}

theorem pure {result : α} (none : handed result []) :
    Scoped.Hands (Pure.pure result) handed := by
  intro scope table ordered
  exact ⟨⟨[], none, Nat.le_refl _⟩, .refl ordered, rfl, rfl⟩

/-- The variables of two actions in sequence follow one another. -/
theorem bind {next : α → Scoped β} {handed' : β → List Var → Prop}
    (hands : Scoped.Hands action handed)
    (continued : ∀ value vars, handed value vars →
      Scoped.Hands (next value) (fun result others => handed' result (vars ++ others))) :
    Scoped.Hands (action >>= next) handed' := by
  intro scope table ordered
  apply (hands scope table ordered).bind
  intro value ⟨inner, between⟩ ⟨⟨vars, fits, ascends⟩, leaves, same⟩
  apply (continued value vars fits inner between leaves.ordered).mono
  · intro result ⟨last, after⟩ ⟨⟨others, fits', ascends'⟩, leaves', same'⟩
    exact ⟨⟨vars ++ others, fits', ascends.append ascends'⟩, leaves.trans leaves',
      same.trans same'⟩
  · intro ⟨last, after⟩ ⟨leaves', same'⟩
    exact ⟨leaves.trans leaves', same.trans same'⟩

end Scoped.Hands

namespace Scope

/-- A reservation in a scope stays below the scope's limit. -/
theorem reserve_outcome (count : UInt32) (caller : String) (scope : Scope) (table : Table) :
    Outcome (reserve count caller (scope, table))
      (fun first state => first = scope.next ∧
        state = ({ scope with next := scope.next + count }, table) ∧
        (scope.next + count).toNat = scope.next.toNat + count.toNat ∧
        scope.Leaves { scope with next := scope.next + count })
      (fun state => state = (scope, table)) := by
  unfold reserve
  simp only
  split
  · exact rfl
  · rename_i fits
    split
    · exact rfl
    · rename_i room
      have sum : (scope.next + count).toNat = scope.next.toNat + count.toNat := by
        rw [UInt32.toNat_add]
        exact Nat.mod_eq_of_lt (Nat.lt_of_not_le fits)
      refine ⟨rfl, rfl, sum, ?_, UInt32.not_lt.mp room, rfl⟩
      apply UInt32.le_iff_toNat_le.mpr
      simp only [sum]
      omega

theorem onTable_outcome {α : Type} {action : EStateM Failure Table α} {scope : Scope}
    {table : Table} {ok : α → Table → Prop} {error : Table → Prop}
    (outcome : Outcome (action table) ok error) :
    Outcome (onTable action (scope, table))
      (fun result state => state.1 = scope ∧ ok result state.2)
      (fun state => state.1 = scope ∧ error state.2) := by
  unfold onTable
  simp only
  cases run : action table with
  | ok result after =>
      rw [run] at outcome
      exact ⟨rfl, outcome⟩
  | error failure after =>
      rw [run] at outcome
      exact ⟨rfl, outcome⟩

/-- One named variable. -/
theorem allocate_hands (name : String) :
    Scoped.Hands (allocate name) (fun var vars => vars = [var]) := by
  intro scope table ordered
  refine Outcome.bind ((reserve_outcome 1 name scope table).mono (fun _ _ known => known) ?_) ?_
  · intro state same
    subst same
    exact ⟨.refl ordered, rfl, rfl⟩
  intro first state ⟨firstEq, stateEq, sum, leaves⟩
  subst firstEq stateEq
  have registered :=
    Table.register_outcome scope.next (qualify scope.path name) table
  apply (onTable_outcome registered).mono
  · intro var ⟨inner, after⟩ ⟨innerEq, varEq, same⟩
    simp only at innerEq
    subst innerEq varEq
    refine ⟨⟨_, rfl, Nat.le_refl _, ?_⟩, leaves, same⟩
    change scope.next.toNat + 1 ≤ (scope.next + 1).toNat
    exact Nat.le_of_eq sum.symm
  · intro ⟨inner, after⟩ ⟨innerEq, same⟩
    simp only at innerEq
    subst innerEq
    exact ⟨leaves, same⟩

/-- A nested scope hands out what its action hands out. -/
theorem within_hands {α : Type} (name : String) (count : UInt32) {action : Scoped α}
    {handed : α → List Var → Prop} (hands : Scoped.Hands action handed) :
    Scoped.Hands (within name count action) handed := by
  intro scope table ordered
  have reserved := reserve_outcome count name scope table
  unfold within
  cases run : reserve count name (scope, table) with
  | error failure state =>
      rw [run] at reserved
      obtain rfl := reserved
      exact ⟨.refl ordered, rfl, rfl⟩
  | ok first state =>
      rw [run] at reserved
      obtain ⟨rfl, rfl, sum, leaves⟩ := reserved
      have nested := hands ⟨qualify scope.path name, scope.next, scope.next + count⟩ table
        leaves.later
      simp only
      cases innerRun : action (⟨qualify scope.path name, scope.next, scope.next + count⟩, table) with
      | error failure state =>
          rw [innerRun] at nested
          exact ⟨leaves, nested.2⟩
      | ok result state =>
          rw [innerRun] at nested
          obtain ⟨⟨vars, fits, ascends⟩, innerLeaves, same⟩ := nested
          have upTo := UInt32.le_iff_toNat_le.mp innerLeaves.inside
          exact ⟨⟨vars, fits, ascends.to_le upTo⟩, leaves, same⟩

end Scope

/-- A new scope of the table hands out what its action hands out, from the first address
that was not yet reserved. -/
theorem Table.within_outcome {α : Type} (name : String) (count : UInt32)
    {action : Scoped α} {handed : α → List Var → Prop} (hands : Scoped.Hands action handed)
    {table : Table} (inBounds : table.InBounds) :
    Outcome (Table.within name count action table)
      (fun result after => (∃ vars, handed result vars ∧ Ascends table.span after.span vars) ∧
        after.InBounds)
      (fun after => after.InBounds ∧ table.span ≤ after.span) := by
  have reserved := reserve_outcome count name inBounds
  unfold Table.within
  cases run : reserve count name table with
  | error failure state =>
      rw [run] at reserved
      obtain rfl := reserved
      exact ⟨inBounds, Nat.le_refl _⟩
  | ok first state =>
      rw [run] at reserved
      obtain ⟨rfl, sizeEq, nextEq, spanEq, bounded⟩ := reserved
      have inside : table.next ≤ table.next + count := by
        apply UInt32.le_iff_toNat_le.mpr
        rw [← nextEq]
        exact Nat.le_of_lt_succ (by simp only [Table.span] at spanEq; omega)
      have nested := hands ⟨qualify state.name name, table.next, table.next + count⟩ state inside
      simp only
      cases innerRun : action (⟨qualify state.name name, table.next, table.next + count⟩, state) with
      | error failure inner =>
          rw [innerRun] at nested
          obtain ⟨-, sameNext, sameSize⟩ := nested
          constructor
          · simpa only [InBounds, sameNext, sameSize] using bounded
          · simp only [Table.span, sameNext] at spanEq ⊢
            omega
      | ok result inner =>
          rw [innerRun] at nested
          obtain ⟨⟨vars, fits, ascends⟩, leaves, sameNext, sameSize⟩ := nested
          have upTo := UInt32.le_iff_toNat_le.mp leaves.inside
          constructor
          · refine ⟨vars, fits, ascends.to_le ?_⟩
            simpa only [Table.span, sameNext, nextEq] using upTo
          · simpa only [InBounds, sameNext, sameSize] using bounded

/-- One named variable of the table itself. -/
theorem Table.allocate_outcome (name : String) {table : Table} (inBounds : table.InBounds) :
    Outcome (Table.allocate name table)
      (fun var after => var.index = table.span ∧ after.span = table.span + 1 ∧ after.InBounds)
      (fun after => after.InBounds ∧ table.span ≤ after.span) := by
  have reserved := reserve_outcome 1 name inBounds
  refine Outcome.bind (reserved.mono (fun _ _ outcome => outcome) ?_) ?_
  · intro after same
    subst same
    exact ⟨inBounds, Nat.le_refl _⟩
  intro first after ⟨firstEq, _, _, spanEq, bounded⟩
  subst firstEq
  apply (register_outcome table.next (qualify after.name name) after).mono
  · intro var last ⟨varEq, sameNext, sameSize⟩
    subst varEq
    refine ⟨rfl, ?_, ?_⟩
    · simpa only [Table.span, sameNext, UInt32.toNat_one] using spanEq
    · simpa only [InBounds, sameNext, sameSize] using bounded
  · intro last ⟨sameNext, sameSize⟩
    constructor
    · simpa only [InBounds, sameNext, sameSize] using bounded
    · simp only [Table.span, sameNext] at spanEq ⊢
      omega

end Interlocking
