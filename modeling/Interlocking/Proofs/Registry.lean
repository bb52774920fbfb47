import Interlocking.Proofs.Yard
import Interlocking.Proofs.Search

/-!
# The registry of variables

Addresses are reserved in one step and named in another, a refused request may have used an
address up, and a nested scope takes its addresses from the scope around it while its variables
are recorded in the table. Whatever is asked for, in scopes of any depth, the table keeps a
proper registry: the addresses handed out are all different, each scope stays in its own range,
and address, name and events of a variable determine one another. The array of records stays
sorted, so that the search by halving finds whatever is there, and the index of the names says
the same as the records.
-/

namespace Interlocking

/-- Runs an action and gives a failure as part of the result. -/
def outcomeOf {σ α : Type} (action : EStateM Failure σ α) : EStateM Failure σ (Except Failure α) :=
  fun state =>
    match action state with
    | .ok result state => .ok (.ok result) state
    | .error failure state => .ok (.error failure) state

/-- What came of a sequence of requests to an allocator. -/
inductive Yield where
  | nothing
  /-- A variable was handed out. -/
  | bit (var : Var) (rest : Yield)
  /-- A scope was opened, and `inner` came of the requests in it. -/
  | scope (opened : Scope) (inner rest : Yield)
  | refused (failure : Failure) (rest : Yield)
  deriving DecidableEq, Repr

namespace Yield

/-- What came of two sequences of requests, one after the other. -/
def append : Yield → Yield → Yield
  | .nothing, later => later
  | .bit var rest, later => .bit var (rest.append later)
  | .scope opened inner rest, later => .scope opened inner (rest.append later)
  | .refused failure rest, later => .refused failure (rest.append later)

instance : Append Yield := ⟨append⟩

/-- What came of a request for one variable. -/
def ofBit : Except Failure Var → Yield
  | .ok var => .bit var .nothing
  | .error failure => .refused failure .nothing

/-- What came of a request for a scope and of the requests in it. -/
def ofScope : Except Failure (Scope × Yield) → Yield
  | .ok (opened, inner) => .scope opened inner .nothing
  | .error failure => .refused failure .nothing

/-- All variables that were handed out, in order. -/
def vars : Yield → List Var
  | .nothing => []
  | .bit var rest => var :: rest.vars
  | .scope _ inner rest => inner.vars ++ rest.vars
  | .refused _ rest => rest.vars

/-- The scopes that were opened directly, without those inside them. -/
def siblings : Yield → List Scope
  | .nothing => []
  | .bit _ rest => rest.siblings
  | .scope opened _ rest => opened :: rest.siblings
  | .refused _ rest => rest.siblings

/-- All scopes that were opened, at any depth, each with what came of the requests in it. -/
def scopes : Yield → List (Scope × Yield)
  | .nothing => []
  | .bit _ rest => rest.scopes
  | .scope opened inner rest => (opened, inner) :: (inner.scopes ++ rest.scopes)
  | .refused _ rest => rest.scopes

/-- The requests were served in ascending order from `first` on and below `limit`, and those in
a scope from the range of the scope. -/
def Fits (first limit : Nat) : Yield → Prop
  | .nothing => first ≤ limit
  | .bit var rest => first ≤ var.index ∧ rest.Fits (var.index + 1) limit
  | .scope opened inner rest => first ≤ opened.next.toNat ∧
      inner.Fits opened.next.toNat opened.limit.toNat ∧ rest.Fits opened.limit.toNat limit
  | .refused _ rest => rest.Fits first limit

variable {first middle limit : Nat} {yield later : Yield}

theorem vars_append : (yield ++ later).vars = yield.vars ++ later.vars := by
  change (yield.append later).vars = _
  induction yield with
  | nothing => rfl
  | bit var rest ih => simp [append, vars, ih]
  | scope opened inner rest _ ih => simp [append, vars, ih]
  | refused failure rest ih => simpa [append, vars] using ih

namespace Fits

/-- The variables of a sequence of requests ascend, those of nested scopes included. -/
theorem ascends (fits : yield.Fits first limit) : Ascends first limit yield.vars := by
  induction yield generalizing first limit with
  | nothing => exact fits
  | bit var rest ih => exact ⟨fits.1, ih fits.2⟩
  | scope opened inner rest inside ih =>
      exact ((inside fits.2.1).append (ih fits.2.2)).from_le fits.1
  | refused failure rest ih => exact ih fits

theorem from_le {start : Nat} (fits : yield.Fits first limit) (earlier : start ≤ first) :
    yield.Fits start limit := by
  induction yield with
  | nothing => exact Nat.le_trans earlier fits
  | bit var rest => exact ⟨Nat.le_trans earlier fits.1, fits.2⟩
  | scope opened inner rest => exact ⟨Nat.le_trans earlier fits.1, fits.2⟩
  | refused failure rest ih => exact ih fits

theorem to_le {bound : Nat} (fits : yield.Fits first limit) (later : limit ≤ bound) :
    yield.Fits first bound := by
  induction yield generalizing first with
  | nothing => exact Nat.le_trans fits later
  | bit var rest ih => exact ⟨fits.1, ih fits.2⟩
  | scope opened inner rest _ ih => exact ⟨fits.1, fits.2.1, ih fits.2.2⟩
  | refused failure rest ih => exact ih fits

theorem append (early : yield.Fits first middle) (late : later.Fits middle limit) :
    (yield ++ later).Fits first limit := by
  change (yield.append later).Fits first limit
  induction yield generalizing first with
  | nothing => exact late.from_le early
  | bit var rest ih => exact ⟨early.1, ih early.2⟩
  | scope opened inner rest _ ih => exact ⟨early.1, early.2.1, ih early.2.2⟩
  | refused failure rest ih => exact ih early

/-- Scopes that were opened directly start behind the first address. -/
theorem le_sibling (fits : yield.Fits first limit) {opened : Scope}
    (member : opened ∈ yield.siblings) : first ≤ opened.next.toNat := by
  induction yield generalizing first with
  | nothing => cases member
  | bit var rest ih =>
      have later := ih fits.2 member
      have here := fits.1
      omega
  | scope other inner rest _ ih =>
      rcases List.mem_cons.mp member with rfl | member
      · exact fits.1
      · have later := ih fits.2.2 member
        have here := fits.1
        have inside := fits.2.1.ascends.le
        omega
  | refused failure rest ih => exact ih fits member

/-- The ranges of scopes that were opened one after the other do so, too. -/
theorem siblings_follow (fits : yield.Fits first limit) :
    yield.siblings.Pairwise (fun earlier later => earlier.limit.toNat ≤ later.next.toNat) := by
  induction yield generalizing first with
  | nothing => exact .nil
  | bit var rest ih => exact ih fits.2
  | scope opened inner rest _ ih =>
      exact .cons (fun other member => fits.2.2.le_sibling member) (ih fits.2.2)
  | refused failure rest ih => exact ih fits

/-- What is true of a sequence of requests is true of those in each scope. -/
theorem scope (fits : yield.Fits first limit) {opened : Scope} {inner : Yield}
    (member : (opened, inner) ∈ yield.scopes) :
    inner.Fits opened.next.toNat opened.limit.toNat := by
  induction yield generalizing first limit with
  | nothing => cases member
  | bit var rest ih => exact ih fits.2 member
  | scope other within rest inside ih =>
      rcases List.mem_cons.mp member with same | member
      · obtain ⟨rfl, rfl⟩ := Prod.mk.inj same
        exact fits.2.1
      · rcases List.mem_append.mp member with member | member
        · exact inside fits.2.1 member
        · exact ih fits.2.2 member
  | refused failure rest ih => exact ih fits member

end Fits

end Yield

/-- Notes the scope in which an action begins. -/
def Scope.opening {α : Type} (action : Scoped α) : Scoped (Scope × α) := do
  let (opened, _) ← get
  return (opened, ← action)

namespace Allotment

/-- Makes the requests of an allotment in an open scope and notes what comes of them. A request
that fails does not keep the author from the next one. -/
def record : Allotment → Scoped Yield
  | .nothing => pure .nothing
  | .bit name rest => do
      let named ← outcomeOf (Scope.allocate name)
      return .ofBit named ++ (← rest.record)
  | .scope name count inner rest => do
      let opened ← outcomeOf (Scope.within name count (Scope.opening inner.record))
      return .ofScope opened ++ (← rest.record)

/-- Makes the requests of an allotment on the table itself and notes what comes of them. -/
def recordAll : Allotment → EStateM Failure Table Yield
  | .nothing => pure .nothing
  | .bit name rest => do
      let named ← outcomeOf (Table.allocate name)
      return .ofBit named ++ (← rest.recordAll)
  | .scope name count inner rest => do
      let opened ← outcomeOf (Table.within name count (Scope.opening inner.record))
      return .ofScope opened ++ (← rest.recordAll)

end Allotment

namespace Table

/-- All named variables have addresses below `next`, in ascending order, with different names
and the events that belong to their addresses, and the index of the names agrees with them. -/
structure Registered (table : Table) (next : Nat) : Prop where
  ascending : table.entries.toList.Pairwise (fun left right => left.var.index < right.var.index)
  below : ∀ entry ∈ table.entries.toList, entry.var.index < next
  names : (table.entries.toList.map (·.name)).Nodup
  events : ∀ entry ∈ table.entries.toList,
    entry.on.toNat = table.eventBase.toNat + 2 * entry.var.index ∧
      entry.off.toNat = entry.on.toNat + 1
  indexed : ∀ {name var}, table.find? name = some var ↔
    ∃ entry ∈ table.entries.toList, entry.name = name ∧ entry.var = var

/-- Requests that were served from `first` up to `limit` were added to the registry, and nothing
else was. -/
structure Records (before : Table) (first : Nat) (yield : Yield) (after : Table) (limit : Nat) :
    Prop where
  registered : after.Registered limit
  vars : after.entries.toList.map (·.var) = before.entries.toList.map (·.var) ++ yield.vars
  eventBase : after.eventBase = before.eventBase
  fits : yield.Fits first limit

variable {table before between after : Table} {first next limit : Nat} {yield later : Yield}

theorem Registered.mono (registered : table.Registered first) (later : first ≤ limit) :
    table.Registered limit :=
  { registered with
    below := fun entry member => Nat.lt_of_lt_of_le (registered.below entry member) later }

theorem Registered.new (name : String) (eventBase : UInt64) (size : UInt32) :
    Registered { name, eventBase, size } 0 where
  ascending := .nil
  below := by simp
  names := .nil
  events := by simp
  indexed := by simp [find?]

namespace Records

theorem nothing (registered : table.Registered first) (later : first ≤ limit) :
    table.Records first .nothing table limit where
  registered := registered.mono later
  vars := (List.append_nil _).symm
  eventBase := rfl
  fits := later

theorem refused (failure : Failure) (registered : table.Registered first)
    (later : first ≤ limit) : table.Records first (.refused failure .nothing) table limit :=
  { nothing registered later with }

theorem append (early : before.Records first yield between next)
    (late : between.Records next later after limit) :
    before.Records first (yield ++ later) after limit where
  registered := late.registered
  vars := by rw [late.vars, early.vars, Yield.vars_append, List.append_assoc]
  eventBase := late.eventBase.trans early.eventBase
  fits := early.fits.append late.fits

end Records

theorem insertEntry_of_below {entry : Variable} {entries : Array Variable}
    (below : ∀ other ∈ entries.toList, other.var.index < entry.var.index) :
    insertEntry entry entries = entries.push entry := by
  have all : partitionPoint (fun other => other.var.address < entry.var.address) entries =
      entries.size := by
    apply partitionPoint_eq (Nat.le_refl _)
    intro index other here
    obtain ⟨bounded, rfl⟩ := Array.getElem?_eq_some_iff.mp here
    have smaller := below entries[index] (by simp)
    simpa [bounded] using UInt32.lt_iff_toNat_lt.mpr smaller
  simp [insertEntry, all, Array.insertIdxIfInBounds]

theorem Registered.find?_isSome (registered : table.Registered first) {name : String} :
    (table.find? name).isSome ↔ name ∈ table.entries.toList.map (·.name) := by
  simp [Option.isSome_iff_exists, registered.indexed]

theorem toNat_of_events? {base on off : UInt64} {address : UInt32}
    (found : events? base address = some (on, off)) :
    on.toNat = base.toNat + 2 * address.toNat ∧ off.toNat = on.toNat + 1 := by
  unfold events? at found
  simp only at found
  split at found
  · rename_i fits
    obtain ⟨rfl, rfl⟩ := Prod.mk.inj (Option.some.inj found)
    rw [UInt64.toNat_ofNat_of_lt' (by omega), UInt64.toNat_ofNat_of_lt' fits]
    exact ⟨rfl, rfl⟩
  · cases found

/-- A new record behind all others, with a new name and the events of its address. -/
theorem Registered.add (registered : table.Registered first) (entry : Variable)
    (behind : first ≤ entry.var.index) (fresh : entry.name ∉ table.entries.toList.map (·.name))
    (events : entry.on.toNat = table.eventBase.toNat + 2 * entry.var.index ∧
      entry.off.toNat = entry.on.toNat + 1) :
    Registered { table with
      entries := table.entries.push entry
      names := (entry.name, entry.var) :: table.names } (entry.var.index + 1) where
  ascending := by
    rw [Array.toList_push]
    apply List.pairwise_append.mpr ⟨registered.ascending, List.pairwise_singleton _ _, ?_⟩
    intro other member last isLast
    rw [List.mem_singleton.mp isLast]
    exact Nat.lt_of_lt_of_le (registered.below other member) behind
  below := by
    intro other member
    rw [Array.toList_push] at member
    rcases List.mem_append.mp member with earlier | isLast
    · have smaller := registered.below other earlier
      omega
    · rw [List.mem_singleton.mp isLast]
      exact Nat.lt_succ_self _
  names := by
    rw [Array.toList_push, List.map_append, List.nodup_append]
    refine ⟨registered.names, List.nodup_singleton _, ?_⟩
    intro name member other isLast same
    rw [same, List.mem_singleton.mp isLast] at member
    exact fresh member
  events := by
    intro other member
    rw [Array.toList_push] at member
    rcases List.mem_append.mp member with earlier | isLast
    · exact registered.events other earlier
    · rw [List.mem_singleton.mp isLast]
      exact events
  indexed := by
    intro name var
    have earlier : (∃ other ∈ table.entries.toList, other.name = name ∧ other.var = var) ↔
        List.lookup name table.names = some var := registered.indexed.symm
    simp only [find?, List.lookup_cons, Array.toList_push, List.mem_append, List.mem_singleton,
      or_and_right, exists_or, exists_eq_left, earlier]
    by_cases same : name = entry.name
    · subst same
      have unknown : List.lookup entry.name table.names ≠ some var := by
        intro known
        obtain ⟨other, member, sameName, -⟩ := earlier.mpr known
        exact fresh (List.mem_map.mpr ⟨other, member, sameName⟩)
      simp [unknown]
    · have different : (name == entry.name) = false := beq_eq_false_iff_ne.mpr same
      simp [different, Ne.symm same]

/-- Naming a variable at an address behind all others adds it to the registry. -/
theorem register_records (address : UInt32) (name : String) (registered : table.Registered first)
    (behind : first ≤ address.toNat) :
    Outcome (register address name table)
      (fun var after => table.Records first (.bit var .nothing) after (address.toNat + 1))
      (fun after => after = table) := by
  unfold register
  split
  · rfl
  rename_i unused
  cases found : events? table.eventBase address with
  | none => rfl
  | some events =>
      obtain ⟨on, off⟩ := events
      let entry : Variable := { var := ⟨address⟩, name, on, off }
      have last : insertEntry entry table.entries = table.entries.push entry :=
        insertEntry_of_below fun other member =>
          Nat.lt_of_lt_of_le (registered.below other member) behind
      have added := registered.add entry behind
        (fun used => unused (registered.find?_isSome.mpr used)) (toNat_of_events? found)
      simp only [Outcome, entry, last]
      exact ⟨added, by simp [Yield.vars], rfl, behind, Nat.le_refl _⟩

end Table

theorem outcomeOf_outcome {σ α : Type} {action : EStateM Failure σ α} {state : σ}
    {ok : α → σ → Prop} {error : σ → Prop} (outcome : Outcome (action state) ok error) :
    Outcome (outcomeOf action state)
      (fun result after =>
        match result with
        | .ok value => ok value after
        | .error _ => error after)
      (fun _ => False) := by
  unfold outcomeOf
  cases run : action state with
  | ok value after =>
      rw [run] at outcome
      exact outcome
  | error failure after =>
      rw [run] at outcome
      exact outcome

namespace Scope

variable {table between after : Table} {scope middle inner : Scope} {yield later : Yield}

/-- What a sequence of requests in an open scope leaves of the scope and of the table. -/
structure Serves (scope : Scope) (table : Table) (yield : Yield) (inner : Scope)
    (after : Table) : Prop where
  records : table.Records scope.next.toNat yield after inner.next.toNat
  leaves : scope.Leaves inner
  same : table.SameBounds after

theorem Serves.append (early : scope.Serves table yield middle between)
    (late : middle.Serves between later inner after) :
    scope.Serves table (yield ++ later) inner after where
  records := early.records.append late.records
  leaves := early.leaves.trans late.leaves
  same := early.same.trans late.same

/-- A request for one variable of a scope. -/
theorem allocate_serves (name : String) (ordered : scope.next ≤ scope.limit)
    (registered : table.Registered scope.next.toNat) :
    Outcome (outcomeOf (allocate name) (scope, table))
      (fun result state => scope.Serves table (.ofBit result) state.1 state.2)
      (fun _ => False) := by
  have named : Outcome (allocate name (scope, table))
      (fun var state => scope.Serves table (.bit var .nothing) state.1 state.2)
      (fun state => scope.Leaves state.1 ∧ state.2 = table) := by
    refine Outcome.bind ((reserve_outcome 1 name scope table).mono (fun _ _ known => known) ?_) ?_
    · intro state same
      subst same
      exact ⟨.refl ordered, rfl⟩
    rintro first state ⟨firstEq, stateEq, sum, leaves⟩
    subst firstEq stateEq
    have bounds := Table.register_outcome scope.next (qualify scope.path name) table
    have records := Table.register_records scope.next (qualify scope.path name) registered
      (Nat.le_refl _)
    apply (onTable_outcome (bounds.and records)).mono
    · rintro var ⟨inner, after⟩ ⟨innerEq, ⟨_, same⟩, recorded⟩
      simp only at innerEq
      subst innerEq
      exact ⟨by simpa only [sum, UInt32.toNat_one] using recorded, leaves, same⟩
    · rintro ⟨inner, after⟩ ⟨innerEq, _, tableEq⟩
      simp only at innerEq
      subst innerEq
      exact ⟨leaves, tableEq⟩
  apply (outcomeOf_outcome named).mono _ (fun _ absurd => absurd)
  rintro result ⟨inner, after⟩ known
  cases result with
  | ok var => exact known
  | error failure =>
      obtain ⟨leaves, tableEq⟩ := known
      simp only at tableEq
      subst tableEq
      exact ⟨.refused failure registered (UInt32.le_iff_toNat_le.mp leaves.later), leaves,
        rfl, rfl⟩

theorem opening_outcome {α : Type} {action : Scoped α} {ok : α → Scope × Table → Prop}
    {error : Scope × Table → Prop} (outcome : Outcome (action (scope, table)) ok error) :
    Outcome (opening action (scope, table))
      (fun result state => result.1 = scope ∧ ok result.2 state) error := by
  have noted : Outcome ((get : Scoped (Scope × Table)) (scope, table))
      (fun value state => value = (scope, table) ∧ state = (scope, table)) error := ⟨rfl, rfl⟩
  apply noted.bind
  intro value state ⟨valueEq, stateEq⟩
  subst valueEq stateEq
  exact outcome.bind fun result state holds => ⟨rfl, holds⟩

/-- A sequence of requests that can be served in any scope that starts behind the registry. -/
def Served (action : Scoped Yield) : Prop :=
  ∀ (scope : Scope) (table : Table), scope.next ≤ scope.limit →
    table.Registered scope.next.toNat →
    Outcome (action (scope, table))
      (fun yield state => scope.Serves table yield state.1 state.2) (fun _ => False)

/-- Requests in a scope, seen from outside: the whole range of the scope is used up. -/
theorem Serves.nested {first : Nat} (serves : scope.Serves table yield inner after)
    (behind : first ≤ scope.next.toNat) :
    table.Records first (.scope scope yield .nothing) after scope.limit.toNat where
  registered := serves.records.registered.mono (UInt32.le_iff_toNat_le.mp serves.leaves.inside)
  vars := by simpa [Yield.vars] using serves.records.vars
  eventBase := serves.records.eventBase
  fits := ⟨behind, serves.records.fits.to_le (UInt32.le_iff_toNat_le.mp serves.leaves.inside),
    Nat.le_refl _⟩

/-- A request for a nested scope, with the requests in it. -/
theorem within_serves (name : String) (count : UInt32) {action : Scoped Yield}
    (served : Served action) (ordered : scope.next ≤ scope.limit)
    (registered : table.Registered scope.next.toNat) :
    Outcome (outcomeOf (within name count (opening action)) (scope, table))
      (fun result state => scope.Serves table (.ofScope result) state.1 state.2)
      (fun _ => False) := by
  have reserved := reserve_outcome count name scope table
  unfold outcomeOf within
  cases run : reserve count name (scope, table) with
  | error failure state =>
      rw [run] at reserved
      obtain rfl := reserved
      exact ⟨.refused failure registered (Nat.le_refl _), .refl ordered, rfl, rfl⟩
  | ok first state =>
      rw [run] at reserved
      obtain ⟨rfl, rfl, sum, leaves⟩ := reserved
      have nested := opening_outcome (served ⟨qualify scope.path name, scope.next,
        scope.next + count⟩ table leaves.later registered)
      simp only
      cases innerRun : opening action
          (⟨qualify scope.path name, scope.next, scope.next + count⟩, table) with
      | error failure state =>
          rw [innerRun] at nested
          exact nested.elim
      | ok result state =>
          rw [innerRun] at nested
          obtain ⟨opened, yield⟩ := result
          obtain ⟨openedEq, serves⟩ := nested
          simp only at openedEq
          subst openedEq
          exact ⟨serves.nested (Nat.le_refl _), leaves, serves.same⟩

end Scope

namespace Table

variable {table between after : Table} {yield later : Yield}

/-- What a sequence of requests to the table itself leaves of it. -/
structure Serves (table : Table) (yield : Yield) (after : Table) : Prop where
  records : table.Records table.span yield after after.span
  inBounds : after.InBounds
  size : after.size = table.size

theorem Serves.append (early : table.Serves yield between) (late : between.Serves later after) :
    table.Serves (yield ++ later) after where
  records := early.records.append late.records
  inBounds := late.inBounds
  size := late.size.trans early.size

theorem reserve_eq (count : UInt32) (caller : String) :
    Outcome (reserve count caller table)
      (fun _ after => after = { table with next := table.next + count })
      (fun _ => True) := by
  unfold reserve
  split
  · trivial
  · rfl

theorem Registered.withNext {first : Nat} (registered : table.Registered first) (next : UInt32) :
    { table with next }.Registered first :=
  { registered with }

/-- A request for one variable of the table. -/
theorem allocate_serves (name : String) (inBounds : table.InBounds)
    (registered : table.Registered table.span) :
    Outcome (outcomeOf (allocate name) table)
      (fun result after => table.Serves (.ofBit result) after) (fun _ => False) := by
  have named : Outcome (allocate name table)
      (fun var after => table.Serves (.bit var .nothing) after)
      (fun after => ∀ failure, table.Serves (.refused failure .nothing) after) := by
    have reserved := (reserve_outcome 1 name inBounds).and (reserve_eq 1 name)
    refine Outcome.bind (reserved.mono (fun _ _ known => known) ?_) ?_
    · rintro after ⟨same, _⟩ failure
      subst same
      exact ⟨.refused failure registered (Nat.le_refl _), inBounds, rfl⟩
    rintro first between ⟨⟨firstEq, _, _, spanEq, bounded⟩, betweenEq⟩
    subst firstEq betweenEq
    have bounds := register_outcome table.next (qualify table.name name)
      { table with next := table.next + 1 }
    have records := register_records table.next (qualify table.name name)
      (registered.withNext (table.next + 1)) (Nat.le_refl _)
    apply (bounds.and records).mono
    · rintro var after ⟨⟨_, sameNext, sameSize⟩, recorded⟩
      have limitEq : after.span = table.span + 1 := by
        simpa only [span, sameNext, UInt32.toNat_one] using spanEq
      refine ⟨?_, ?_, sameSize⟩
      · rw [limitEq]
        exact { recorded with }
      · simpa only [InBounds, sameNext, sameSize] using bounded
    · rintro after ⟨_, same⟩ failure
      subst same
      have later : table.span ≤ (table.next + 1).toNat := by
        simp only [span] at spanEq ⊢
        omega
      have refused := Records.refused failure (registered.withNext (table.next + 1)) later
      exact ⟨{ refused with }, bounded, rfl⟩
  apply (outcomeOf_outcome named).mono _ (fun _ absurd => absurd)
  intro result after known
  cases result with
  | ok var => exact known
  | error failure => exact known failure

/-- A request for a scope of the table, with the requests in it. -/
theorem within_serves (name : String) (count : UInt32) {action : Scoped Yield}
    (served : Scope.Served action) (inBounds : table.InBounds)
    (registered : table.Registered table.span) :
    Outcome (outcomeOf (within name count (Scope.opening action)) table)
      (fun result after => table.Serves (.ofScope result) after) (fun _ => False) := by
  have reserved := (reserve_outcome count name inBounds).and (reserve_eq count name)
  unfold outcomeOf within
  cases run : reserve count name table with
  | error failure state =>
      rw [run] at reserved
      obtain ⟨rfl, _⟩ := reserved
      exact ⟨.refused failure registered (Nat.le_refl _), inBounds, rfl⟩
  | ok first state =>
      rw [run] at reserved
      obtain ⟨⟨rfl, _, _, spanEq, bounded⟩, rfl⟩ := reserved
      have inside : table.next ≤ table.next + count := by
        apply UInt32.le_iff_toNat_le.mpr
        simp only [span] at spanEq
        omega
      have nested := Scope.opening_outcome (served ⟨qualify table.name name, table.next,
        table.next + count⟩ { table with next := table.next + count } inside
        (registered.withNext _))
      simp only
      cases innerRun : Scope.opening action (⟨qualify table.name name, table.next,
          table.next + count⟩, { table with next := table.next + count }) with
      | error failure inner =>
          rw [innerRun] at nested
          exact nested.elim
      | ok result inner =>
          rw [innerRun] at nested
          obtain ⟨opened, yield⟩ := result
          obtain ⟨openedEq, serves⟩ := nested
          obtain ⟨sameNext, sameSize⟩ := serves.same
          simp only at openedEq
          subst openedEq
          refine ⟨?_, ?_, sameSize⟩
          · have recorded := serves.nested (Nat.le_refl _)
            have limitEq : inner.2.span = (table.next + count).toNat :=
              congrArg UInt32.toNat sameNext
            rw [limitEq]
            exact { recorded with }
          · simpa only [InBounds, sameNext, sameSize] using bounded

end Table

namespace Allotment

theorem record_served (allotment : Allotment) : Scope.Served allotment.record := by
  induction allotment with
  | nothing =>
      intro scope table ordered registered
      exact ⟨.nothing registered (Nat.le_refl _), .refl ordered, rfl, rfl⟩
  | bit name rest ih =>
      intro scope table ordered registered
      apply (Scope.allocate_serves name ordered registered).bind
      intro result ⟨middle, between⟩ early
      apply (ih middle between early.leaves.ordered early.records.registered).bind
      intro later state late
      exact early.append late
  | scope name count inner rest inside ih =>
      intro scope table ordered registered
      apply (Scope.within_serves name count inside ordered registered).bind
      intro result ⟨middle, between⟩ early
      apply (ih middle between early.leaves.ordered early.records.registered).bind
      intro later state late
      exact early.append late

/-- Requests to the table are served in ascending order, and what is served is registered. -/
theorem recordAll_serves (allotment : Allotment) {table : Table} (inBounds : table.InBounds)
    (registered : table.Registered table.span) :
    Outcome (allotment.recordAll table) (fun yield after => table.Serves yield after)
      (fun _ => False) := by
  induction allotment generalizing table with
  | nothing => exact ⟨.nothing registered (Nat.le_refl _), inBounds, rfl⟩
  | bit name rest ih =>
      apply (Table.allocate_serves name inBounds registered).bind
      intro result between early
      apply (ih early.inBounds early.records.registered).bind
      intro later after late
      exact early.append late
  | scope name count inner rest _ ih =>
      apply (Table.within_serves name count inner.record_served inBounds registered).bind
      intro result between early
      apply (ih early.inBounds early.records.registered).bind
      intro later after late
      exact early.append late

end Allotment

namespace Table

variable {table : Table} {next : Nat}

namespace Registered

/-- Records stand in the order of their addresses. -/
theorem lt_of_index_lt (registered : table.Registered next) {left right : Nat}
    {first second : Variable} (isFirst : table.entries[left]? = some first)
    (isSecond : table.entries[right]? = some second) (before : left < right) :
    first.var.address < second.var.address := by
  obtain ⟨_, rfl⟩ := Array.getElem?_eq_some_iff.mp isFirst
  obtain ⟨bounded, rfl⟩ := Array.getElem?_eq_some_iff.mp isSecond
  exact UInt32.lt_iff_toNat_lt.mpr
    (List.pairwise_iff_getElem.mp registered.ascending left right _ bounded before)

/-- The search by halving finds the record of a variable, and finds nothing else. -/
theorem info_eq_ok (registered : table.Registered next) {var : Var} {entry : Variable} :
    table.info var = .ok entry ↔ entry ∈ table.entries.toList ∧ entry.var = var := by
  unfold info info?
  constructor
  · intro found
    split at found
    · rename_i other known
      cases found
      split at known
      · rename_i place located
        obtain ⟨other, here, equal⟩ := locate_ok located
        cases here.symm.trans known
        refine ⟨Array.mem_toList_iff.mpr (Array.mem_of_getElem? here), ?_⟩
        exact congrArg Var.mk (Std.LawfulEqOrd.eq_of_compare equal)
      · cases known
    · cases found
  · rintro ⟨member, rfl⟩
    obtain ⟨place, here⟩ := Array.mem_iff_getElem?.mp (Array.mem_toList_iff.mp member)
    have located : locate (fun other => compare other.var.address entry.var.address)
        table.entries = .ok place := by
      refine locate_eq_ok here (Std.ReflOrd.compare_self (a := entry.var.address)) ?_
      intro index other present
      rw [Std.compare_eq_gt]
      refine ⟨?_, registered.lt_of_index_lt here present⟩
      intro greater
      rcases Nat.lt_trichotomy index place with before | rfl | after
      · exact absurd greater (UInt32.lt_asymm (registered.lt_of_index_lt present here before))
      · cases here.symm.trans present
        exact absurd greater (UInt32.lt_irrefl _)
      · exact after
    simp only [located, here]

/-- All events of all variables are different. -/
theorem events_nodup (registered : table.Registered next) :
    (table.entries.toList.flatMap fun entry => [entry.on, entry.off]).Nodup := by
  apply List.nodup_flatMap.mpr
  constructor
  · intro entry member
    have events := registered.events entry member
    have different : entry.on ≠ entry.off := by
      intro same
      rw [same] at events
      omega
    simpa using different
  · apply registered.ascending.imp_of_mem
    intro left right isLeft isRight smaller event inLeft inRight
    have leftEvents := registered.events left isLeft
    have rightEvents := registered.events right isRight
    have leftCase : event = left.on ∨ event = left.off := by simpa using inLeft
    have rightCase : event = right.on ∨ event = right.off := by simpa using inRight
    have leftBound : event.toNat ≤ left.off.toNat := by rcases leftCase with rfl | rfl <;> omega
    have rightBound : right.on.toNat ≤ event.toNat := by rcases rightCase with rfl | rfl <;> omega
    omega

end Registered

/-- The table accounts for all that came of the requests made to it. -/
structure AccountsFor (table : Table) (yield : Yield) : Prop where
  distinct : yield.vars.Nodup
  below : ∀ var ∈ yield.vars, var.index < table.span
  inBounds : table.span ≤ table.size.toNat
  /-- Variables of a scope, or of a scope inside it, lie in the range of the scope. -/
  inScope : ∀ opened inner, (opened, inner) ∈ yield.scopes →
    ∀ var ∈ inner.vars, opened.next.toNat ≤ var.index ∧ var.index < opened.limit.toNat
  /-- Scopes that were opened next to one another, in the table or in one scope, have ranges
  of which one ends before the other starts. -/
  apart : ∀ inside ∈ yield :: yield.scopes.map (·.2),
    inside.siblings.Pairwise (fun earlier later => earlier.limit.toNat ≤ later.next.toNat)
  listed : table.entries.toList.map (·.var) = yield.vars
  ascending : table.entries.toList.Pairwise (fun left right => left.var.index < right.var.index)
  names : (table.entries.toList.map (·.name)).Nodup
  /-- Looking up a name and reading the record of a variable are inverse to each other. -/
  found : ∀ name var, table.find? name = some var ↔
    ∃ entry, table.info var = .ok entry ∧ entry.name = name
  events : ∀ entry ∈ table.entries.toList,
    entry.on.toNat = table.eventBase.toNat + 2 * entry.var.index ∧
      entry.off.toNat = entry.on.toNat + 1
  eventsDistinct : (table.entries.toList.flatMap fun entry => [entry.on, entry.off]).Nodup

theorem Serves.accountsFor {yield : Yield} {after : Table} (serves : table.Serves yield after)
    (new : table.entries = #[]) : after.AccountsFor yield where
  distinct := serves.records.fits.ascends.nodup
  below := fun _ member => (serves.records.fits.ascends.bounds member).2
  inBounds := UInt32.le_iff_toNat_le.mp serves.inBounds
  inScope := fun _ _ nested _ member => (serves.records.fits.scope nested).ascends.bounds member
  apart := by
    intro inside member
    rcases List.mem_cons.mp member with rfl | member
    · exact serves.records.fits.siblings_follow
    · obtain ⟨⟨opened, inner⟩, nested, rfl⟩ := List.mem_map.mp member
      exact (serves.records.fits.scope nested).siblings_follow
  listed := by simpa [new] using serves.records.vars
  ascending := serves.records.registered.ascending
  names := serves.records.registered.names
  found := by
    intro name var
    have registered := serves.records.registered
    simp only [registered.indexed, registered.info_eq_ok]
    constructor
    · rintro ⟨entry, member, nameEq, varEq⟩
      exact ⟨entry, ⟨member, varEq⟩, nameEq⟩
    · rintro ⟨entry, ⟨member, varEq⟩, nameEq⟩
      exact ⟨entry, member, nameEq, varEq⟩
  events := serves.records.registered.events
  eventsDistinct := serves.records.registered.events_nodup

/-- Whatever variables and scopes are asked of a new table, in scopes of any depth and whether
or not a request is refused, the table accounts for what it has handed out. -/
theorem accountsFor_recordAll (name : String) (eventBase : UInt64) (size : UInt32)
    (allotment : Allotment) :
    ∃ yield table, allotment.recordAll { name, eventBase, size } = .ok yield table ∧
      table.eventBase = eventBase ∧ table.size = size ∧ table.AccountsFor yield := by
  have inBounds : InBounds { name, eventBase, size } := UInt32.zero_le
  have served := allotment.recordAll_serves inBounds (.new name eventBase size)
  cases run : allotment.recordAll { name, eventBase, size } with
  | error failure after =>
      rw [run] at served
      exact served.elim
  | ok yield after =>
      rw [run] at served
      exact ⟨yield, after, rfl, served.records.eventBase, served.size, served.accountsFor rfl⟩

/-- A second variable with the same name is refused, but its address is used up. -/
example :
    (Allotment.scope "a" 3 (.bit "x" (.bit "x" (.bit "y" (.bit "z" .nothing))))
      (.bit "x" .nothing)).recordAll { name := "t", eventBase := 16, size := 8 } =
    .ok
      (.scope ⟨"t.a", 0, 3⟩
        (.bit ⟨0⟩ (.refused (.defect (.duplicateName "t.a.x")) (.bit ⟨2⟩
          (.refused (.defect (.overrun "t.a" "z" 1 0)) .nothing))))
        (.bit ⟨3⟩ .nothing))
      { name := "t", eventBase := 16, size := 8, next := 4,
        entries := #[⟨⟨0⟩, "t.a.x", 16, 17⟩, ⟨⟨2⟩, "t.a.y", 20, 21⟩, ⟨⟨3⟩, "t.x", 22, 23⟩],
        names := [("t.x", ⟨3⟩), ("t.a.y", ⟨2⟩), ("t.a.x", ⟨0⟩)] } := by
  cbv

end Table

end Interlocking
