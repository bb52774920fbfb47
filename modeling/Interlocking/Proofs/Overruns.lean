import Interlocking.Proofs.Registry

/-!
# Requests for more than is left

A table and the scopes in it refuse a request for more addresses than they have left, and the
refusal leaves everything as it was. The table compares the request with what is left. A scope
computes the end of the range first, and where the end is no address it cannot tell the overrun any
more; so a scope reports every overrun but those by a number close to the largest there is.
-/

namespace Interlocking

/-- A table to which requests of any kind were made, whatever came of them. -/
def Table.Reached (table : Table) : Prop :=
  ∃ name eventBase size, ∃ (requests : Allotment) (yield : Yield),
    requests.recordAll { name, eventBase, size } = .ok yield table

/-- A scope that is open in a table, at any depth and with any requests made in it. -/
inductive Scope.Open : Scope → Table → Prop where
  /-- A scope of the table. -/
  | root {table after : Table} {name : String} {count first : UInt32} (reached : table.Reached)
      (reserved : Table.reserve count name table = .ok first after) :
      Open { path := qualify after.name name, next := first, limit := first + count } after
  /-- A scope in another one. -/
  | nested {scope outer : Scope} {table after : Table} {name : String} {count first : UInt32}
      (opened : Open scope table)
      (reserved : Scope.reserve count name (scope, table) = .ok first (outer, after)) :
      Open { path := qualify outer.path name, next := first, limit := first + count } after
  /-- Requests are made in the scope. -/
  | used {scope inner : Scope} {table after : Table} {requests : Allotment} {yield : Yield}
      (opened : Open scope table)
      (recorded : requests.record (scope, table) = .ok yield (inner, after)) : Open inner after

/-- The scope that is open. -/
def Scope.look : Scoped Scope := fun (scope, table) => .ok scope (scope, table)

theorem Table.Reached.registered {table : Table} (reached : table.Reached) :
    table.InBounds ∧ table.Registered table.span := by
  obtain ⟨name, eventBase, size, requests, yield, recorded⟩ := reached
  have inBounds : Table.InBounds { name, eventBase, size } := UInt32.zero_le
  have served := requests.recordAll_serves inBounds (.new name eventBase size)
  rw [recorded] at served
  exact ⟨served.inBounds, served.records.registered⟩

namespace Scope

/-- A scope whose range was reserved in the table, and nothing in what is left of it was named. -/
structure Housed (scope : Scope) (table : Table) : Prop where
  ordered : scope.next ≤ scope.limit
  reserved : scope.limit ≤ table.next
  inBounds : table.InBounds
  registered : table.Registered scope.next.toNat

variable {scope : Scope} {first count limit : UInt32}

/-- Every scope that is open has a range of its table. -/
theorem Open.housed {table : Table} (opened : scope.Open table) : scope.Housed table := by
  induction opened with
  | @root table after name count first reached reserved =>
      obtain ⟨inBounds, registered⟩ := reached.registered
      have outcome := (Table.reserve_outcome count name inBounds).and (Table.reserve_eq count name)
      rw [reserved] at outcome
      obtain ⟨⟨rfl, -, -, span, bounded⟩, rfl⟩ := outcome
      refine ⟨?_, UInt32.le_refl _, bounded, registered.withNext _⟩
      apply UInt32.le_iff_toNat_le.mpr
      simp only [Table.span] at span
      simp only [span]
      omega
  | @nested scope outer table after name count first opened reserved housed =>
      have outcome := reserve_outcome count name scope table
      rw [reserved] at outcome
      obtain ⟨rfl, same, -, leaves⟩ := outcome
      obtain ⟨rfl, rfl⟩ := Prod.mk.inj same
      exact ⟨leaves.later, UInt32.le_trans leaves.inside housed.reserved, housed.inBounds,
        housed.registered⟩
  | @used scope inner table after requests yield opened recorded housed =>
      have served := requests.record_served scope table housed.ordered housed.registered
      rw [recorded] at served
      obtain ⟨records, leaves, next, size⟩ := served
      refine ⟨leaves.ordered, ?_, ?_, records.registered⟩
      · rw [leaves.limit, next]
        exact housed.reserved
      · rw [Table.InBounds, next, size]
        exact housed.inBounds

theorem toNat_end (fits : first.toNat + count.toNat < UInt32.size) :
    (first + count).toNat = first.toNat + count.toNat := by
  rw [UInt32.toNat_add]
  exact Nat.mod_eq_of_lt fits

/-- The scope is a range of `count` addresses from `first` on that does not pass `limit`. -/
structure Spans (scope : Scope) (first count limit : UInt32) : Prop where
  start : scope.next = first
  last : scope.limit.toNat = first.toNat + count.toNat
  inside : scope.limit ≤ limit

/-- A range that fits into what is left neither wraps around nor passes the end. -/
theorem spans_of_le (ordered : first ≤ limit) (enough : count ≤ limit - first) (path : String) :
    Spans { path, next := first, limit := first + count } first count limit := by
  have before := UInt32.le_iff_toNat_le.mp ordered
  have room := UInt32.le_iff_toNat_le.mp enough
  rw [UInt32.toNat_sub_of_le _ _ ordered] at room
  have sum : (first + count).toNat = first.toNat + count.toNat := by
    apply toNat_end
    have bound := limit.toNat_lt
    simp only [UInt32.size]
    omega
  refine ⟨rfl, sum, UInt32.le_iff_toNat_le.mpr ?_⟩
  simp only [sum]
  omega

/-- What is left of a scope can be reserved. -/
theorem reserve_of_le (ordered : scope.next ≤ scope.limit) (enough : count ≤ scope.remaining)
    (caller : String) (table : Table) :
    reserve count caller (scope, table) =
      .ok scope.next ({ scope with next := scope.next + count }, table) := by
  obtain ⟨-, last, inside⟩ := spans_of_le ordered enough scope.path
  have fits : ¬UInt32.size ≤ scope.next.toNat + count.toNat :=
    Nat.not_le_of_lt (last ▸ (scope.next + count).toNat_lt)
  simp only [reserve, if_neg fits, if_neg (UInt32.not_lt.mpr inside)]

/-- More than what is left cannot be reserved; but it is no overrun where the end of the range
would be no address. -/
theorem reserve_of_lt (ordered : scope.next ≤ scope.limit) (short : scope.remaining < count)
    (caller : String) (table : Table) :
    reserve count caller (scope, table) =
      .error (if scope.next.toNat + count.toNat < UInt32.size
        then .defect (.overrun scope.path caller count scope.remaining)
        else .breach .addressOverflow) (scope, table) := by
  have before := UInt32.le_iff_toNat_le.mp ordered
  have room := UInt32.lt_iff_toNat_lt.mp short
  rw [remaining, UInt32.toNat_sub_of_le _ _ ordered] at room
  by_cases fits : scope.next.toNat + count.toNat < UInt32.size
  · have outside : scope.limit < scope.next + count := by
      rw [UInt32.lt_iff_toNat_lt, toNat_end fits]
      omega
    simp only [reserve, if_neg (Nat.not_le_of_lt fits), if_pos outside, if_pos fits]
  · simp only [reserve, if_pos (Nat.le_of_not_lt fits), if_neg fits]

/-- A new scope has as many addresses left as were asked for. -/
theorem remaining_of_new (path : String) (first count : UInt32) :
    remaining { path, next := first, limit := first + count } = count := by
  rw [remaining, UInt32.add_comm, UInt32.add_sub_cancel]

end Scope

/-- A table with sixteen addresses. -/
def smallTable : Table := { name := "t", eventBase := 0, size := 16 }

/-- Whoever asks for too many addresses is refused, at every depth, and the refusal is an overrun
unless the number is close to the largest there is. Take any table, whatever requests were made to
it. It gives a scope of `count` addresses if it has as many left, and otherwise it reports the
overrun and stays as it is. Take any scope that is open in a table, at any depth and whatever
requests were made there. It too gives a scope of `count` addresses exactly if it has as many left,
and otherwise the scope and the table stay as they are. The refusal is an overrun as long as the end
of the range that was asked for is an address, which it is for all counts up to the largest address
less the size of the table. Beyond that the refusal is an overflow. -/
theorem overruns_are_refused_at_every_depth (table : Table) (scope : Scope) (name : String)
    (count : UInt32) :
    (table.Reached →
      (count ≤ table.remaining → ∃ inner after,
        Table.within name count Scope.look table = .ok inner after ∧ inner.Open after ∧
          inner.Spans table.next count table.size ∧ inner.remaining = count ∧
          after.remaining = table.remaining - count) ∧
      (table.remaining < count → ∀ (α : Type) (action : Scoped α),
        Table.within name count action table =
          .error (.defect (.overrun table.name name count table.remaining)) table)) ∧
    (scope.Open table →
      (count ≤ scope.remaining → ∃ inner outer,
        Scope.within name count Scope.look (scope, table) = .ok inner (outer, table) ∧
          inner.Open table ∧ inner.Spans scope.next count scope.limit ∧ inner.remaining = count ∧
          outer.remaining = scope.remaining - count) ∧
      (scope.remaining < count → ∀ (α : Type) (action : Scoped α),
        Scope.within name count action (scope, table) =
          .error (if scope.next.toNat + count.toNat < UInt32.size
            then .defect (.overrun scope.path name count scope.remaining)
            else .breach .addressOverflow) (scope, table)) ∧
      (table.size.toNat + count.toNat < UInt32.size →
        scope.next.toNat + count.toNat < UInt32.size)) := by
  constructor
  · intro reached
    constructor
    · intro enough
      have reserved : Table.reserve count name table =
          .ok table.next { table with next := table.next + count } :=
        if_neg (UInt32.not_lt.mpr enough)
      refine ⟨_, _, ?_, .root reached reserved, Scope.spans_of_le reached.registered.1 enough _,
        Scope.remaining_of_new _ _ _, ?_⟩
      · simp only [Table.within, reserved]
        rfl
      · simp only [Table.remaining]
        grind
    · intro short α action
      have refused : Table.reserve count name table =
          .error (.defect (.overrun table.name name count table.remaining)) table := if_pos short
      simp only [Table.within, refused]
  · intro opened
    have housed := opened.housed
    refine ⟨?_, ?_, ?_⟩
    · intro enough
      have reserved := Scope.reserve_of_le housed.ordered enough name table
      refine ⟨_, { scope with next := scope.next + count }, ?_, .nested opened reserved,
        Scope.spans_of_le housed.ordered enough _, Scope.remaining_of_new _ _ _, ?_⟩
      · simp only [Scope.within, reserved]
        rfl
      · simp only [Scope.remaining]
        grind
    · intro short α action
      have refused := Scope.reserve_of_lt housed.ordered short name table
      simp only [Scope.within, refused]
    · intro small
      have inside := UInt32.le_iff_toNat_le.mp (UInt32.le_trans housed.ordered
        (UInt32.le_trans housed.reserved housed.inBounds))
      omega

/-- The sixteen addresses of a table, and eight of them in a scope in which one is named. -/
theorem overruns_are_refused_in_a_small_table :
    ∃ (table after : Table) (scope : Scope), table.Reached ∧ scope.Open after ∧
      Table.within "b" 4294967295 Scope.look table =
        .error (.defect (.overrun "t" "b" 4294967295 16)) table ∧
      (∃ inner outer, Scope.within "b" 7 Scope.look (scope, after) = .ok inner (outer, after) ∧
        inner.remaining = 7 ∧ outer.remaining = 0) ∧
      Scope.within "b" 8 Scope.look (scope, after) =
        .error (.defect (.overrun "t.a" "b" 8 7)) (scope, after) := by
  have reached : smallTable.Reached := ⟨"t", 0, 16, .nothing, .nothing, rfl⟩
  have reserved : Table.reserve 8 "a" smallTable = .ok 0 { smallTable with next := 8 } := rfl
  have opened : Scope.Open ⟨"t.a", 0, 8⟩ { smallTable with next := 8 } := .root reached reserved
  have recorded : (Allotment.bit "x" .nothing).record
        (⟨"t.a", 0, 8⟩, { smallTable with next := 8 }) =
      .ok (.bit ⟨0⟩ .nothing) (⟨"t.a", 1, 8⟩, { smallTable with
        next := 8
        entries := #[⟨⟨0⟩, "t.a.x", 0, 1⟩]
        names := [("t.a.x", ⟨0⟩)] }) := by with_unfolding_all rfl
  have named := opened.used recorded
  obtain ⟨inner, outer, given, -, -, whole, rest⟩ :=
    ((overruns_are_refused_at_every_depth _ _ "b" 7).2 named).1 (by decide)
  refine ⟨smallTable, _, _, reached, named, ?_, ⟨inner, outer, given, whole, rest⟩, ?_⟩
  · exact ((overruns_are_refused_at_every_depth smallTable ⟨"t.a", 0, 8⟩ "b" 4294967295).1
      reached).2 (by decide) Scope Scope.look
  · exact ((overruns_are_refused_at_every_depth _ _ "b" 8).2 named).2.1 (by decide) Scope Scope.look

/-- A scope that is asked for the largest number there is does not report the overrun, which a table
does. -/
theorem overflow_hides_overrun :
    (∃ after, Table.within "a" 8 (do
        let _ ← Scope.allocate "x"
        Scope.within "b" 4294967295 Scope.look) smallTable =
      .error (.breach .addressOverflow) after) ∧
    Table.within "b" 4294967295 Scope.look smallTable =
      .error (.defect (.overrun "t" "b" 4294967295 16)) smallTable :=
  ⟨⟨_, rfl⟩, rfl⟩

end Interlocking
