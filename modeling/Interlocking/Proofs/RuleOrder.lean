import Interlocking.Automaton
import Mathlib.Data.List.Basic
import Mathlib.Data.List.Sort

/-!
# The order of rules in an automaton

The automaton of a rule book runs through the phases in order, within a phase through the
groups in the order of their entry, and ends with the start rule. No rule is lost or repeated
on the way, so what was entered decides the automaton: the last section says how, for any
history of entries.
-/

namespace Interlocking

namespace Phase

/-- The phases that run before a given one. -/
def earlier (phase : Phase) : List Phase := all.take phase.rank

/-- The phases that run after a given one. -/
def later (phase : Phase) : List Phase := all.drop (phase.rank + 1)

theorem all_eq (phase : Phase) : all = phase.earlier ++ phase :: phase.later := by
  cases phase <;> rfl

theorem rank_lt_of_mem_earlier {phase : Phase} :
    ∀ other ∈ phase.earlier, other.rank < phase.rank := by
  cases phase <;> decide

theorem rank_lt_of_mem_later {phase : Phase} : ∀ other ∈ phase.later, phase.rank < other.rank := by
  cases phase <;> decide

theorem mem_all (phase : Phase) : phase ∈ all := by
  rw [all_eq phase]
  exact List.mem_append_right _ List.mem_cons_self

theorem pairwise_rank_lt_all : all.Pairwise (·.rank < ·.rank) := by decide

end Phase

namespace RuleBook

/-- The rules entered for a phase, in the order of their entry. -/
def inPhase (book : RuleBook) (phase : Phase) : List Rule :=
  (book.groups.filter (fun group => group.1 = phase)).flatMap (·.2)

variable {book : RuleBook} {group : Phase × List Rule} {groups : List (Phase × List Rule)}

theorem insertGroup_append {low high : List (Phase × List Rule)}
    (below : ∀ other ∈ low, other.1.rank < group.1.rank)
    (above : ∀ other ∈ high, group.1.rank ≤ other.1.rank) :
    insertGroup group (low ++ high) = low ++ group :: high := by
  induction low with
  | nil =>
      cases high with
      | nil => rfl
      | cons first rest => exact if_pos (above first List.mem_cons_self)
  | cons first low ih =>
      have first_below := below first List.mem_cons_self
      rw [List.cons_append, insertGroup, if_neg (Nat.not_le.mpr first_below),
        ih fun other member => below other (List.mem_cons_of_mem _ member), List.cons_append]

theorem flatMap_filter_cons_of_notMem {phases : List Phase} (absent : group.1 ∉ phases) :
    (phases.flatMap fun phase => (group :: groups).filter (fun other => other.1 = phase)) =
      phases.flatMap fun phase => groups.filter (fun other => other.1 = phase) := by
  apply List.flatMap_congr
  intro phase member
  have differs : group.1 ≠ phase := fun same => absent (same ▸ member)
  simp [differs]

/-- Sorting puts the groups phase by phase and keeps their order within a phase. -/
theorem sortGroups_eq (groups : List (Phase × List Rule)) : sortGroups groups =
    Phase.all.flatMap fun phase => groups.filter (fun group => group.1 = phase) := by
  induction groups with
  | nil => rfl
  | cons group groups ih =>
      have notEarlier : group.1 ∉ group.1.earlier :=
        fun member => Nat.lt_irrefl _ (Phase.rank_lt_of_mem_earlier _ member)
      have notLater : group.1 ∉ group.1.later :=
        fun member => Nat.lt_irrefl _ (Phase.rank_lt_of_mem_later _ member)
      -- The new group comes first among those of its phase.
      change insertGroup group (sortGroups groups) = _
      rw [ih, group.1.all_eq, List.flatMap_append, List.flatMap_append, List.flatMap_cons,
        List.flatMap_cons, flatMap_filter_cons_of_notMem notEarlier,
        flatMap_filter_cons_of_notMem notLater, insertGroup_append]
      · simp
      · intro other member
        obtain ⟨phase, listed, member⟩ := List.mem_flatMap.mp member
        have same := of_decide_eq_true (List.mem_filter.mp member).2
        exact same ▸ Phase.rank_lt_of_mem_earlier phase listed
      · intro other member
        rcases List.mem_append.mp member with member | member
        · have same := of_decide_eq_true (List.mem_filter.mp member).2
          exact Nat.le_of_eq (by rw [same])
        · obtain ⟨phase, listed, member⟩ := List.mem_flatMap.mp member
          have same := of_decide_eq_true (List.mem_filter.mp member).2
          exact Nat.le_of_lt (same ▸ Phase.rank_lt_of_mem_later phase listed)

/-- The rules of an automaton. -/
theorem rules_build (book : RuleBook) :
    book.build.rules = Phase.all.flatMap book.inPhase ++ [startRule] := by
  have entered : ∀ phase, ((book.groups ++ [(Phase.init, [startRule])]).filter
      (fun group => group.1 = phase)).flatMap (·.2) =
        book.inPhase phase ++ if Phase.init = phase then [startRule] else [] := by
    intro phase
    by_cases same : Phase.init = phase <;> simp [inPhase, same]
  have earlier : (Phase.init.earlier.flatMap fun phase =>
      book.inPhase phase ++ if Phase.init = phase then [startRule] else []) =
        Phase.init.earlier.flatMap book.inPhase := by
    apply List.flatMap_congr
    intro phase member
    have differs : Phase.init ≠ phase := by
      intro same
      subst same
      exact Nat.lt_irrefl _ (Phase.rank_lt_of_mem_earlier _ member)
    simp [differs]
  have phases : Phase.all = Phase.init.earlier ++ [Phase.init] := rfl
  simp only [build, sortGroups_eq, List.flatMap_assoc, entered]
  rw [phases, List.flatMap_append, earlier]
  simp

@[simp] theorem inPhase_empty (name : String) (phase : Phase) :
    ({ name } : RuleBook).inPhase phase = [] := rfl

@[simp] theorem inPhase_contribute (phase other : Phase) (rules : List Rule) :
    (book.contribute phase rules).inPhase other =
      book.inPhase other ++ if phase = other then rules else [] := by
  unfold contribute
  by_cases empty : rules = []
  · simp [empty]
  · by_cases same : phase = other
    · simp [empty, inPhase, same]
    · simp [empty, inPhase, same]

/-! ## The number of rules -/

theorem insertGroup_eq_orderedInsert (group : Phase × List Rule)
    (sorted : List (Phase × List Rule)) :
    insertGroup group sorted = sorted.orderedInsert (·.1.rank ≤ ·.1.rank) group := by
  induction sorted with
  | nil => rfl
  | cons first rest ih => rw [insertGroup, ih, List.orderedInsert_cons]

/-- Sorting the groups is the library's insertion sort. -/
theorem sortGroups_eq_insertionSort (groups : List (Phase × List Rule)) :
    sortGroups groups = groups.insertionSort (·.1.rank ≤ ·.1.rank) := by
  have same : insertGroup = List.orderedInsert (·.1.rank ≤ ·.1.rank) :=
    funext₂ insertGroup_eq_orderedInsert
  exact congrArg (fun insert => groups.foldr insert []) same

theorem sortGroups_perm (groups : List (Phase × List Rule)) : (sortGroups groups).Perm groups := by
  rw [sortGroups_eq_insertionSort]
  exact List.perm_insertionSort _ _

/-- The automaton has the rules entered and the start rule, each as often as it was entered. -/
theorem rules_build_perm (book : RuleBook) :
    book.build.rules.Perm (book.groups.flatMap (·.2) ++ [startRule]) := by
  have rules := (sortGroups_perm (book.groups ++ [(Phase.init, [startRule])])).flatMap_right (·.2)
  rwa [List.flatMap_append, List.flatMap_singleton] at rules

theorem size_eq_length (book : RuleBook) : book.size = (book.groups.flatMap (·.2)).length := by
  -- The count so far is an argument of the fold.
  have counted : ∀ (groups : List (Phase × List Rule)) (count : Nat),
      groups.foldl (fun count group => count + group.2.length) count =
        count + (groups.flatMap (·.2)).length := by
    intro groups
    induction groups with
    | nil => simp
    | cons group groups ih =>
        intro count
        rw [List.foldl_cons, ih, List.flatMap_cons, List.length_append, Nat.add_assoc]
  rw [size, counted, Nat.zero_add]

theorem length_rules_build (book : RuleBook) : book.build.rules.length = book.size + 1 := by
  rw [book.rules_build_perm.length_eq, List.length_append, List.length_singleton,
    book.size_eq_length]

/-! ## Histories of entries -/

/-- One entry into a rule book. -/
inductive Entry where
  /-- A group of rules, which may be empty. -/
  | group (phase : Phase) (rules : List Rule)
  | single (phase : Phase) (rule : Rule)
  deriving DecidableEq, Repr

namespace Entry

/-- The phase for which an entry is meant. -/
def phase : Entry → Phase
  | .group phase _ => phase
  | .single phase _ => phase

/-- The rules of an entry. -/
def rules : Entry → List Rule
  | .group _ rules => rules
  | .single _ rule => [rule]

end Entry

/-- Makes one entry. -/
def enter (book : RuleBook) : Entry → RuleBook
  | .group phase rules => book.contribute phase rules
  | .single phase rule => book.push phase rule

/-- Makes entries one after another. -/
def enterAll (book : RuleBook) (entries : List Entry) : RuleBook := entries.foldl enter book

/-- A rule entered alone is a group of one rule. -/
theorem enter_eq_contribute (book : RuleBook) (entry : Entry) :
    book.enter entry = book.contribute entry.phase entry.rules := by
  cases entry with
  | group phase rules => rfl
  | single phase rule => exact (if_neg (List.cons_ne_nil rule [])).symm

theorem inPhase_enterAll (book : RuleBook) (entries : List Entry) (phase : Phase) :
    (book.enterAll entries).inPhase phase =
      book.inPhase phase ++ (entries.filter (·.phase = phase)).flatMap Entry.rules := by
  induction entries generalizing book with
  | nil => simp [enterAll]
  | cons entry entries ih =>
      change ((book.enter entry).enterAll entries).inPhase phase = _
      rw [ih, enter_eq_contribute, inPhase_contribute]
      by_cases same : entry.phase = phase <;> simp [same]

end RuleBook

/-- Whatever is entered into a new rule book, the automaton has phase by phase, in the order of
the phases, the rules entered for the phase in the order of their entry, and the start rule
behind them all. -/
theorem rules_compose_in_phase_order (name : String) (entries : List RuleBook.Entry) :
    Phase.all.Pairwise (·.rank < ·.rank) ∧ (∀ phase, phase ∈ Phase.all) ∧
    (({ name } : RuleBook).enterAll entries).build.rules =
      (Phase.all.flatMap fun phase =>
        (entries.filter (·.phase = phase)).flatMap RuleBook.Entry.rules) ++
          [{ conditions := [.inState .initial], actions := [.goto .base] }] ∧
    (({ name } : RuleBook).enterAll entries).build.rules.length =
      (({ name } : RuleBook).enterAll entries).size + 1 := by
  refine ⟨Phase.pairwise_rank_lt_all, Phase.mem_all, ?_, RuleBook.length_rules_build _⟩
  rw [RuleBook.rules_build, RuleBook.startRule]
  congr 1
  apply List.flatMap_congr
  intro phase _
  rw [RuleBook.inPhase_enterAll, RuleBook.inPhase_empty, List.nil_append]

end Interlocking
