import Interlocking.Program.Basic
import Interlocking.Proofs.ArbiterRules
import Interlocking.Proofs.Declarations

/-!
# What arbiters and schedules write

The rules of an arbiter and of a schedule write nothing but its outputs.
-/

namespace Interlocking

/-- Every variable that one of the rules writes is in the list. -/
def WritesOnly (rules : List Rule) (vars : List Var) : Prop :=
  ∀ rule ∈ rules, rule.writes ⊆ vars

namespace WritesOnly

variable {first second rules : List Rule} {vars : List Var}

theorem append (left : WritesOnly first vars) (right : WritesOnly second vars) :
    WritesOnly (first ++ second) vars :=
  List.forall_mem_append.mpr ⟨left, right⟩

theorem mono {more : List Var} (writes : WritesOnly rules vars) (subset : vars ⊆ more) :
    WritesOnly rules more :=
  fun rule member => List.Subset.trans (writes rule member) subset

theorem cons {rule : Rule} (head : rule.writes ⊆ vars)
    (tail : WritesOnly rules vars) : WritesOnly (rule :: rules) vars :=
  List.forall_mem_cons.mpr ⟨head, tail⟩

theorem flatMap {α : Type} {items : List α} {body : α → List Rule}
    (each : ∀ item ∈ items, WritesOnly (body item) vars) :
    WritesOnly (items.flatMap body) vars := by
  intro rule member
  obtain ⟨item, listed, member⟩ := List.mem_flatMap.mp member
  exact each item listed rule member

theorem map {α : Type} {items : List α} {body : α → Rule}
    (each : ∀ item ∈ items, (body item).writes ⊆ vars) :
    WritesOnly (items.map body) vars :=
  List.forall_mem_map.mpr each

end WritesOnly

theorem RuleBook.startRule_writesOnly {vars : List Var} :
    WritesOnly [RuleBook.startRule] vars := by
  simp [WritesOnly, startRule, Rule.writes, List.filterMap_cons, Action.var?]

namespace Arbiter

variable {arbiter : Arbiter}

theorem granted_mem_outputs {client : Client} (member : client ∈ arbiter.clients) :
    client.granted ∈ arbiter.outputs ∧ client.taken ∈ arbiter.outputs := by
  constructor
  · exact List.mem_flatMap.mpr ⟨client, member, by simp⟩
  · exact List.mem_flatMap.mpr ⟨client, member, by simp⟩

theorem granting_writesOnly (start : Nat) {skipped : List Client} {turns : List (Client × Nat)}
    (known : ∀ turn ∈ turns, turn.1 ∈ arbiter.clients) :
    WritesOnly (granting start skipped turns) arbiter.outputs := by
  induction turns generalizing skipped with
  | nil => simp [WritesOnly, granting, grantRules]
  | cons turn turns ih =>
      obtain ⟨client, index⟩ := turn
      apply WritesOnly.cons
      · have output := granted_mem_outputs (known _ List.mem_cons_self)
        simpa [Rule.writes, List.filterMap_cons, Action.var?] using output.1
      · exact ih fun other member => known other (List.mem_cons_of_mem _ member)

theorem mem_clients_of_mem_turns {start : Nat} {turn : Client × Nat}
    (member : turn ∈ arbiter.turns start) : turn.1 ∈ arbiter.clients := by
  apply List.fst_mem_of_mem_zipIdx
  rcases List.mem_append.mp member with member | member
  · exact List.mem_of_mem_drop member
  · exact List.mem_of_mem_take member

theorem ruleList_writesOnly (arbiter : Arbiter) :
    WritesOnly arbiter.ruleList arbiter.outputs := by
  apply WritesOnly.cons
  · simp [Rule.writes, List.filterMap_cons, Action.var?]
  · apply WritesOnly.append
    · apply WritesOnly.flatMap
      intro ⟨client, index⟩ member
      have outputs := granted_mem_outputs (List.fst_mem_of_mem_zipIdx member)
      simp_all [WritesOnly, returning, returnRules, Rule.writes, List.filterMap_cons, Action.var?]
    · apply WritesOnly.flatMap
      intro start _
      exact granting_writesOnly start fun turn member => mem_clients_of_mem_turns member

theorem build_writesOnly {automaton : Automaton} (built : arbiter.build = .ok automaton) :
    WritesOnly automaton.rules arbiter.outputs := by
  rw [(build_eq_ok built).2.1]
  exact arbiter.ruleList_writesOnly.append RuleBook.startRule_writesOnly

end Arbiter

namespace Schedule

variable {schedule : Schedule}

theorem permissionRules_writesOnly (move : Move) :
    WritesOnly (permissionRules move move.client) move.outputs := by
  cases client : move.client with
  | none =>
      simp [WritesOnly, permissionRules, Rule.writes, List.filterMap_cons, Action.var?, advance]
  | some client =>
      apply WritesOnly.append
      · simp [WritesOnly, Rule.writes, List.filterMap_cons, Action.var?, advance, Move.outputs,
          client, Client.vars]
      · apply WritesOnly.map
        simp [Rule.writes, List.filterMap_cons, Action.var?, advance, Move.outputs, Berth.outputs,
          client, Client.vars]

theorem turnoutRules_writesOnly (move : Move) : WritesOnly (turnoutRules move) move.outputs := by
  have proceeds : ∀ conditions, WritesOnly
      [{ conditions := conditions, actions := [advance .requestGreen] }] move.outputs := by
    simp [WritesOnly, Rule.writes, List.filterMap_cons, Action.var?, advance]
  unfold turnoutRules
  split
  · exact proceeds _
  · apply WritesOnly.cons
    · intro var written
      obtain ⟨action, commanded, written⟩ := List.mem_filterMap.mp written
      obtain ⟨entry, listed, rfl⟩ := List.mem_map.mp commanded
      obtain rfl := Option.some.inj written
      simp only [Move.outputs, List.mem_cons, List.mem_append, List.mem_map]
      exact .inr (.inr ⟨entry, listed, rfl⟩)
    · exact proceeds _

theorem travelRules_writesOnly (schedule : Schedule) (move : Move) :
    WritesOnly (travelRules schedule move) (schedule.go :: move.outputs) := by
  cases client : move.client <;>
    simp [WritesOnly, travelRules, permissionUsed, Rule.writes, List.filterMap_cons, Action.var?,
      advance, Move.outputs, Berth.outputs, client, Client.vars]

/-- The rules of a move write what belongs to the move, and whether the train may run. -/
theorem moveRules_writesOnly (schedule : Schedule) (move : Move) :
    WritesOnly (moveRules schedule move) (schedule.go :: move.outputs) := by
  have own : move.outputs ⊆ schedule.go :: move.outputs := List.subset_cons_self _ _
  apply WritesOnly.cons
  · simp [pickRule, Rule.writes, List.filterMap_cons, Action.var?, advance, Move.outputs,
      Berth.outputs]
  · exact (((permissionRules_writesOnly move).mono own).append
      ((turnoutRules_writesOnly move).mono own)).append (travelRules_writesOnly schedule move)

theorem planRules_writesOnly (schedule : Schedule) :
    WritesOnly schedule.planRules schedule.outputs := by
  apply WritesOnly.append
  · apply WritesOnly.append
    · apply WritesOnly.map
      simp [stopRule, Rule.writes, List.filterMap_cons, Action.var?, advance, outputs]
    · apply WritesOnly.map
      simp [waitRule, Rule.writes, List.filterMap_cons, Action.var?, advance]
  · apply WritesOnly.flatMap
    intro move member
    apply (moveRules_writesOnly schedule move).mono
    intro var listed
    simp only [outputs, List.mem_cons, List.mem_append, List.mem_flatMap] at listed ⊢
    exact listed.imp_right fun own => .inr ⟨move, member, own⟩

theorem restartRules_writesOnly (schedule : Schedule) (window : UInt8) :
    WritesOnly (schedule.restartRules window) schedule.outputs := by
  have here : ∀ berth ∈ schedule.berths, berth.here ∈ schedule.outputs ∧
      berth.coming ∈ schedule.outputs := by
    intro berth member
    simp only [outputs, List.mem_cons, List.mem_append, List.mem_flatMap]
    constructor
    · exact .inr (.inl ⟨berth, member, by simp [Berth.outputs]⟩)
    · exact .inr (.inl ⟨berth, member, by simp [Berth.outputs]⟩)
  have active : ∀ move ∈ schedule.moves, move.active ∈ schedule.outputs := by
    intro move member
    simp only [outputs, List.mem_cons, List.mem_append, List.mem_flatMap]
    exact .inr (.inr ⟨move, member, by simp [Move.outputs]⟩)
  apply WritesOnly.append
  · apply WritesOnly.map
    intro berth member
    simpa [Rule.writes, Action.var?] using (here berth (List.mem_of_mem_filter member)).1
  · simp only [WritesOnly, List.forall_mem_cons, Rule.writes, advance, List.filterMap_append,
      List.filterMap_cons, List.filterMap_nil, List.filterMap_map, Function.comp_def, Action.var?,
      List.append_nil, List.cons_subset]
    refine ⟨?_, ⟨List.mem_cons_self, ?_⟩, by simp⟩
    · intro var written
      obtain ⟨berth, member, rfl⟩ := by simpa using written
      exact (here berth member).2
    · intro var written
      obtain ⟨move, member, rfl⟩ := by simpa using written
      exact active move member

theorem build_writesOnly (schedule : Schedule) (layout : Layout) :
    WritesOnly (schedule.build layout).rules schedule.outputs := by
  have rules := schedule.planRules_writesOnly.append
    (schedule.restartRules_writesOnly (recoveryWindow layout))
  rw [build, automaton, RuleBook.rules_build]
  apply WritesOnly.append
  · simpa [Phase.all] using rules
  · exact RuleBook.startRule_writesOnly

end Schedule

end Interlocking
