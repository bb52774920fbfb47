import Interlocking.Proofs.Distinctness
import Interlocking.Proofs.Views

/-!
# What a schedule can do

The rules of a schedule come in two parts. The opening rules leave the resting state, and behind
them come the rules of the moves and those of a restart. Each rule that fires does one of the
deeds listed here. They are described on bits that were named apart from those which a schedule
shares with blocks and turnouts, so what a deed does to such a bit can be read off. From the
deeds follows that at most one move is active, and only while the schedule is busy with it.
-/

namespace Interlocking

open Function (update)

namespace View

/-- The view has these values on the listed bits. -/
def Shows (view : View) (vars : List Var) (bits : Var → Bool) : Prop :=
  ∀ var ∈ vars, view.bits var = bits var

/-- What actions make of a bit depends on nothing but the bit. -/
theorem bits_carry_congr {view other : View} {var : Var} (same : view.bits var = other.bits var)
    (actions : List Action) : (view.carry actions).bits var = (other.carry actions).bits var := by
  induction actions generalizing view other with
  | nil => exact same
  | cons action actions ih =>
      apply ih
      cases action with
      | set written value =>
          by_cases here : var = written
          · simp [here]
          · simpa [here] using same
      | goto | loadTimer => exact same

/-- Writing bits does not move the register. -/
theorem state_carry {view : View} {actions : List Action}
    (sets : ∀ action ∈ actions, ∃ var value, action = .set var value) :
    (view.carry actions).state = view.state := by
  induction actions generalizing view with
  | nil => rfl
  | cons action actions ih =>
      obtain ⟨⟨var, value, rfl⟩, rest⟩ := List.forall_mem_cons.mp sets
      exact ih rest

/-- Clearing bits raises none. -/
theorem bits_carry_clear {view : View} {var : Var} (zero : view.bits var = false)
    (cleared : List Var) : (view.carry (cleared.map .clear)).bits var = false := by
  induction cleared generalizing view with
  | nil => exact zero
  | cons other cleared ih => exact ih (by simp [Function.update_apply, zero])

theorem bits_carry_clear_of_notMem {view : View} {var : Var} {cleared : List Var}
    (apart : var ∉ cleared) : (view.carry (cleared.map .clear)).bits var = view.bits var := by
  apply bits_carry
  rw [List.filterMap_map]
  simpa [Function.comp_def, Action.var?] using apart

end View

namespace Schedule

/-- The bits that a schedule shares with the blocks it knows and with turnouts. -/
def slack (schedule : Schedule) : List Var :=
  schedule.berths.flatMap Berth.outputs ++
    schedule.moves.flatMap fun move => move.turnouts.map fun (motor, _) => motor.command

/-- The rules that leave the resting state. -/
def openingRules (schedule : Schedule) : List Rule :=
  schedule.stops.map schedule.stopRule ++ schedule.sources.map waitRule

/-- The rules behind them. -/
def laterRules (schedule : Schedule) (window : UInt8) : List Rule :=
  schedule.moves.flatMap schedule.moveRules ++
    (schedule.restartRules window ++ [RuleBook.startRule])

theorem rules_build (schedule : Schedule) (layout : Layout) :
    (schedule.build layout).rules =
      schedule.openingRules ++ schedule.laterRules (recoveryWindow layout) := by
  unfold build automaton
  rw [RuleBook.rules_build]
  simp [Phase.all, planRules, openingRules, laterRules]

theorem name_build (schedule : Schedule) (layout : Layout) :
    (schedule.build layout).name = schedule.name := by
  simp only [build, automaton, RuleBook.contribute]
  split <;> split <;> rfl

/-- What an opening rule can do, described on `vars`. -/
inductive Opening (schedule : Schedule) (vars : List Var) (view next : View) : Prop where
  /-- The train stays for good. -/
  | stop (resting : view.state = .base) (stays : next.state = Stage.stopTrain.state)
      (bits : next.Shows vars (update view.bits schedule.go false))
  /-- A move is looked for. -/
  | wait (resting : view.state = .base) (waits : next.state = Stage.waiting.state)
      (bits : next.Shows vars view.bits)

/-- What a later rule can do, described on `vars`. -/
inductive Deed (schedule : Schedule) (vars : List Var) (view next : View) : Prop where
  /-- A move is picked. -/
  | pick {move : Move} (listed : move ∈ schedule.moves)
      (before : view.state = Stage.waiting.state) (after : next.state = Stage.ready.state)
      (bits : next.Shows vars (update view.bits move.active true))
  /-- A move that needs no permission goes on to its turnouts. -/
  | prepare {move : Move} (listed : move ∈ schedule.moves) (needsNone : move.client = none)
      (active : view.bits move.active = true)
      (before : view.state = Stage.ready.state) (after : next.state = Stage.turnouts.state)
      (bits : next.Shows vars view.bits)
  /-- The permission is asked for. -/
  | ask {move : Move} {client : Client} (listed : move ∈ schedule.moves)
      (needs : move.client = some client) (active : view.bits move.active = true)
      (before : view.state = Stage.ready.state) (after : next.state = Stage.permission.state)
      (bits : next.Shows vars (update view.bits client.request true))
  /-- The permission was granted. -/
  | permit {move : Move} {client : Client} (listed : move ∈ schedule.moves)
      (needs : move.client = some client) (active : view.bits move.active = true)
      (granted : view.bits client.granted = true)
      (before : view.state = Stage.permission.state) (after : next.state = Stage.recheck.state)
      (bits : next.Shows vars view.bits)
  /-- The guards still hold. -/
  | confirm {move : Move} (listed : move ∈ schedule.moves)
      (active : view.bits move.active = true)
      (before : view.state = Stage.recheck.state) (after : next.state = Stage.turnouts.state)
      (bits : next.Shows vars view.bits)
  /-- A guard has failed, and the move is dropped. -/
  | abandon {move : Move} {client : Client} (listed : move ∈ schedule.moves)
      (needs : move.client = some client) (active : view.bits move.active = true)
      (before : view.state = Stage.recheck.state) (after : next.state = Stage.waiting.state)
      (bits : next.Shows vars (update (update view.bits client.request false) move.active false))
  /-- The turnouts are commanded. -/
  | command {move : Move} (listed : move ∈ schedule.moves)
      (active : view.bits move.active = true)
      (before : view.state = Stage.turnouts.state) (after : next.state = Stage.turnouts.state)
      (bits : next.Shows vars view.bits)
  /-- The motors report that the turnouts are set. -/
  | set {move : Move} (listed : move ∈ schedule.moves) (active : view.bits move.active = true)
      (reported : ∀ entry ∈ move.turnouts, view.bits entry.1.current = entry.2.bit)
      (before : view.state = Stage.turnouts.state) (after : next.state = Stage.requestGreen.state)
      (bits : next.Shows vars view.bits)
  /-- The signal is asked for proceed. -/
  | signal {move : Move} (listed : move ∈ schedule.moves) (active : view.bits move.active = true)
      (before : view.state = Stage.requestGreen.state)
      (after : next.state = Stage.greenWait.state) (bits : next.Shows vars view.bits)
  /-- The way out is reserved. -/
  | start {move : Move} (listed : move ∈ schedule.moves) (active : view.bits move.active = true)
      (reserved : view.bits move.source.routeOut = true)
      (before : view.state = Stage.greenWait.state) (after : next.state = Stage.startTrain.state)
      (bits : next.Shows vars view.bits)
  /-- The train is released. -/
  | depart {move : Move} (listed : move ∈ schedule.moves) (active : view.bits move.active = true)
      (before : view.state = Stage.startTrain.state) (after : next.state = Stage.moving.state)
      (bits : next.Shows vars
        (view.carry (.raise schedule.go :: permissionUsed move.client)).bits)
  /-- The train has reached its target. -/
  | arrive {move : Move} (listed : move ∈ schedule.moves) (active : view.bits move.active = true)
      (before : view.state = Stage.moving.state) (after : next.state = Stage.stopTrain.state)
      (bits : next.Shows vars (update view.bits schedule.go false))
  /-- The way out is free again. -/
  | leave {move : Move} (listed : move ∈ schedule.moves) (active : view.bits move.active = true)
      (before : view.state = Stage.stopTrain.state) (after : next.state = Stage.done.state)
      (bits : next.Shows vars view.bits)
  /-- The move has ended. -/
  | finish {move : Move} (listed : move ∈ schedule.moves) (active : view.bits move.active = true)
      (before : view.state = Stage.done.state) (after : next.state = .base)
      (bits : next.Shows vars (update view.bits move.active false))
  /-- A restart forgets a train. -/
  | forget (before : view.state = Stage.recovering.state)
      (after : next.state = Stage.recovering.state) (bits : next.Shows vars view.bits)
  /-- The occupancy has settled after a restart. -/
  | recover (before : view.state = Stage.recovering.state) (after : next.state = .base)
      (bits : next.Shows vars view.bits)
  /-- A restart clears what was left over. -/
  | restart (before : view.state = .initial) (after : next.state = Stage.recovering.state)
      (bits : next.Shows vars
        (view.carry ((schedule.go :: schedule.moves.map Move.active).map .clear)).bits)
  /-- The power-on state is left. -/
  | wake (before : view.state = .initial) (after : next.state = .base)
      (bits : next.Shows vars view.bits)

section Rules

variable {schedule : Schedule} {vars : List Var} {view : View} {rule : Rule}

theorem opening_of_mem (member : rule ∈ schedule.openingRules) (enabled : view.Enables rule) :
    schedule.Opening vars view (view.carry rule.actions) := by
  rcases List.mem_append.mp member with member | member
  · obtain ⟨stop, _, rfl⟩ := List.mem_map.mp member
    exact .stop (enabled (.inState .base) (by simp [stopRule])) rfl fun _ _ => rfl
  · obtain ⟨source, _, rfl⟩ := List.mem_map.mp member
    exact .wait (enabled (.inState .base) (by simp [waitRule])) rfl fun _ _ => rfl

/-- A rule for the active move at a stage fires at that stage, with the move active. -/
theorem stage_of_during {move : Move} {stage : Stage}
    (enabled : ∀ condition ∈ during move stage, view.Meets condition) :
    view.state = stage.state ∧ view.bits move.active = true :=
  ⟨enabled (.inState stage.state) (by simp [during]), enabled (.on move.active) (by simp [during])⟩

theorem meets_during {move : Move} {stage : Stage} {conditions : List Condition}
    (enabled : ∀ condition ∈ during move stage ++ conditions, view.Meets condition) :
    view.state = stage.state ∧ view.bits move.active = true ∧
      ∀ condition ∈ conditions, view.Meets condition := by
  obtain ⟨during, rest⟩ := List.forall_mem_append.mp enabled
  obtain ⟨before, active⟩ := stage_of_during during
  exact ⟨before, active, rest⟩

/-- Bits that are no berth's and no turnout's. -/
structure Apart (schedule : Schedule) (vars : List Var) : Prop where
  ends : ∀ move ∈ schedule.moves, move.source ∈ schedule.berths ∧ move.target ∈ schedule.berths
  slack : ∀ var ∈ vars, var ∉ schedule.slack

namespace Apart

variable (apart : schedule.Apart vars) {var : Var} (member : var ∈ vars)

include apart member

theorem ne_berth {berth : Berth} (known : berth ∈ schedule.berths) :
    var ≠ berth.here ∧ var ≠ berth.coming ∧ var ≠ berth.requestGreen := by
  have outputs : ∀ output ∈ berth.outputs, var ≠ output := by
    rintro output listed rfl
    exact apart.slack var member (List.mem_append_left _ (List.mem_flatMap.mpr ⟨berth, known, listed⟩))
  simpa [Berth.outputs] using outputs

theorem ne_command {move : Move} (listed : move ∈ schedule.moves) {entry : Motor × Position}
    (declared : entry ∈ move.turnouts) : var ≠ entry.1.command := by
  rintro rfl
  exact apart.slack _ member (List.mem_append_right _ (List.mem_flatMap.mpr
    ⟨move, listed, List.mem_map.mpr ⟨entry, declared, rfl⟩⟩))

end Apart

section Moves

variable (apart : schedule.Apart vars) {move : Move} (listed : move ∈ schedule.moves)
  (enabled : view.Enables rule)

include apart listed enabled

theorem deed_of_permissionRules (member : rule ∈ permissionRules move move.client) :
    schedule.Deed vars view (view.carry rule.actions) := by
  cases needs : move.client with
  | none =>
      rw [needs, permissionRules, List.mem_singleton] at member
      subst member
      obtain ⟨before, active⟩ := stage_of_during enabled
      exact .prepare listed needs active before rfl fun _ _ => rfl
  | some client =>
      simp only [needs, permissionRules, List.mem_append, List.mem_cons, List.not_mem_nil, or_false,
        List.mem_map] at member
      rcases member with (rfl | rfl | rfl) | ⟨guard, _, rfl⟩
      · obtain ⟨before, active⟩ := stage_of_during enabled
        exact .ask listed needs active before rfl fun _ _ => rfl
      · obtain ⟨before, active, granted⟩ := meets_during enabled
        exact .permit listed needs active (granted (.on client.granted) (by simp)) before rfl
          fun _ _ => rfl
      · obtain ⟨before, active, -⟩ := meets_during enabled
        exact .confirm listed active before rfl fun _ _ => rfl
      · obtain ⟨before, active, -⟩ := meets_during enabled
        refine .abandon listed needs active before rfl ?_
        intro var member
        have coming := (apart.ne_berth member (apart.ends move listed).2).2.1
        by_cases same : var = move.active
        · simp [same, advance]
        · simp [same, coming, advance]

theorem deed_of_turnoutRules (member : rule ∈ turnoutRules move) :
    schedule.Deed vars view (view.carry rule.actions) := by
  have proceeds : rule = ⟨during move .turnouts ++ holding (move.turnouts.map
      fun (motor, position) => (motor.current, position.bit)), [advance .requestGreen]⟩ →
      schedule.Deed vars view (view.carry rule.actions) := by
    rintro rfl
    obtain ⟨before, active, reports⟩ := meets_during enabled
    refine .set listed active ?_ before rfl fun _ _ => rfl
    intro entry declared
    exact reports (.bit entry.1.current entry.2.bit) (List.mem_map.mpr
      ⟨(entry.1.current, entry.2.bit), List.mem_map.mpr ⟨entry, declared, rfl⟩, rfl⟩)
  unfold turnoutRules at member
  split at member
  · exact proceeds (List.mem_singleton.mp member)
  · rcases List.mem_cons.mp member with rfl | member
    · obtain ⟨before, active⟩ := stage_of_during enabled
      refine .command listed active before ?_ ?_
      · rw [View.state_carry, before]
        exact List.forall_mem_map.mpr fun entry _ => ⟨_, _, rfl⟩
      · intro var member
        apply View.bits_carry
        simp only [List.filterMap_map, List.mem_filterMap, not_exists, not_and]
        rintro entry declared same
        exact apart.ne_command member listed declared (Option.some.inj same).symm
    · exact proceeds (List.mem_singleton.mp member)

theorem deed_of_travelRules (member : rule ∈ schedule.travelRules move) :
    schedule.Deed vars view (view.carry rule.actions) := by
  obtain ⟨source, target⟩ := apart.ends move listed
  simp only [travelRules, List.mem_cons, List.not_mem_nil, or_false] at member
  rcases member with rfl | rfl | rfl | rfl | rfl | rfl
  · obtain ⟨before, active⟩ := stage_of_during enabled
    refine .signal listed active before rfl ?_
    intro var member
    simp [(apart.ne_berth member source).2.2, advance]
  · obtain ⟨before, active, reserved⟩ := meets_during enabled
    exact .start listed active (reserved (.on move.source.routeOut) (by simp)) before rfl
      fun _ _ => rfl
  · obtain ⟨before, active⟩ := stage_of_during enabled
    refine .depart listed active before (by simp [View.carry_append, advance]) ?_
    intro var member
    have here := (apart.ne_berth member target).1
    have there := (apart.ne_berth member source).1
    rw [View.carry_append, View.carry_append, View.carry_cons]
    refine View.bits_carry_congr ?_ (permissionUsed move.client)
    simp [here, there]
  · obtain ⟨before, active, -⟩ := meets_during enabled
    exact .arrive listed active before rfl fun _ _ => rfl
  · obtain ⟨before, active, -⟩ := meets_during enabled
    refine .leave listed active before rfl ?_
    intro var member
    simp [(apart.ne_berth member source).2.2, advance]
  · obtain ⟨before, active⟩ := stage_of_during enabled
    refine .finish listed active before rfl ?_
    intro var member
    have coming := (apart.ne_berth member target).2.1
    simp [coming]

end Moves

theorem deed_of_restartRules (apart : schedule.Apart vars) (enabled : view.Enables rule)
    {window : UInt8} (member : rule ∈ schedule.restartRules window) :
    schedule.Deed vars view (view.carry rule.actions) := by
  rcases List.mem_append.mp member with member | member
  · obtain ⟨berth, known, rfl⟩ := List.mem_map.mp member
    have before := enabled (.inState Stage.recovering.state) (by simp)
    refine .forget before before ?_
    intro var member
    simp [(apart.ne_berth member (List.mem_of_mem_filter known)).1]
  · simp only [List.mem_cons, List.not_mem_nil, or_false] at member
    rcases member with rfl | rfl
    · refine .recover (enabled (.inState Stage.recovering.state) (by simp))
        (by simp [View.carry_append]) ?_
      intro var member
      apply View.bits_carry
      simp only [List.filterMap_append, List.filterMap_map, List.mem_append, List.mem_filterMap,
        not_or, not_exists, not_and]
      refine ⟨?_, by simp [Action.var?]⟩
      rintro berth known same
      exact (apart.ne_berth member known).2.1 (Option.some.inj same).symm
    · refine .restart (enabled (.inState .initial) (by simp))
        (by simp [View.carry_append, advance]) ?_
      intro var member
      rw [List.map_cons, List.map_map, View.carry_cons, View.carry_append, View.carry_cons]
      rfl

/-- Whatever later rule fires, it does one of the deeds. -/
theorem deed_of_mem (apart : schedule.Apart vars) (enabled : view.Enables rule) {window : UInt8}
    (member : rule ∈ schedule.laterRules window) :
    schedule.Deed vars view (view.carry rule.actions) := by
  rcases List.mem_append.mp member with member | member
  · obtain ⟨move, listed, member⟩ := List.mem_flatMap.mp member
    rcases List.mem_cons.mp member with rfl | member
    · refine .pick listed (enabled (.inState Stage.waiting.state) (by simp [pickRule])) rfl ?_
      intro var member
      simp [pickRule, (apart.ne_berth member (apart.ends move listed).2).2.1, advance]
    · rcases List.mem_append.mp member with member | member
      · rcases List.mem_append.mp member with member | member
        · exact deed_of_permissionRules apart listed enabled member
        · exact deed_of_turnoutRules apart listed enabled member
      · exact deed_of_travelRules apart listed enabled member
  · rcases List.mem_append.mp member with member | member
    · exact deed_of_restartRules apart enabled member
    · obtain rfl := List.mem_singleton.mp member
      exact .wake (enabled (.inState .initial) (by simp [RuleBook.startRule])) rfl fun _ _ => rfl

end Rules

/-- The bits through which a schedule asks for permissions. -/
def clientBits (schedule : Schedule) : List Var :=
  schedule.moves.flatMap fun move => move.client.toList.flatMap Client.vars

/-- The bits by which a schedule keeps track of its moves and of their permissions. -/
def marks (schedule : Schedule) : List Var := schedule.moves.map Move.active ++ schedule.clientBits

variable {schedule : Schedule} {move : Move}

theorem active_mem_marks (member : move ∈ schedule.moves) : move.active ∈ schedule.marks :=
  List.mem_append_left _ (List.mem_map_of_mem member)

theorem mem_clientBits (member : move ∈ schedule.moves) {client : Client}
    (needs : move.client = some client) {var : Var} (owned : var ∈ client.vars) :
    var ∈ schedule.clientBits :=
  List.mem_flatMap.mpr ⟨move, member, List.mem_flatMap.mpr ⟨client, by simp [needs], owned⟩⟩

namespace Listed

variable {yard : Yard} (listed : schedule.Listed yard)

include listed

theorem request_mem {berth : Berth} (known : berth ∈ schedule.berths) :
    berth.requestGreen ∈ yard.blocks.map Block.requestGreen := by
  obtain ⟨block, member, shows⟩ := listed.blocks berth known
  exact shows.request ▸ List.mem_map_of_mem member

theorem active_inj {move other : Move} (first : move ∈ schedule.moves)
    (second : other ∈ schedule.moves) (same : move.active = other.active) : move = other := by
  have own := (List.nodup_append.mp listed.distinct).1
  have actives := (List.nodup_append.mp (List.nodup_cons.mp own).2).2.1
  exact List.inj_on_of_nodup_map actives first second same

theorem active_ne_go {move : Move} (member : move ∈ schedule.moves) :
    move.active ≠ schedule.go := by
  have own := (List.nodup_append.mp listed.distinct).1
  intro same
  exact (List.nodup_cons.mp own).1 (same ▸ List.mem_append_right _ (List.mem_map_of_mem member))

theorem mem_common {move : Move} (member : move ∈ schedule.moves) {client : Client}
    (needs : move.client = some client) {var : Var} (owned : var ∈ client.vars) :
    var ∈ yard.clients.flatMap Client.vars :=
  List.mem_flatMap.mpr ⟨client, listed.clients move member client needs, owned⟩

theorem own_notMem_common {var : Var} (own : var ∈ schedule.own) : var ∉ yard.common :=
  fun common => (List.nodup_append.mp listed.distinct).2.2 var own var common rfl

theorem active_notMem_vars {move other : Move} (member : move ∈ schedule.moves)
    (second : other ∈ schedule.moves) {client : Client} (needs : other.client = some client) :
    move.active ∉ client.vars := by
  intro owned
  have own : move.active ∈ schedule.own :=
    List.mem_cons_of_mem _ (List.mem_append_right _ (List.mem_map_of_mem member))
  exact listed.own_notMem_common own (List.mem_append_right _ (listed.mem_common second needs owned))

/-- Releasing a train begins and ends no move. -/
theorem active_notMem_release {move other : Move} (member : move ∈ schedule.moves)
    (second : other ∈ schedule.moves) :
    move.active ∉ (.raise schedule.go :: permissionUsed other.client).filterMap Action.var? := by
  have notGo := listed.active_ne_go member
  cases needs : other.client with
  | none => simpa [permissionUsed, Action.var?] using notGo
  | some client =>
      have notClient := listed.active_notMem_vars member second needs
      simp only [Client.vars, List.mem_cons, List.not_mem_nil, or_false, not_or] at notClient
      simp [permissionUsed, Action.var?, notGo, notClient]

/-- Bits of its own and of its clients are not among those that a schedule shares with blocks. -/
theorem notMem_outputs {var : Var} (own : var ∈ schedule.go :: schedule.marks) {berth : Berth}
    (known : berth ∈ schedule.berths) : var ∉ berth.outputs := by
  obtain ⟨nodup, common, -⟩ := List.nodup_append.mp listed.distinct
  obtain ⟨notGo, rest⟩ := List.nodup_cons.mp nodup
  have disjoint := (List.nodup_append.mp rest).2.2
  have separate := (List.nodup_append.mp common).2.2
  have bits : ∀ bit ∈ [berth.here, berth.coming],
      bit ∈ schedule.berths.flatMap fun berth => [berth.here, berth.coming] :=
    fun bit member => List.mem_flatMap.mpr ⟨berth, known, member⟩
  have owned : ∀ bit ∈ [berth.here, berth.coming], bit ∈ schedule.own :=
    fun bit member => List.mem_cons_of_mem _ (List.mem_append_left _ (bits bit member))
  have request := listed.request_mem known
  have split : var ∈ berth.outputs →
      var ∈ [berth.here, berth.coming] ∨ var = berth.requestGreen := by
    simp [Berth.outputs, or_assoc]
  intro output
  simp only [marks, clientBits, List.mem_cons, List.mem_append, List.mem_flatMap,
    Option.mem_toList] at own
  rcases own with rfl | active | ⟨move, member, client, needs, owns⟩
  · rcases split output with output | output
    · exact notGo (List.mem_append_left _ (bits _ output))
    · exact listed.own_notMem_common List.mem_cons_self (List.mem_append_left _ (output ▸ request))
  · rcases split output with output | output
    · exact disjoint var (bits var output) var active rfl
    · exact listed.own_notMem_common (List.mem_cons_of_mem _ (List.mem_append_right _ active))
        (List.mem_append_left _ (output ▸ request))
  · have client := listed.mem_common member needs owns
    rcases split output with output | output
    · exact listed.own_notMem_common (owned var output) (List.mem_append_right _ client)
    · exact separate var (output ▸ request) var client rfl

theorem apart {vars : List Var} (own : vars ⊆ schedule.go :: schedule.marks)
    (commands : ∀ move ∈ schedule.moves, ∀ entry ∈ move.turnouts, entry.1.command ∉ vars) :
    schedule.Apart vars := by
  refine ⟨listed.ends, ?_⟩
  intro var member slack
  rcases List.mem_append.mp slack with shared | shared
  · obtain ⟨berth, known, output⟩ := List.mem_flatMap.mp shared
    exact listed.notMem_outputs (own member) known output
  · obtain ⟨move, planned, shared⟩ := List.mem_flatMap.mp shared
    obtain ⟨entry, declared, rfl⟩ := List.mem_map.mp shared
    exact commands move planned entry declared member

end Listed

/-- No move is under way in these states. -/
def Idle (state : State) : Prop :=
  state ∈ [State.initial, .base, Stage.waiting.state, Stage.recovering.state]

instance : DecidablePred Idle := fun _ => inferInstanceAs (Decidable (_ ∈ _))

/-- At most one move is active, and none while the schedule is idle. -/
structure OneMove (schedule : Schedule) (view : View) : Prop where
  single : ∀ move ∈ schedule.moves, ∀ other ∈ schedule.moves, view.bits move.active = true →
    view.bits other.active = true → move = other
  idle : Idle view.state → ∀ move ∈ schedule.moves, view.bits move.active = false

namespace OneMove

variable {schedule : Schedule} {view next : View}

/-- No move is active at all. -/
theorem none (inactive : ∀ move ∈ schedule.moves, view.bits move.active = false) :
    schedule.OneMove view := by
  refine ⟨?_, fun _ => inactive⟩
  intro move listed other _ active
  rw [inactive move listed] at active
  cases active

/-- The active bits stay, and so does that the schedule is busy. -/
theorem stays (one : schedule.OneMove view)
    (same : ∀ move ∈ schedule.moves, next.bits move.active = view.bits move.active)
    (busy : ¬Idle next.state ∨ Idle view.state) : schedule.OneMove next := by
  constructor
  · intro move listed other known active alsoActive
    rw [same move listed] at active
    rw [same other known] at alsoActive
    exact one.single move listed other known active alsoActive
  · intro idle move listed
    rw [same move listed]
    exact one.idle (busy.resolve_left (not_not_intro idle)) move listed

/-- When the only active move ends, none is active. -/
theorem cleared (one : schedule.OneMove view) {move : Move} (member : move ∈ schedule.moves)
    (active : view.bits move.active = true)
    (own : next.bits move.active = false)
    (others : ∀ other ∈ schedule.moves, other.active ≠ move.active →
      next.bits other.active = view.bits other.active) : schedule.OneMove next := by
  refine .none ?_
  intro other known
  by_cases same : other.active = move.active
  · rw [same, own]
  · rw [others other known same]
    by_contra alsoActive
    obtain rfl := one.single other known move member (by simpa using alsoActive) active
    exact same rfl

variable {yard : Yard} (listed : schedule.Listed yard) {vars : List Var}
  (watched : ∀ move ∈ schedule.moves, move.active ∈ vars)

include listed watched

theorem opening (one : schedule.OneMove view) (opening : schedule.Opening vars view next) :
    schedule.OneMove next := by
  cases opening with
  | stop resting stays bits =>
      refine one.stays ?_ (.inl (by rw [stays]; decide))
      intro move member
      rw [bits _ (watched move member), Function.update_of_ne (listed.active_ne_go member)]
  | wait resting waits bits =>
      exact one.stays (fun move member => bits _ (watched move member))
        (.inr (by rw [resting]; decide))

theorem deed (one : schedule.OneMove view) (deed : schedule.Deed vars view next) :
    schedule.OneMove next := by
  -- Apart from the deeds that begin or end a move, no active bit is touched.
  have same : next.Shows vars view.bits → ∀ move ∈ schedule.moves,
      next.bits move.active = view.bits move.active :=
    fun bits move member => bits _ (watched move member)
  cases deed with
  | @pick move member before after bits =>
      have inactive := one.idle (by rw [before]; decide)
      constructor
      · intro first isFirst second isSecond active alsoActive
        rw [bits _ (watched first isFirst)] at active
        rw [bits _ (watched second isSecond)] at alsoActive
        have picked : ∀ other ∈ schedule.moves, update view.bits move.active true other.active = true →
            other = move := by
          intro other known active
          by_contra apart
          have differ : other.active ≠ move.active :=
            fun equal => apart (listed.active_inj known member equal)
          rw [Function.update_of_ne differ, inactive other known] at active
          cases active
        rw [picked first isFirst active, picked second isSecond alsoActive]
      · intro idle
        rw [after] at idle
        exact absurd idle (by decide)
  | prepare _ _ _ _ after bits => exact one.stays (same bits) (.inl (by rw [after]; decide))
  | @ask move client member needs active before after bits =>
      refine one.stays ?_ (.inl (by rw [after]; decide))
      intro other known
      have apart : other.active ≠ client.request := by
        intro equal
        exact listed.active_notMem_vars known member needs (equal ▸ by simp [Client.vars])
      rw [bits _ (watched other known), Function.update_of_ne apart]
  | permit _ _ _ _ _ after bits => exact one.stays (same bits) (.inl (by rw [after]; decide))
  | confirm _ _ _ after bits => exact one.stays (same bits) (.inl (by rw [after]; decide))
  | @abandon move client member needs active before after bits =>
      refine one.cleared member active ?_ ?_
      · rw [bits _ (watched move member), Function.update_self]
      · intro other known differ
        have apart : other.active ≠ client.request := by
          intro equal
          exact listed.active_notMem_vars known member needs (equal ▸ by simp [Client.vars])
        rw [bits _ (watched other known), Function.update_of_ne differ, Function.update_of_ne apart]
  | command _ _ _ after bits => exact one.stays (same bits) (.inl (by rw [after]; decide))
  | set _ _ _ _ after bits => exact one.stays (same bits) (.inl (by rw [after]; decide))
  | signal _ _ _ after bits => exact one.stays (same bits) (.inl (by rw [after]; decide))
  | start _ _ _ _ after bits => exact one.stays (same bits) (.inl (by rw [after]; decide))
  | @depart move member active before after bits =>
      refine one.stays ?_ (.inl (by rw [after]; decide))
      intro other known
      rw [bits _ (watched other known)]
      exact View.bits_carry (listed.active_notMem_release known member)
  | arrive _ _ _ after bits =>
      refine one.stays ?_ (.inl (by rw [after]; decide))
      intro move member
      rw [bits _ (watched move member), Function.update_of_ne (listed.active_ne_go member)]
  | leave _ _ _ after bits => exact one.stays (same bits) (.inl (by rw [after]; decide))
  | @finish move member active before after bits =>
      refine one.cleared member active ?_ ?_
      · rw [bits _ (watched move member), Function.update_self]
      · intro other known differ
        rw [bits _ (watched other known), Function.update_of_ne differ]
  | forget before after bits => exact one.stays (same bits) (.inr (by rw [before]; decide))
  | recover before after bits => exact one.stays (same bits) (.inr (by rw [before]; decide))
  | restart before after bits =>
      refine .none ?_
      intro move member
      rw [bits _ (watched move member)]
      exact View.bits_carry_clear (one.idle (by rw [before]; decide) move member) _
  | wake before after bits => exact one.stays (same bits) (.inr (by rw [before]; decide))

end OneMove

end Schedule

end Interlocking
