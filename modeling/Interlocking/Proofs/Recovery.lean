import Interlocking.Proofs.Debouncing
import Interlocking.Proofs.Journeys
import Mathlib.Data.List.TakeWhile

/-!
# Restarts

After power-on a schedule waits for the filters of the sensors before it believes that a block is
empty. Two timers run against each other, the one of the filter and the one of the schedule. Both
are described by the number of turns that their automata have taken. The schedule waits one turn
longer than the slowest filter, so the filter has let a train through when the schedule looks,
whoever takes its turn first. Only for the longest window a timer cannot count one turn more, and
the filter has to come first.
-/

namespace Interlocking

section Filter

variable {occupancy raw shadow : Var} {window : UInt8} {turns : Nat} {view : View}

/-- A filter that has found its sensor at 1 in all its turns so far lets the value through when
they are more than its window. -/
def Settles (occupancy shadow : Var) (window : UInt8) (turns : Nat) (view : View) : Prop :=
  turns = 0 ∧ view.timer = 0 ∨ view.bits shadow = true ∧
    (view.bits occupancy = true ∨
      0 < view.timer.toNat ∧ view.timer.toNat + turns = window.toNat + 1)

theorem Settles.settled (settles : Settles occupancy shadow window turns view)
    (enough : window.toNat + 1 ≤ turns) : view.bits occupancy = true := by
  rcases settles with ⟨begins, _⟩ | ⟨_, occupied | ⟨running, counted⟩⟩
  · omega
  · exact occupied
  · omega

theorem Settles.turn (settles : Settles occupancy shadow window turns view)
    (sensed : view.bits raw = true) (rawShadow : raw ≠ shadow)
    (shadowOccupancy : shadow ≠ occupancy) {rest : List Rule}
    (spared : ∀ rule ∈ rest, ∀ var ∈ rule.writes, var ≠ occupancy ∧ var ≠ shadow)
    (untimed : Layout.Untimed rest) :
    Settles occupancy shadow window (turns + 1)
      (view.tick.pass (filterRules occupancy raw window shadow ++ rest)) := by
  have tick := view.toNat_timer_tick
  generalize passes : view.tick.pass (filterRules occupancy raw window shadow ++ rest) = passed
  obtain ⟨shadowed, timer, occupied⟩ :=
    pass_filterRules rawShadow shadowOccupancy spared untimed passes.symm
  rw [sensed] at shadowed timer occupied
  refine .inr ⟨shadowed, ?_⟩
  by_cases expired : passed.timer = 0
  · exact .inl (occupied.trans (if_pos expired))
  · rw [if_neg expired] at occupied
    have running := toNat_pos_of_ne_zero expired
    rcases settles with ⟨begins, stopped⟩ | ⟨seen, through | ⟨counting, counted⟩⟩
    · split at timer
      · rw [timer, tick, stopped] at running
        simp at running
      · rw [timer, begins]
        exact .inr ⟨timer ▸ running, rfl⟩
    · exact .inl (occupied.trans through)
    · rw [if_pos seen] at timer
      right
      rw [timer, tick] at running ⊢
      omega

end Filter

namespace Schedule

variable {schedule : Schedule} {window : UInt8} {turns : Nat} {view : View}

/-- In a turn that begins with this view, a rule of the restart clears the bit. -/
def Forgets (schedule : Schedule) (layout : Layout) (var : Var) (view : View) : Prop :=
  View.Fires
    (fun rule => rule ∈ schedule.restartRules (recoveryWindow layout) ∧ var ∈ rule.writes)
    (schedule.build layout).rules view.tick

/-- An action that starts no timer and does not lead to the restart. -/
def Calm : Action → Prop
  | .set _ _ => True
  | .goto state => state ≠ .initial ∧ state ≠ Stage.recovering.state
  | .loadTimer _ => False

/-- The rules in front of the end of a restart. -/
def calmRules (schedule : Schedule) : List Rule :=
  schedule.openingRules ++ schedule.moves.flatMap schedule.moveRules ++ schedule.forgetRules

/-- The rules with which a restart begins and ends. -/
def windowRules (schedule : Schedule) (window : UInt8) : List Rule := [
  { conditions := [.inState Stage.recovering.state, .timerExpired]
    actions := schedule.berths.map (fun berth => .clear berth.coming) ++ [.goto .base] },
  { conditions := [.inState .initial]
    actions := .clear schedule.go :: (schedule.moves.map (fun move => .clear move.active) ++
      [.loadTimer window, advance .recovering]) },
  RuleBook.startRule]

theorem rules_build_calm (layout : Layout) : (schedule.build layout).rules =
    schedule.calmRules ++ schedule.windowRules (recoveryWindow layout) := by
  simp [rules_build, laterRules, calmRules, restartRules, windowRules]

@[simp] theorem calm_set (var : Var) (value : Bool) : Calm (.set var value) := trivial

@[simp] theorem calm_base : Calm (.goto .base) := ⟨by decide, by decide⟩

@[simp] theorem calm_advance (stage : Stage) : Calm (advance stage) ↔ stage ≠ .recovering := by
  cases stage <;> simp [Calm, advance, Stage.state, State.initial]

theorem calm_permissionUsed (client : Option Client) :
    ∀ action ∈ permissionUsed client, Calm action := by
  cases client <;> simp [permissionUsed]

theorem calm_moveRules (move : Move) :
    ∀ rule ∈ schedule.moveRules move, ∀ action ∈ rule.actions, Calm action := by
  refine List.forall_mem_cons.mpr ⟨by simp [pickRule], List.forall_mem_append.mpr
    ⟨List.forall_mem_append.mpr ⟨?_, ?_⟩, ?_⟩⟩
  · cases move.client with
    | none => simp [permissionRules]
    | some client =>
        exact List.forall_mem_append.mpr ⟨by simp, List.forall_mem_map.mpr fun guard _ => by simp⟩
  · unfold turnoutRules
    split
    · simp
    · exact List.forall_mem_cons.mpr ⟨List.forall_mem_map.mpr fun _ _ => calm_set .., by simp⟩
  · have used := calm_permissionUsed move.client
    simp only [travelRules, List.forall_mem_cons, List.forall_mem_append]
    simpa using used

theorem calm_calmRules : ∀ rule ∈ schedule.calmRules, ∀ action ∈ rule.actions, Calm action := by
  refine List.forall_mem_append.mpr ⟨List.forall_mem_append.mpr
    ⟨List.forall_mem_append.mpr ⟨?_, ?_⟩, ?_⟩, ?_⟩
  · simp [stopRule]
  · simp [waitRule]
  · intro rule member
    obtain ⟨move, _, member⟩ := List.mem_flatMap.mp member
    exact calm_moveRules move rule member
  · exact List.forall_mem_map.mpr fun berth _ => by simp

/-- Calm actions leave the timer, and they do not lead to the restart. -/
theorem carry_calm {actions : List Action} (calm : ∀ action ∈ actions, Calm action) :
    (view.carry actions).timer = view.timer ∧ ((view.carry actions).state = view.state ∨
      (view.carry actions).state ≠ .initial ∧
        (view.carry actions).state ≠ Stage.recovering.state) := by
  induction actions generalizing view with
  | nil => exact ⟨rfl, .inl rfl⟩
  | cons action actions ih =>
      obtain ⟨first, rest⟩ := List.forall_mem_cons.mp calm
      obtain ⟨timer, state⟩ := @ih (view.act action) rest
      cases action with
      | set var value => exact ⟨timer, state⟩
      | goto other =>
          refine ⟨timer, .inr ?_⟩
          rcases state with same | elsewhere
          · rw [View.carry_cons, same]
            exact first
          · exact elsewhere
      | loadTimer cycles => exact first.elim

/-- A schedule in a restart has counted its turns since. -/
def Restarts (window : UInt8) (turns : Nat) (view : View) : Prop :=
  (view.state = .initial → turns = 0) ∧
    (view.state = Stage.recovering.state →
      0 < view.timer.toNat ∧ view.timer.toNat + turns = window.toNat + 1)

/-- How the state of a restart can have come about in a turn that began with `view`. -/
def Since (window : UInt8) (view next : View) : Prop :=
  (next.state = .initial → view.state = .initial) ∧
    (next.state = Stage.recovering.state → view.state = .initial ∧ next.timer = window ∨
      view.state = Stage.recovering.state ∧ next.timer = view.timer)

theorem Since.calm {next : View} (since : Since window view next) {actions : List Action}
    (calm : ∀ action ∈ actions, Calm action) : Since window view (next.carry actions) := by
  obtain ⟨timer, state⟩ := @carry_calm next actions calm
  constructor
  · intro initial
    rcases state with same | elsewhere
    · exact since.1 (same ▸ initial)
    · exact absurd initial elsewhere.1
  · intro recovering
    rw [timer]
    rcases state with same | elsewhere
    · exact since.2 (same ▸ recovering)
    · exact absurd recovering elsewhere.2

/-- Whatever rule is carried out in a turn, a restart has come about in the one way or the other. -/
theorem Since.fire {next : View} (since : Since window view next) {rule : Rule}
    (member : rule ∈ schedule.calmRules ++ schedule.windowRules window)
    (enabled : next.Enables rule) : Since window view (next.carry rule.actions) := by
  rcases List.mem_append.mp member with member | member
  · exact since.calm (calm_calmRules rule member)
  · simp only [windowRules, List.mem_cons, List.not_mem_nil, or_false] at member
    rcases member with rfl | rfl | rfl
    · exact since.calm (List.forall_mem_append.mpr
        ⟨List.forall_mem_map.mpr fun _ _ => calm_set .., by simp⟩)
    · have initial := since.1 (enabled (.inState .initial) (by simp))
      simp only [View.carry_cons, View.carry_append, View.carry_nil, advance, View.act_goto,
        View.act_loadTimer]
      exact ⟨fun _ => initial, fun _ => .inl ⟨initial, rfl⟩⟩
    · exact since.calm (by simp [RuleBook.startRule])

theorem Since.refl (window : UInt8) (view : View) : Since window view view :=
  ⟨id, fun recovering => .inr ⟨recovering, rfl⟩⟩

theorem toNat_recoveryWindow (layout : Layout) :
    (recoveryWindow layout).toNat = min 255 (layout.maxDebounceCycles.toNat + 1) := by
  rw [recoveryWindow, windowAfter, UInt8.toNat_ofNat']
  omega

theorem recoveryWindow_ne_zero (layout : Layout) : recoveryWindow layout ≠ 0 := by
  intro zero
  have counted := toNat_recoveryWindow layout
  rw [zero, UInt8.toNat_zero] at counted
  omega

/-- A restart that has waited long enough ends. -/
theorem timer_of_recovering {layout : Layout}
    (recovering : (view.pass (schedule.build layout).rules).state = Stage.recovering.state) :
    (view.pass (schedule.build layout).rules).timer ≠ 0 := by
  rw [rules_build_calm, View.pass_append, windowRules, View.pass_cons] at recovering ⊢
  revert recovering
  refine View.pass_induct (motive := fun view =>
    view.state = Stage.recovering.state → view.timer ≠ 0) ?_ ?_
  · intro rule member next running _ recovering
    simp only [List.mem_cons, List.not_mem_nil, or_false] at member
    rcases member with rfl | rfl
    · simpa [View.carry_append, advance] using recoveryWindow_ne_zero layout
    · simp [RuleBook.startRule, State.base, Stage.state] at recovering
  · rw [View.fire]
    split
    · simp [View.carry_append, State.base, Stage.state]
    · rename_i disabled
      intro recovering expired
      exact disabled (by simpa [View.Enables, View.Meets] using ⟨recovering, expired⟩)

/-- A turn of the schedule is counted. -/
theorem Restarts.turn {layout : Layout} (restarts : Restarts (recoveryWindow layout) turns view) :
    Restarts (recoveryWindow layout) (turns + 1) (view.tick.pass (schedule.build layout).rules) := by
  have since : Since (recoveryWindow layout) view.tick
      (view.tick.pass (schedule.build layout).rules) := by
    refine View.pass_induct ?_ (.refl _ _)
    intro rule member next since enabled
    rw [rules_build_calm] at member
    exact since.fire member enabled
  constructor
  · intro initial
    have last : (schedule.build layout).rules = schedule.openingRules ++
        (schedule.moves.flatMap schedule.moveRules ++
          schedule.restartRules (recoveryWindow layout)) ++ [RuleBook.startRule] := by
      simp [rules_build, laterRules]
    rw [last] at initial
    exact absurd initial View.state_pass_ne_initial
  · intro recovering
    have running := toNat_pos_of_ne_zero (timer_of_recovering recovering)
    have tick := view.toNat_timer_tick
    refine ⟨running, ?_⟩
    rcases since.2 recovering with ⟨initial, timer⟩ | ⟨before, timer⟩
    · rw [View.state_tick] at initial
      rw [timer, restarts.1 initial]
    · rw [View.state_tick] at before
      obtain ⟨_, counted⟩ := restarts.2 before
      rw [timer, tick] at running ⊢
      omega

/-- The schedule is about to believe what the detectors say. -/
theorem turns_of_expired {layout : Layout} (restarts : Restarts (recoveryWindow layout) turns view)
    (recovering : view.state = Stage.recovering.state) (expired : view.tick.timer = 0) :
    turns = (recoveryWindow layout).toNat := by
  have tick := view.toNat_timer_tick
  obtain ⟨running, counted⟩ := restarts.2 recovering
  rw [expired, UInt8.toNat_zero] at tick
  omega

namespace Listed

variable {yard : Yard} (listed : schedule.Listed yard) {berth : Berth}
  (known : berth ∈ schedule.berths)

include listed known

omit listed in
theorem here_mem : berth.here ∈ schedule.berths.flatMap fun berth => [berth.here, berth.coming] :=
  List.mem_flatMap.mpr ⟨berth, known, by simp⟩

theorem here_ne_go : berth.here ≠ schedule.go := by
  obtain ⟨own, -, -⟩ := List.nodup_append.mp listed.distinct
  intro same
  exact (List.nodup_cons.mp own).1 (same ▸ List.mem_append_left _ (here_mem known))

theorem here_ne_active {move : Move} (member : move ∈ schedule.moves) :
    berth.here ≠ move.active := by
  obtain ⟨own, -, -⟩ := List.nodup_append.mp listed.distinct
  obtain ⟨-, -, apart⟩ := List.nodup_append.mp (List.nodup_cons.mp own).2
  exact apart _ (here_mem known) _ (List.mem_map_of_mem member)

/-- The bit says of one block only that the train is there. -/
theorem berth_of_here {other : Berth} (alsoKnown : other ∈ schedule.berths)
    (owned : berth.here = other.here ∨ berth.here = other.coming) :
    other = berth ∧ berth.here ≠ other.coming := by
  obtain ⟨own, -, -⟩ := List.nodup_append.mp listed.distinct
  have nodup := (List.nodup_append.mp (List.nodup_cons.mp own).2).1
  obtain ⟨first, atFirst⟩ := List.mem_iff_getElem?.mp known
  obtain ⟨second, atSecond⟩ := List.mem_iff_getElem?.mp alsoKnown
  have ofBerth : berth.here ∈ [berth.here, berth.coming] := by simp
  have ofOther : berth.here ∈ [other.here, other.coming] := by simpa using owned
  obtain rfl := index_eq_of_mem_parts nodup atFirst atSecond ofBerth ofOther
  obtain rfl := Option.some.inj (atFirst.symm.trans atSecond)
  have bits := (List.nodup_flatMap.mp nodup).1 berth known
  exact ⟨rfl, by simpa using bits⟩

/-- Of the rules of a restart only the one for the block itself writes the bit. -/
theorem conditions_of_here {rule : Rule} (restart : rule ∈ schedule.restartRules window)
    (written : berth.here ∈ rule.writes) :
    .inState Stage.recovering.state ∈ rule.conditions ∧ .timerExpired ∈ rule.conditions ∧
      .off berth.detector ∈ rule.conditions := by
  rcases List.mem_append.mp restart with forget | restart
  · obtain ⟨other, sensitive, rfl⟩ := List.mem_map.mp forget
    have same : berth.here = other.here := by simpa [Rule.writes, Action.var?] using written
    obtain ⟨rfl, -⟩ := listed.berth_of_here known (List.mem_of_mem_filter sensitive) (.inl same)
    simp
  · simp only [List.mem_cons, List.not_mem_nil, or_false] at restart
    rcases restart with rfl | rfl
    · have coming : ∃ other ∈ schedule.berths, other.coming = berth.here := by
        simpa [Rule.writes, Action.var?, List.filterMap_map, Function.comp_def] using written
      obtain ⟨other, alsoKnown, same⟩ := coming
      exact absurd same.symm (listed.berth_of_here known alsoKnown (.inr same.symm)).2
    · have either : berth.here = schedule.go ∨ ∃ move ∈ schedule.moves,
          move.active = berth.here := by
        simpa [Rule.writes, Action.var?, List.filterMap_map, Function.comp_def, advance]
          using written
      rcases either with same | ⟨move, member, same⟩
      · exact absurd same (listed.here_ne_go known)
      · exact absurd same.symm (listed.here_ne_active known member)

end Listed

/-- A restart forgets no train where the detector shows one when the waiting ends. -/
theorem not_forgets {yard : Yard} (listed : schedule.Listed yard) {layout : Layout} {berth : Berth}
    (known : berth ∈ schedule.berths) (unwritten : berth.detector ∉ schedule.outputs)
    (seen : view.state = Stage.recovering.state → view.tick.timer = 0 →
      view.bits berth.detector = true) : ¬schedule.Forgets layout berth.here view := by
  refine View.not_fires (motive := fun next => Since (recoveryWindow layout) view.tick next ∧
    next.bits berth.detector = view.bits berth.detector) ?_ ?_ ⟨.refl _ _, by rw [View.bits_tick]⟩
  · intro rule member next ⟨since, same⟩ enabled
    refine ⟨since.fire (rules_build_calm layout ▸ member) enabled, ?_⟩
    rw [View.bits_carry fun written =>
      unwritten (schedule.build_writesOnly layout rule member written), same]
  · intro rule member next ⟨since, same⟩ ⟨restart, written⟩ enabled
    obtain ⟨atStage, atEnd, unseen⟩ := listed.conditions_of_here known restart written
    have expired : next.timer = 0 := enabled _ atEnd
    rcases since.2 (enabled _ atStage) with ⟨_, timer⟩ | ⟨recovering, timer⟩
    · exact recoveryWindow_ne_zero layout (timer.symm.trans expired)
    · rw [View.state_tick] at recovering
      have empty : next.bits berth.detector = false := enabled _ unseen
      rw [same, seen recovering (timer.symm.trans expired)] at empty
      cases empty

end Schedule

namespace Machine

/-- The bit is 1 at first and after each turn. -/
def HoldsAlong (var : Var) : List Nat → Machine → Prop
  | [], machine => machine.get var = .ok true
  | index :: indices, machine => machine.get var = .ok true ∧
      ∀ outcome ∈ (machine.evaluate index).toOption, HoldsAlong var indices outcome.1

instance decidableHoldsAlong (var : Var) :
    (indices : List Nat) → DecidablePred (HoldsAlong var indices)
  | [], _ => inferInstanceAs (Decidable (_ = _))
  | _ :: indices, _ =>
      have := decidableHoldsAlong var indices
      inferInstanceAs (Decidable (_ ∧ _))

/-- The bit is 1 throughout the next cycle. -/
def Holds (var : Var) (machine : Machine) : Prop := machine.HoldsAlong var machine.order

instance (var : Var) : DecidablePred (Holds var) :=
  fun machine => inferInstanceAs (Decidable (machine.HoldsAlong var machine.order))

theorem HoldsAlong.of_prefix {machine : Machine} {var : Var} {early indices : List Nat}
    (held : machine.HoldsAlong var indices) (inside : early <+: indices) :
    machine.HoldsAlong var early := by
  induction early generalizing machine indices with
  | nil =>
      cases indices with
      | nil => exact held
      | cons index indices => exact held.1
  | cons index early ih =>
      obtain ⟨late, rfl⟩ := inside
      exact ⟨held.1, fun outcome reached => ih (held.2 outcome reached) (List.prefix_append ..)⟩

end Machine

/-- A filter and a schedule in one program. -/
structure Race (layout : Layout) (schedule : Schedule) (program : Program) where
  occupancy : Var
  raw : Var
  shadow : Var
  window : UInt8
  /-- The place of the filter. -/
  body : Nat
  filter : Automaton
  rest : List Rule
  rules : filter.rules = filterRules occupancy raw window shadow ++ rest
  untimed : Layout.Untimed rest
  spared : ∀ rule ∈ rest, ∀ var ∈ rule.writes, var ≠ occupancy ∧ var ≠ shadow
  rawShadow : raw ≠ shadow
  shadowOccupancy : shadow ≠ occupancy
  atBody : program.automata[body]? = some filter
  /-- The place of the schedule. -/
  train : Nat
  atTrain : program.automata[train]? = some (schedule.build layout)
  apart : body ≠ train
  others : ∀ {index automaton}, program.automata[index]? = some automaton → index ≠ body →
    ∀ rule ∈ automaton.rules, ∀ var ∈ rule.writes, var ≠ occupancy ∧ var ≠ shadow

namespace Race

variable {layout : Layout} {schedule : Schedule} {program : Program}
  {race : Race layout schedule program} {filtered planned : Nat} {machine next last : Machine}
  {changed : Bool}

/-- Where the two automata stand after so many turns. -/
structure Stands (race : Race layout schedule program) (filtered planned : Nat) (machine : Machine)
    (sensor plan : Cell) : Prop where
  automata : machine.automata = program.automata
  atBody : machine.cells[race.body]? = some sensor
  atTrain : machine.cells[race.train]? = some plan
  settles : Settles race.occupancy race.shadow race.window filtered (sensor.view machine.memory)
  restarts : Schedule.Restarts (Schedule.recoveryWindow layout) planned (plan.view machine.memory)

theorem Stands.frame {sensor plan : Cell} (stands : race.Stands filtered planned machine sensor plan)
    (automata : next.automata = machine.automata)
    (atBody : next.cells[race.body]? = machine.cells[race.body]?)
    (atTrain : next.cells[race.train]? = machine.cells[race.train]?)
    (occupancy : next.memory.value race.occupancy = machine.memory.value race.occupancy)
    (shadow : next.memory.value race.shadow = machine.memory.value race.shadow) :
    race.Stands filtered planned next sensor plan := by
  refine ⟨automata.trans stands.automata, atBody.trans stands.atBody,
    atTrain.trans stands.atTrain, ?_, stands.restarts⟩
  have settles := stands.settles
  simp only [Settles, Cell.view, occupancy, shadow] at settles ⊢
  exact settles

/-- A turn counts for the automaton that takes it. -/
theorem Stands.evaluate {sensor plan : Cell} {index : Nat}
    (stands : race.Stands filtered planned machine sensor plan)
    (sensed : machine.memory.value race.raw = true)
    (evaluated : machine.evaluate index = .ok (next, changed)) :
    ∃ sensor plan, race.Stands (filtered + if index = race.body then 1 else 0)
      (planned + if index = race.train then 1 else 0) next sensor plan := by
  obtain ⟨cell, after, found, there, _, view, others, _⟩ := Machine.view_evaluate evaluated
  have automata := (Machine.frame_evaluate evaluated).1
  have placed := Machine.automata_getElem? found
  rw [stands.automata] at placed
  have bits : ∀ {var}, (∀ rule ∈ cell.automaton.rules, var ∉ rule.writes) →
      next.memory.value var = machine.memory.value var := by
    intro var apart
    have seen : next.memory.value var = _ := congrFun (congrArg View.bits view) var
    rw [seen, View.bits_pass apart, View.bits_tick]
    rfl
  by_cases atBody : index = race.body
  · subst atBody
    have automaton := Option.some.inj (race.atBody.symm.trans placed)
    obtain rfl := Option.some.inj (found.symm.trans stands.atBody)
    rw [← automaton, race.rules] at view
    refine ⟨after, plan, automata.trans stands.automata, there,
      (others race.train race.apart.symm).trans stands.atTrain, ?_, ?_⟩
    · rw [if_pos rfl, view]
      exact stands.settles.turn sensed race.rawShadow race.shadowOccupancy race.spared race.untimed
    · rw [if_neg race.apart, Nat.add_zero]
      exact stands.restarts
  · have spared := race.others placed atBody
    have occupancy := bits fun rule member written => (spared rule member _ written).1 rfl
    have shadow := bits fun rule member written => (spared rule member _ written).2 rfl
    rw [if_neg atBody, Nat.add_zero]
    by_cases atTrain : index = race.train
    · subst atTrain
      have automaton := Option.some.inj (race.atTrain.symm.trans placed)
      obtain rfl := Option.some.inj (found.symm.trans stands.atTrain)
      refine ⟨sensor, after, automata.trans stands.automata,
        (others race.body race.apart).trans stands.atBody, there, ?_, ?_⟩
      · have settles := stands.settles
        simp only [Settles, Cell.view, occupancy, shadow] at settles ⊢
        exact settles
      · rw [if_pos rfl, view, ← automaton]
        exact stands.restarts.turn
    · rw [if_neg atTrain, Nat.add_zero]
      exact ⟨sensor, plan, stands.frame automata (others _ (Ne.symm atBody))
        (others _ (Ne.symm atTrain)) occupancy shadow⟩

/-- The turns of a part of a cycle keep the two automata in step, each by the number of its own
turns. -/
theorem Stands.evaluateAll {sensor plan : Cell} {indices : List Nat}
    (stands : race.Stands filtered planned machine sensor plan)
    (held : machine.HoldsAlong race.raw indices)
    (evaluated : machine.evaluateAll indices = .ok (last, changed)) :
    ∃ sensor plan, race.Stands (filtered + indices.count race.body)
      (planned + indices.count race.train) last sensor plan := by
  induction indices generalizing machine filtered planned sensor plan changed with
  | nil =>
      obtain ⟨rfl, -⟩ := Prod.mk.inj (Except.ok.inj evaluated)
      exact ⟨sensor, plan, stands⟩
  | cons index indices ih =>
      obtain ⟨middle, early, late, head, tail, -⟩ := Machine.evaluateAll_cons_eq_ok.mp evaluated
      obtain ⟨sensor, plan, stands⟩ := stands.evaluate (Memory.read_eq_ok.mp held.1).2 head
      obtain ⟨sensor, plan, stands⟩ :=
        ih stands (held.2 _ (Machine.mem_toOption_iff.mpr head)) tail
      refine ⟨sensor, plan, ?_⟩
      simp only [List.count_cons, beq_iff_eq]
      convert stands using 1 <;> omega

theorem Stands.count_order {sensor plan : Cell}
    (stands : race.Stands filtered planned machine sensor plan) {place : Nat} {automaton : Automaton}
    (placed : program.automata[place]? = some automaton) : machine.order.count place = 1 := by
  rw [← stands.automata] at placed
  obtain ⟨cell, found, -⟩ := Machine.exists_cell placed
  refine List.count_eq_one_of_mem machine.order_nodup (Machine.mem_order.mpr ?_)
  exact (Array.getElem?_eq_some_iff.mp found).1

/-- In a cycle both automata take one turn. -/
theorem Stands.cycle {turns : Nat} {sensor plan : Cell}
    (stands : race.Stands turns turns machine sensor plan) (held : machine.Holds race.raw)
    (beaten : machine.beat .cycle = .ok next) :
    ∃ sensor plan, race.Stands (turns + 1) (turns + 1) next sensor plan := by
  obtain ⟨last, changed, evaluated, rfl⟩ := Machine.beat_cycle_eq_ok beaten
  obtain ⟨sensor, plan, moved⟩ := stands.evaluateAll held evaluated
  rw [stands.count_order race.atBody, stands.count_order race.atTrain] at moved
  exact ⟨sensor, plan, moved.frame rfl rfl rfl rfl rfl⟩

/-- At power-on no turn has been taken. -/
theorem stands_powerOn (race : Race layout schedule program) (settings : SimConfig) :
    race.Stands 0 0 (.powerOn program settings) { automaton := race.filter }
      { automaton := schedule.build layout } where
  automata := Machine.automata_powerOn ..
  atBody := by simp [Machine.powerOn, race.atBody]
  atTrain := by simp [Machine.powerOn, race.atTrain]
  settles := .inl ⟨rfl, rfl⟩
  restarts := ⟨fun _ => rfl, by simp [Cell.view, State.initial, Schedule.Stage.state]⟩

/-- The turns of the filter before the turn of the schedule are enough for its window. -/
theorem Stands.settled {turns : Nat} {sensor plan : Cell} {early : List Nat}
    (stands : race.Stands (turns + early.count race.body) turns machine sensor plan)
    (longest : race.window ≤ layout.maxDebounceCycles)
    (enough : race.window < 255 ∨ race.body ∈ early)
    (recovering : plan.state = Schedule.Stage.recovering.state)
    (expired : (plan.view machine.memory).tick.timer = 0) :
    machine.memory.value race.occupancy = true := by
  refine stands.settles.settled ?_
  have counted := Schedule.turns_of_expired stands.restarts recovering expired
  rw [Schedule.toNat_recoveryWindow] at counted
  have bounded := UInt8.le_iff_toNat_le.mp longest
  have byte := race.window.toNat_lt
  rcases enough with shorter | first
  · have below := UInt8.lt_iff_toNat_lt.mp shorter
    simp at below
    omega
  · have before := List.count_pos_iff.mpr first
    omega

end Race

theorem mem_takeWhile_of_lt {order : List Nat} {first second : Nat}
    (sorted : order.Pairwise (· < ·)) (member : first ∈ order) (before : first < second) :
    first ∈ order.takeWhile (· ≠ second) := by
  induction order with
  | nil => cases member
  | cons index order ih =>
      obtain ⟨least, sorted⟩ := List.pairwise_cons.mp sorted
      have apart : index ≠ second := by
        rintro rfl
        rcases List.mem_cons.mp member with rfl | member
        · exact Nat.lt_irrefl _ before
        · exact Nat.lt_asymm before (least first member)
      rw [List.takeWhile_cons, if_pos (by simpa using apart)]
      rcases List.mem_cons.mp member with rfl | member
      · exact List.mem_cons_self
      · exact List.mem_cons_of_mem _ (ih sorted member)

namespace Service

variable {service : Service}

/-- The machine at power-on, as an operation in which nothing has happened. -/
def Proper.atRest (proper : service.Proper) : Operation where
  config := service.config
  orders := service.orders
  admitted := proper.admitted
  sources := service.sources
  declared := proper.declared
  program := service.program
  compiled := service.compiled
  settings := service.settings
  events := []
  permitted := by simp
  machine := .powerOn service.program service.settings
  played := rfl

/-- The schedule of a train was declared. -/
theorem Proper.mem_schedules (proper : service.Proper) {schedule : Schedule}
    (runs : .train schedule ∈ service.sources) : schedule ∈ service.yard.schedules := by
  simpa [Yard.sources] using proper.declared runs

/-- The automaton of a piece stands at the place of the piece, in front of those of the sources. -/
theorem automata_of_piece (service : Service) {id : PieceId} {piece : Piece}
    (found : service.layout.piece? id = some piece) :
    service.program.automata[id.index]? = some (piece.automaton service.layout) ∧
      id.index < service.layout.automata.length :=
  ⟨Program.getElem?_of_piece service.compiled found,
    (List.getElem?_eq_some_iff.mp (Layout.getElem?_automata found)).1⟩

/-- A filter of the layout and a schedule in service, and the filter stands in front. -/
theorem Proper.exists_race (proper : service.Proper) {schedule : Schedule}
    (runs : .train schedule ∈ service.sources) {id : PieceId} {name : String}
    {occupancy raw shadow : Var} {window : UInt8} {straight : Straight}
    (found : service.layout.piece? id = some { name, occupancy, body := .straight straight })
    (kind : straight.kind = .filtered raw window shadow) :
    ∃ race : Race service.layout schedule service.program,
      race.occupancy = occupancy ∧ race.raw = raw ∧ race.shadow = shadow ∧ race.window = window ∧
        race.body < race.train := by
  have sound : service.layout.Sound := proper.atRest.sound.layout
  obtain ⟨rest, rules, ignores, untimed⟩ := sound.rules_of_filtered found kind
  obtain ⟨measured, shadowed, outside⟩ := sound.role_of_filtered found kind
  obtain ⟨atBody, inside⟩ := service.automata_of_piece found
  obtain ⟨place, listed⟩ := List.mem_iff_getElem?.mp runs
  obtain ⟨_, built, atTrain⟩ := Program.getElem?_of_source service.compiled listed
  obtain rfl := Except.ok.inj built
  have front : id.index < service.layout.automata.length + place :=
    Nat.lt_add_right place inside
  refine ⟨{
    occupancy, raw, shadow, window, rest, rules, untimed, atBody, atTrain
    body := _
    filter := _
    train := _
    apart := Nat.ne_of_lt front
    spared := fun rule member var written =>
      sound.ne_of_spares found kind (ignores rule member var written)
    others := fun listed apart rule member var written =>
      sound.ne_of_spares found kind (proper.atRest.ignores listed apart rule member var written)
    rawShadow := ?_
    shadowOccupancy := ?_ }, rfl, rfl, rfl, rfl, front⟩
  · rintro rfl
    rw [Layout.role_of_outside outside] at shadowed
    cases shadowed
  · rintro rfl
    cases measured.symm.trans shadowed

end Service

section Shed

/-- A train `t` stands in the shed `b`, which has a filtered sensor and is sensitive. -/
def shedOrders : List Order := [.filteredBlock "b", .schedule "t", .sensitive 0 0 true]

/-- The shed as the train sees it. -/
def shedBerth : Berth where
  block := "b"
  here := ⟨100⟩
  coming := ⟨101⟩
  detector := ⟨49⟩
  requestGreen := ⟨65⟩
  routeOut := ⟨86⟩

/-- What the orders declare in the end. -/
def shedTrain : Schedule where
  name := "t"
  go := ⟨99⟩
  berths := [shedBerth]
  sensitive := ["b"]

/-- The track with the sensor. -/
def shedTrack : Straight where
  kind := .filtered ⟨0⟩ 1 ⟨51⟩
  a := ⟨2⟩
  b := ⟨3⟩
  seen := ⟨50⟩
  ab := { entry := ⟨2⟩, exit := ⟨3⟩, route := ⟨52⟩, pending := ⟨53⟩ }
  ba := { entry := ⟨3⟩, exit := ⟨2⟩, route := ⟨54⟩, pending := ⟨55⟩ }

/-- The sensor has shown the train from the start. The schedule takes its turn before the filter,
and in the third cycle it looks. -/
def shedService : Service :=
  (Service.start? { detector := { debounceCycles := 1 } } shedOrders [.train shedTrain]
    { reverseOrder := true } [.write ⟨0⟩ true, .write ⟨100⟩ true, .cycle, .cycle, .cycle]).get
    (by decide +kernel)

theorem shedService_shows :
    shedService.Proper ∧ .train shedTrain ∈ shedService.sources ∧
    shedService.layout.piece? ⟨1⟩ =
      some { name := "b.body", occupancy := ⟨49⟩, body := .straight shedTrack } ∧
    shedService.AtCycles (Machine.Holds ⟨0⟩) ∧
    shedService.machine.state? "t" = some .base := by
  decide +kernel

end Shed

/-- A restart never forgets a train where the raw sensor has shown one since power-on, if the
filter can let the sensor through before the schedule looks: its window is not the longest that a
timer can count, or the filter takes its turn first. -/
theorem restart_keeps_seen_train (service : Service) (proper : service.Proper)
    {schedule : Schedule} (runs : .train schedule ∈ service.sources) {berth : Berth}
    (known : berth ∈ schedule.berths) {id : PieceId} {name : String} {straight : Straight}
    (found : service.layout.piece? id =
      some { name, occupancy := berth.detector, body := .straight straight })
    {raw shadow : Var} {window : UInt8} (kind : straight.kind = .filtered raw window shadow)
    (held : service.AtCycles (Machine.Holds raw))
    (enough : window < 255 ∨ service.settings.reverseOrder = false) :
    service.AtCycles fun machine => ∀ view ∈ machine.turnView? schedule.name,
      ¬schedule.Forgets service.layout berth.here view := by
  have sound : service.yard.Sound := proper.atRest.sound
  have declared := proper.mem_schedules runs
  have listed : schedule.Listed service.yard :=
    (Yard.performAll_distinct service.config service.orders).schedules schedule declared
  have measured := (sound.layout.role_of_filtered found kind).1
  have unwritten : berth.detector ∉ schedule.outputs := by
    intro written
    have outside := Layout.role_of_outside (sound.schedules schedule declared _ written)
    cases outside.symm.trans measured
  have longest := Layout.window_le_maxDebounceCycles found kind
  obtain ⟨race, occupancy, rfl, rfl, rfl, front⟩ := proper.exists_race runs found kind
  refine Machine.atCycles_induct (motive := fun machine =>
    machine.order = (Machine.powerOn service.program service.settings).order ∧
      ∃ turns sensor plan, race.Stands turns turns machine sensor plan) held
    ⟨rfl, 0, _, _, race.stands_powerOn service.settings⟩ ?_ ?_ ?_
  · rintro machine next var value member ⟨order, turns, sensor, plan, stands⟩ written
    have permitted : service.layout.Permits (.write var value) := proper.permitted _ member
    have spares := sound.layout.spares_of_permits found permitted
    obtain ⟨notOccupancy, notShadow⟩ := sound.layout.ne_of_spares found kind spares
    obtain ⟨memory, stored, rfl⟩ := Machine.set_eq_ok written
    have others := (Memory.write_eq_ok stored).2
    refine ⟨order, turns, sensor, plan, stands.frame rfl rfl rfl ?_ ?_⟩
    · rw [others, if_neg (occupancy ▸ notOccupancy.symm)]
    · rw [others, if_neg notShadow.symm]
  · rintro machine next ⟨order, turns, sensor, plan, stands⟩ holds beaten
    exact ⟨(Machine.frame_beat beaten).2.trans order, turns + 1, stands.cycle holds beaten⟩
  · rintro machine ⟨order, turns, sensor, plan, stands⟩ holds view shown
    have names : (machine.automata.map (·.name)).Nodup := by
      rw [stands.automata]
      exact Program.names_nodup service.compiled
    rw [← schedule.name_build service.layout] at shown
    obtain ⟨middle, changed, cell, evaluated, there, rfl⟩ :=
      Machine.turnView?_eq_some names (stands.automata ▸ race.atTrain) shown
    have present : race.body ∈ machine.order := by
      rw [← List.count_pos_iff, stands.count_order race.atBody]
      exact Nat.one_pos
    obtain ⟨sensor, plan, stands⟩ :=
      stands.evaluateAll (holds.of_prefix (List.takeWhile_prefix _)) evaluated
    have waiting : (machine.order.takeWhile (· ≠ race.train)).count race.train = 0 :=
      List.count_eq_zero.mpr fun member => by simpa using List.mem_takeWhile_imp member
    rw [waiting, Nat.add_zero] at stands
    obtain rfl := Option.some.inj (there.symm.trans stands.atTrain)
    refine Schedule.not_forgets listed known unwritten fun recovering expired => ?_
    refine occupancy ▸ stands.settled longest (enough.imp_right fun forward => ?_) recovering expired
    have sorted : machine.order.Pairwise (· < ·) := by
      rw [order]
      simpa [Machine.order, Machine.powerOn, forward] using List.pairwise_lt_range
    exact mem_takeWhile_of_lt sorted present front

theorem restart_keeps_seen_train_in_shed :
    shedService.Proper ∧ .train shedTrain ∈ shedService.sources ∧
    shedService.layout.piece? ⟨1⟩ =
      some { name := "b.body", occupancy := ⟨49⟩, body := .straight shedTrack } ∧
    shedService.AtCycles (Machine.Holds ⟨0⟩) ∧
    shedService.machine.state? "t" = some .base ∧
    shedService.AtCycles fun machine => ∀ view ∈ machine.turnView? "t",
      ¬shedTrain.Forgets shedService.layout ⟨100⟩ view := by
  obtain ⟨proper, runs, found, held, ended⟩ := shedService_shows
  have kept := restart_keeps_seen_train shedService proper runs (by decide : shedBerth ∈ _) found
    rfl held (.inl (by decide))
  exact ⟨proper, runs, found, held, ended, kept⟩

end Interlocking
