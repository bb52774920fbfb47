import Interlocking.Proofs.Cycles
import Interlocking.Proofs.Journeys

/-!
# Releasing trains

Before a schedule asks for the way out of a block, it commands the turnouts of the move and waits
until their motors report back. From then on it waits for the way out and does not look at the
motors again, and in the turn in which it finds the way out reserved it releases the train. So a
released train has its way out, and its turnouts were reported to be set when the schedule began
to wait. Who else may command a turnout can have moved it since.
-/

namespace Interlocking

namespace View

variable {view : View} {actions : List Action} {rules : List Rule} {state : State} {var : Var}

/-- A state to which no action leads is not entered. -/
theorem state_carry_ne (elsewhere : view.state ≠ state) (avoids : .goto state ∉ actions) :
    (view.carry actions).state ≠ state := by
  induction actions generalizing view with
  | nil => exact elsewhere
  | cons action actions ih =>
      obtain ⟨first, rest⟩ := not_or.mp (List.mem_cons.not.mp avoids)
      refine ih ?_ rest
      cases action with
      | set | loadTimer => exact elsewhere
      | goto other =>
          rintro rfl
          exact first rfl

theorem state_pass_ne (elsewhere : view.state ≠ state)
    (avoids : ∀ rule ∈ rules, .goto state ∉ rule.actions) : (view.pass rules).state ≠ state := by
  refine pass_induct (motive := fun next => next.state ≠ state) ?_ elsewhere
  intro rule member next elsewhere _
  exact state_carry_ne elsewhere (avoids rule member)

/-- A state that one rule enters and the next one leaves does not last. -/
theorem state_fire_fire_ne {enter leave : Rule} (elsewhere : view.state ≠ state)
    (enters : enter.actions = [.goto state]) (asks : .on var ∈ enter.conditions)
    (stays : leave.conditions = [.inState state, .on var])
    (leaves : ∀ view : View, (view.carry leave.actions).state ≠ state) :
    ((view.fire enter).fire leave).state ≠ state := by
  by_cases enabled : view.Enables enter
  · have entered : (view.carry enter.actions).Enables leave := by
      have on : view.bits var = true := enabled _ asks
      simp [Enables, stays, enters, Meets, on]
    rw [fire, fire, if_pos enabled, if_pos entered]
    exact leaves _
  · have disabled : ¬view.Enables leave := by
      intro enabled
      exact elsewhere (enabled (.inState state) (by simp [stays]))
    rwa [fire, fire, if_neg enabled, if_neg disabled]

end View

namespace Schedule

/-- The rules of a move up to those that command its turnouts. -/
def preparingRules (move : Move) : List Rule :=
  pickRule move :: (permissionRules move move.client ++
    if move.turnouts = [] then []
    else [{ conditions := during move .turnouts
            actions := move.turnouts.map fun (motor, position) =>
              .set motor.command position.bit }])

/-- The motors report back. -/
def proceedRule (move : Move) : Rule where
  conditions := during move .turnouts ++
    holding (move.turnouts.map fun (motor, position) => (motor.current, position.bit))
  actions := [advance .requestGreen]

def signalRule (move : Move) : Rule where
  conditions := during move .requestGreen
  actions := [.raise move.source.requestGreen, advance .greenWait]

/-- The way out is reserved. -/
def clearedRule (move : Move) : Rule where
  conditions := during move .greenWait ++ [.on move.source.routeOut]
  actions := [advance .startTrain]

def releaseRule (schedule : Schedule) (move : Move) : Rule where
  conditions := during move .startTrain
  actions := [.raise schedule.go, .raise move.target.here, .clear move.source.here] ++
    permissionUsed move.client ++ [advance .moving]

/-- The rules of a move behind its release. -/
def endingRules (schedule : Schedule) (move : Move) : List Rule := [
  { conditions := during move .moving ++ [.on move.target.detector]
    actions := [.clear schedule.go, advance .stopTrain] },
  { conditions := during move .stopTrain ++ [.off move.source.routeOut]
    actions := [.clear move.source.requestGreen, advance .done] },
  { conditions := during move .done
    actions := [.clear move.active, .clear move.target.coming, .goto .base] }]

variable {schedule : Schedule} {move : Move} {rule : Rule} {stage : Stage} {view now next : View}

theorem moveRules_eq (schedule : Schedule) (move : Move) :
    schedule.moveRules move = preparingRules move ++
      ([proceedRule move, signalRule move] ++
        ([clearedRule move, schedule.releaseRule move] ++ schedule.endingRules move)) := by
  unfold moveRules preparingRules turnoutRules
  split <;> simp [travelRules, endingRules, proceedRule, signalRule, clearedRule, releaseRule, *]

/-- The stages that do not last beyond a turn. -/
def Passing (stage : Stage) : Prop := stage = .requestGreen ∨ stage = .startTrain

theorem avoids_preparingRules (passing : Passing stage) :
    ∀ rule ∈ preparingRules move, .goto stage.state ∉ rule.actions := by
  have commands : ∀ rule ∈ (if move.turnouts = [] then [] else
      [{ conditions := during move .turnouts
         actions := move.turnouts.map fun (motor, position) =>
           .set motor.command position.bit }] : List Rule), .goto stage.state ∉ rule.actions := by
    split <;> simp
  refine List.forall_mem_cons.mpr ⟨?_, List.forall_mem_append.mpr ⟨?_, commands⟩⟩
  · rcases passing with rfl | rfl <;> simp [pickRule, advance, Stage.state]
  · cases move.client with
    | none => rcases passing with rfl | rfl <;> simp [permissionRules, advance, Stage.state]
    | some client =>
        refine List.forall_mem_append.mpr ⟨?_, List.forall_mem_map.mpr fun guard _ => ?_⟩ <;>
          rcases passing with rfl | rfl <;> simp [advance, Stage.state]

theorem avoids_endingRules (passing : Passing stage) :
    ∀ rule ∈ schedule.endingRules move, .goto stage.state ∉ rule.actions := by
  rcases passing with rfl | rfl <;> simp [endingRules, advance, Stage.state, State.base]

/-- Of the rules of a move, only the report of the motors leads to the request for proceed. -/
theorem eq_proceedRule (member : rule ∈ schedule.moveRules move)
    (enters : .goto Stage.requestGreen.state ∈ rule.actions) : rule = proceedRule move := by
  rw [moveRules_eq] at member
  simp only [List.mem_append, List.mem_cons, List.not_mem_nil, or_false] at member
  rcases member with preparing | (rfl | rfl) | (rfl | rfl) | ending
  · exact absurd enters (avoids_preparingRules (.inl rfl) rule preparing)
  · rfl
  · simp [signalRule, advance, Stage.state] at enters
  · simp [clearedRule, advance, Stage.state] at enters
  · cases client : move.client <;>
      simp [releaseRule, permissionUsed, client, advance, Stage.state] at enters
  · exact absurd enters (avoids_endingRules (.inl rfl) rule ending)

/-- After the rules of a move the schedule is not at a passing stage, if it was not before. -/
theorem state_moveRules_ne (passing : Passing stage) (elsewhere : view.state ≠ stage.state) :
    (view.pass (schedule.moveRules move)).state ≠ stage.state := by
  have released : .goto stage.state ∉ (schedule.releaseRule move).actions := by
    cases client : move.client <;> rcases passing with rfl | rfl <;>
      simp [releaseRule, permissionUsed, client, advance, Stage.state]
  have pair : ∀ (view : View) (first second : Rule),
      view.pass [first, second] = (view.fire first).fire second := fun _ _ _ => rfl
  rw [moveRules_eq, View.pass_append, View.pass_append, View.pass_append]
  refine View.state_pass_ne ?_ (avoids_endingRules passing)
  have prepared : (view.pass (preparingRules move)).state ≠ stage.state :=
    View.state_pass_ne elsewhere (avoids_preparingRules passing)
  generalize view.pass (preparingRules move) = view at prepared
  rcases passing with rfl | rfl
  · refine View.state_pass_ne ?_ (by simpa [clearedRule, advance, Stage.state] using released)
    rw [pair]
    have active : .on move.active ∈ (proceedRule move).conditions := by simp [proceedRule, during]
    refine View.state_fire_fire_ne prepared rfl active rfl fun view => ?_
    simp [signalRule, advance, Stage.state]
  · rw [pair]
    have active : .on move.active ∈ (clearedRule move).conditions := by simp [clearedRule, during]
    refine View.state_fire_fire_ne (View.state_pass_ne prepared ?_) rfl active rfl fun view => ?_
    · simp [proceedRule, signalRule, advance, Stage.state]
    · simp [releaseRule, View.carry_append, advance, Stage.state]

theorem avoids_openingRules (passing : Passing stage) :
    ∀ rule ∈ schedule.openingRules, .goto stage.state ∉ rule.actions := by
  refine List.forall_mem_append.mpr
    ⟨List.forall_mem_map.mpr fun _ _ => ?_, List.forall_mem_map.mpr fun _ _ => ?_⟩ <;>
    rcases passing with rfl | rfl <;> simp [stopRule, waitRule, advance, Stage.state]

theorem avoids_restartRules (passing : Passing stage) (window : UInt8) :
    ∀ rule ∈ schedule.restartRules window ++ [RuleBook.startRule],
      .goto stage.state ∉ rule.actions := by
  rw [restartRules, forgetRules, List.append_assoc]
  refine List.forall_mem_append.mpr ⟨List.forall_mem_map.mpr fun _ _ => by simp, ?_⟩
  rcases passing with rfl | rfl <;>
    simp [RuleBook.startRule, advance, Stage.state, State.base]

/-- A turn does not end at a passing stage. -/
theorem state_turn_ne (passing : Passing stage) (elsewhere : view.state ≠ stage.state)
    (layout : Layout) : (view.tick.pass (schedule.build layout).rules).state ≠ stage.state := by
  rw [rules_build, laterRules, View.pass_append, View.pass_append]
  refine View.state_pass_ne ?_ (avoids_restartRules passing _)
  have opened : (view.tick.pass schedule.openingRules).state ≠ stage.state :=
    View.state_pass_ne (by rwa [View.state_tick]) (avoids_openingRules passing)
  generalize view.tick.pass schedule.openingRules = view at opened
  induction schedule.moves generalizing view with
  | nil => exact opened
  | cons move moves ih =>
      rw [List.flatMap_cons, View.pass_append]
      exact ih _ (state_moveRules_ne passing opened)

/-- Only the report of the motors leads to the request for proceed. -/
theorem exists_proceedRule {layout : Layout} (member : rule ∈ (schedule.build layout).rules)
    (enters : .goto Stage.requestGreen.state ∈ rule.actions) :
    ∃ move ∈ schedule.moves, rule = proceedRule move := by
  rw [rules_build, laterRules] at member
  rcases List.mem_append.mp member with opening | member
  · exact absurd enters (avoids_openingRules (.inl rfl) rule opening)
  · rcases List.mem_append.mp member with moving | restart
    · obtain ⟨move, listed, member⟩ := List.mem_flatMap.mp moving
      exact ⟨move, listed, eq_proceedRule member enters⟩
    · exact absurd enters (avoids_restartRules (.inl rfl) _ rule restart)

/-- The stages at which a train that is about to leave waits for its way out. -/
def Leaving (state : State) : Prop :=
  state ∈ [Stage.requestGreen.state, Stage.greenWait.state, Stage.startTrain.state]

instance : DecidablePred Leaving := fun _ => inferInstanceAs (Decidable (_ ∈ _))

/-- Whether the train may run, and on which move it is. -/
def reins (schedule : Schedule) : List Var := schedule.go :: schedule.moves.map Move.active

section Deeds

variable {yard : Yard} (listed : schedule.Listed yard)

theorem active_mem_reins (member : move ∈ schedule.moves) : move.active ∈ schedule.reins :=
  List.mem_cons_of_mem _ (List.mem_map_of_mem member)

/-- How a deed leads to a stage at which the train is about to leave. -/
theorem Deed.leaving (deed : schedule.Deed schedule.reins now next) (leaving : Leaving next.state) :
    (∀ move ∈ schedule.moves, next.bits move.active = now.bits move.active) ∧
      (next.state = Stage.requestGreen.state ∧ now.state = Stage.turnouts.state ∨
        next.state = Stage.greenWait.state ∧ Leaving now.state ∨
        next.state = Stage.startTrain.state ∧ Leaving now.state ∧
          ∃ move ∈ schedule.moves, now.bits move.active = true ∧
            now.bits move.source.routeOut = true) := by
  have same : next.Shows schedule.reins now.bits → ∀ move ∈ schedule.moves,
      next.bits move.active = now.bits move.active :=
    fun bits move member => bits _ (active_mem_reins member)
  cases deed with
  | set _ _ _ before after bits => exact ⟨same bits, .inl ⟨after, before⟩⟩
  | signal _ _ before after bits =>
      exact ⟨same bits, .inr (.inl ⟨after, by rw [before]; decide⟩)⟩
  | start member active reserved before after bits =>
      exact ⟨same bits, .inr (.inr ⟨after, by rw [before]; decide, _, member, active, reserved⟩)⟩
  | pick _ _ after | prepare _ _ _ _ after | ask _ _ _ _ after | permit _ _ _ _ _ after
  | confirm _ _ _ after | abandon _ _ _ _ after | command _ _ _ after | depart _ _ _ after
  | arrive _ _ _ after | leave _ _ _ after | finish _ _ _ after | forget _ after
  | recover _ after | restart _ after | wake _ after =>
      rw [after] at leaving
      exact absurd leaving (by decide)

include listed

theorem go_ne_active (member : move ∈ schedule.moves) : schedule.go ≠ move.active :=
  (listed.active_ne_go member).symm

theorem go_ne_request (member : move ∈ schedule.moves) {client : Client}
    (needs : move.client = some client) : schedule.go ≠ client.request := by
  intro same
  refine listed.own_notMem_common List.mem_cons_self
    (List.mem_append_right _ (listed.mem_common member needs ?_))
  rw [same]
  exact List.mem_cons_self

/-- A train that may run after a deed was released by it, or might run before and was not under way. -/
theorem Deed.go (deed : schedule.Deed schedule.reins now next)
    (runs : next.bits schedule.go = true) :
    now.bits schedule.go = true ∧ now.state ≠ Stage.moving.state ∨
      now.state = Stage.startTrain.state ∧ next.state = Stage.moving.state ∧
        ∀ move ∈ schedule.moves, next.bits move.active = now.bits move.active := by
  have rein : schedule.go ∈ schedule.reins := List.mem_cons_self
  cases deed with
  | depart member _ before after bits =>
      refine .inr ⟨before, after, fun move known => ?_⟩
      rw [bits _ (active_mem_reins known)]
      exact View.bits_carry (listed.active_notMem_release known member)
  | pick member before _ bits | finish member _ before _ bits =>
      rw [bits _ rein, Function.update_of_ne (go_ne_active listed member)] at runs
      exact .inl ⟨runs, by rw [before]; decide⟩
  | ask member needs _ before _ bits =>
      rw [bits _ rein, Function.update_of_ne (go_ne_request listed member needs)] at runs
      exact .inl ⟨runs, by rw [before]; decide⟩
  | abandon member needs _ before _ bits =>
      rw [bits _ rein, Function.update_of_ne (go_ne_active listed member),
        Function.update_of_ne (go_ne_request listed member needs)] at runs
      exact .inl ⟨runs, by rw [before]; decide⟩
  | prepare _ _ _ before _ bits | permit _ _ _ _ before _ bits | confirm _ _ before _ bits
  | command _ _ before _ bits | set _ _ _ before _ bits | signal _ _ before _ bits
  | start _ _ _ before _ bits | leave _ _ before _ bits | forget before _ bits
  | recover before _ bits | wake before _ bits =>
      rw [bits _ rein] at runs
      exact .inl ⟨runs, by rw [before]; decide⟩
  | arrive _ _ _ _ bits =>
      rw [bits _ rein, Function.update_self] at runs
      cases runs
  | restart before _ bits =>
      rw [bits _ rein] at runs
      refine .inl ⟨?_, by rw [before]; decide⟩
      by_contra stands
      rw [View.bits_carry_clear (by simpa using stands)] at runs
      cases runs

end Deeds

/-- The reports of the motors are in a memory of this size, and they show the positions that the
move needs. -/
def Reported (size : Nat) (bits : Var → Bool) (move : Move) : Prop :=
  ∀ entry ∈ move.turnouts, entry.1.current.index < size ∧ bits entry.1.current = entry.2.bit

/-- Why a move can be about to leave in a turn that began with `view`: it waited for its way out
before, or its turnouts are reported to be set. -/
def Warranted (size : Nat) (view : View) (move : Move) : Prop :=
  view.state = Stage.greenWait.state ∧ view.bits move.active = true ∨ Reported size view.bits move

/-- What can have come about in a turn that began with `view`. -/
structure Departs (schedule : Schedule) (size : Nat) (view next : View) : Prop where
  one : schedule.OneMove next
  same : ∀ var ∉ schedule.outputs, next.bits var = view.bits var
  warranted : Leaving next.state → ∀ move ∈ schedule.moves, next.bits move.active = true →
    Warranted size view move
  reserved : next.state = Stage.startTrain.state → ∀ move ∈ schedule.moves,
    next.bits move.active = true → view.bits move.source.routeOut = true
  released : next.bits schedule.go = true → view.bits schedule.go = false →
    next.state = Stage.moving.state ∧ ∀ move ∈ schedule.moves, next.bits move.active = true →
      Warranted size view move ∧ view.bits move.source.routeOut = true

namespace Departs

variable {yard : Yard} {size : Nat}

/-- A turn begins at a stage that lasts. -/
theorem begins (one : schedule.OneMove view)
    (lasting : ∀ stage, Passing stage → view.state ≠ stage.state) :
    schedule.Departs size view view.tick where
  one := one.stays (fun _ _ => by rw [View.bits_tick]) (by rw [View.state_tick]; exact em' _)
  same := fun _ _ => by rw [View.bits_tick]
  warranted := by
    intro leaving move _ active
    rw [View.bits_tick] at active
    simp only [Leaving, View.state_tick, List.mem_cons, List.not_mem_nil, or_false] at leaving
    rcases leaving with asks | waits | starts
    · exact absurd asks (lasting _ (.inl rfl))
    · exact .inl ⟨waits, active⟩
    · exact absurd starts (lasting _ (.inr rfl))
  reserved := fun starts => absurd (View.state_tick ▸ starts) (lasting _ (.inr rfl))
  released := by
    intro runs halted
    rw [View.bits_tick, halted] at runs
    cases runs

variable (departs : schedule.Departs size view now) (listed : schedule.Listed yard)
  (same : ∀ var ∉ schedule.outputs, next.bits var = now.bits var)

include departs listed same

theorem opening (opening : schedule.Opening schedule.reins now next) :
    schedule.Departs size view next where
  one := departs.one.opening listed (fun _ => active_mem_reins) opening
  same := fun var apart => (same var apart).trans (departs.same var apart)
  warranted := by
    intro leaving
    cases opening with
    | stop _ after | wait _ after =>
        rw [after] at leaving
        exact absurd leaving (by decide)
  reserved := by
    intro starts
    cases opening with
    | stop _ after | wait _ after =>
        rw [after] at starts
        exact absurd starts (by decide)
  released := by
    intro runs halted
    cases opening with
    | stop _ _ bits =>
        rw [bits _ List.mem_cons_self, Function.update_self] at runs
        cases runs
    | wait resting _ bits =>
        rw [bits _ List.mem_cons_self] at runs
        have moving := (departs.released runs halted).1
        rw [resting] at moving
        exact absurd moving (by decide)

/-- Whatever a later rule does, a move is about to leave only if its turnouts were reported to be
set, and the train is released only if its way out is reserved. -/
theorem deed (exits : ∀ move ∈ schedule.moves, move.source.routeOut ∉ schedule.outputs)
    (reports : ∀ move ∈ schedule.moves, ∀ entry ∈ move.turnouts,
      entry.1.current ∉ schedule.outputs)
    (set : now.state ≠ Stage.requestGreen.state → next.state = Stage.requestGreen.state →
      ∃ move ∈ schedule.moves, now.bits move.active = true ∧ Reported size now.bits move)
    (deed : schedule.Deed schedule.reins now next) : schedule.Departs size view next where
  one := departs.one.deed listed (fun _ => active_mem_reins) deed
  same := fun var apart => (same var apart).trans (departs.same var apart)
  warranted := by
    intro leaving move member active
    obtain ⟨actives, how⟩ := deed.leaving leaving
    rw [actives move member] at active
    rcases how with ⟨asks, setting⟩ | ⟨_, before⟩ | ⟨_, before, _⟩
    · obtain ⟨other, known, alsoActive, reported⟩ := set (by rw [setting]; decide) asks
      obtain rfl := departs.one.single move member other known active alsoActive
      refine .inr fun entry declared => ?_
      rw [← departs.same _ (reports move member entry declared)]
      exact reported entry declared
    · exact departs.warranted before move member active
    · exact departs.warranted before move member active
  reserved := by
    intro starts move member active
    obtain ⟨actives, how⟩ := deed.leaving (by rw [starts]; decide)
    rw [actives move member] at active
    rcases how with ⟨asks, _⟩ | ⟨waits, _⟩ | ⟨_, _, other, known, alsoActive, reserved⟩
    · exact absurd (starts.symm.trans asks) (by decide)
    · exact absurd (starts.symm.trans waits) (by decide)
    · obtain rfl := departs.one.single move member other known active alsoActive
      rw [← departs.same _ (exits move member), reserved]
  released := by
    intro runs halted
    rcases deed.go listed runs with ⟨ran, notMoving⟩ | ⟨before, after, actives⟩
    · exact absurd (departs.released ran halted).1 notMoving
    · refine ⟨after, fun move member active => ?_⟩
      rw [actives move member] at active
      exact ⟨departs.warranted (by rw [before]; decide) move member active,
        departs.reserved before move member active⟩

omit departs listed same in
/-- A rule that leads to the request for proceed has looked at the motors. -/
theorem reported_of_enabled {layout : Layout} (member : rule ∈ (schedule.build layout).rules)
    (enabled : now.Enables rule)
    (reads : ∀ {var value}, .bit var value ∈ rule.conditions → var.index < size)
    (notYet : now.state ≠ Stage.requestGreen.state)
    (asks : (now.carry rule.actions).state = Stage.requestGreen.state) :
    ∃ move ∈ schedule.moves, now.bits move.active = true ∧ Reported size now.bits move := by
  have enters : .goto Stage.requestGreen.state ∈ rule.actions := by
    by_contra avoids
    exact View.state_carry_ne notYet avoids asks
  obtain ⟨move, planned, rfl⟩ := exists_proceedRule member enters
  refine ⟨move, planned, (meets_during enabled).2.1, fun entry declared => ?_⟩
  have asked : .bit entry.1.current entry.2.bit ∈ (proceedRule move).conditions :=
    List.mem_append_right _ (List.mem_map.mpr
      ⟨(entry.1.current, entry.2.bit), List.mem_map.mpr ⟨entry, declared, rfl⟩, rfl⟩)
  exact ⟨reads asked, enabled _ asked⟩

omit departs same in
/-- A whole turn of the schedule. -/
theorem turn (commands : ∀ move ∈ schedule.moves, ∀ entry ∈ move.turnouts,
      entry.1.command ∉ schedule.reins)
    (exits : ∀ move ∈ schedule.moves, move.source.routeOut ∉ schedule.outputs)
    (reports : ∀ move ∈ schedule.moves, ∀ entry ∈ move.turnouts,
      entry.1.current ∉ schedule.outputs) {layout : Layout} {turn after : Turn}
    (one : schedule.OneMove turn.view)
    (lasting : ∀ stage, Passing stage → turn.view.state ≠ stage.state)
    (ran : (schedule.build layout).run turn = .ok after) :
    schedule.Departs turn.memory.bits.size turn.view after.view := by
  have own : schedule.reins ⊆ schedule.go :: schedule.marks :=
    List.cons_subset_cons _ (List.subset_append_left _ _)
  refine Automaton.run_induct ?_ (.begins one lasting) ran
  intro rule member now departs enabled reads
  have same : ∀ var ∉ schedule.outputs, (now.carry rule.actions).bits var = now.bits var :=
    fun var apart => View.bits_carry fun written =>
      apart (schedule.build_writesOnly layout rule member written)
  have set := reported_of_enabled member enabled reads
  rw [rules_build] at member
  rcases List.mem_append.mp member with member | member
  · exact departs.opening listed same (opening_of_mem member enabled)
  · exact departs.deed listed same exits reports set
      (deed_of_mem (listed.apart own commands) enabled member)

end Departs

end Schedule

/-- The motors report the positions that the move needs. -/
def Move.IsSet (move : Move) (machine : Machine) : Prop :=
  ∀ entry ∈ move.turnouts, machine.get entry.1.current = .ok entry.2.bit

instance (move : Move) : DecidablePred move.IsSet := fun _ => inferInstanceAs (Decidable (∀ _, _))

namespace Schedule

/-- The move is under way, and the schedule waits for its way out. -/
def AwaitsExit (schedule : Schedule) (move : Move) (machine : Machine) : Prop :=
  machine.get move.active = .ok true ∧
    machine.state? schedule.name = some Stage.greenWait.state

/-- In the course of the events there was a turn at this place in which the schedule began to wait
for the way out. At its end the motors reported that the turnouts of the move are set, and since
then the schedule has waited. -/
def HasSet (schedule : Schedule) (move : Move) (start : Machine) (index : Nat)
    (events : List Event) : Prop :=
  ∃ past before reached, past ++ [Event.turn index] <+: events ∧
    start.play past = .ok before ∧ ¬schedule.AwaitsExit move before ∧
    start.play (past ++ [Event.turn index]) = .ok reached ∧ move.IsSet reached ∧
    ∀ later machine, past ++ [Event.turn index] <+: later → later <+: events →
      start.play later = .ok machine → schedule.AwaitsExit move machine

/-- The schedule is in operation, and only it writes by which it knows on which move its train is.
None of these bits, nor the one that lets the train run, is the command of one of its turnouts,
and the motors report on variables that the schedule does not write. -/
@[mk_iff]
structure Steers (schedule : Schedule) (operation : Operation) : Prop where
  runs : .train schedule ∈ operation.sources
  commands : ∀ move ∈ schedule.moves, ∀ entry ∈ move.turnouts, entry.1.command ∉ schedule.reins
  reports : ∀ move ∈ schedule.moves, ∀ entry ∈ move.turnouts, entry.1.current ∉ schedule.outputs
  writes : ∀ move ∈ schedule.moves, ∀ value, .write move.active value ∉ operation.events
  others : ∀ automaton ∈ operation.program.automata, automaton.name ≠ schedule.name →
    ∀ rule ∈ automaton.rules, ∀ move ∈ schedule.moves, move.active ∉ rule.writes

instance (schedule : Schedule) : DecidablePred schedule.Steers :=
  fun _ => decidable_of_iff' _ (steers_iff ..)

variable {schedule : Schedule} {move : Move}

section Run

variable {start last : Machine} {index : Nat} {past : List Event} {event : Event}

/-- The schedule goes on waiting. -/
theorem HasSet.extend (hasSet : schedule.HasSet move start index past)
    (played : start.play (past ++ [event]) = .ok last) (awaits : schedule.AwaitsExit move last) :
    schedule.HasSet move start index (past ++ [event]) := by
  obtain ⟨early, before, reached, inside, led, busy, run, set, since⟩ := hasSet
  refine ⟨early, before, reached, inside.trans (List.prefix_append _ _), led, busy, run, set, ?_⟩
  intro later machine behind within ran
  rcases List.prefix_concat_iff.mp within with rfl | within
  · exact Except.ok.inj (played.symm.trans ran) ▸ awaits
  · exact since later machine behind within ran

/-- The schedule begins to wait. -/
theorem HasSet.begin {before : Machine} (led : start.play past = .ok before)
    (busy : ¬schedule.AwaitsExit move before)
    (played : start.play (past ++ [Event.turn index]) = .ok last) (set : move.IsSet last)
    (awaits : schedule.AwaitsExit move last) :
    schedule.HasSet move start index (past ++ [Event.turn index]) := by
  refine ⟨past, before, last, List.prefix_refl _, led, busy, played, set, ?_⟩
  intro later machine behind within ran
  obtain rfl := behind.eq_of_length_le within.length_le
  exact Except.ok.inj (played.symm.trans ran) ▸ awaits

end Run

/-- What is known of a schedule in operation after some events. -/
structure OnTrack (schedule : Schedule) (operation : Operation) (index : Nat) (events : List Event)
    (machine : Machine) (cell : Cell) : Prop where
  automata : machine.automata = operation.program.automata
  size : machine.memory.bits.size = operation.layout.table.span
  placed : machine.cells[index]? = some cell
  one : schedule.OneMove (cell.view machine.memory)
  lasting : ∀ stage, Passing stage → cell.state ≠ stage.state
  hasSet : cell.state = Stage.greenWait.state → ∀ move ∈ schedule.moves,
    machine.memory.value move.active = true →
    schedule.HasSet move (.powerOn operation.program operation.settings) index events

namespace Steers

variable {operation : Operation} (steers : schedule.Steers operation) {index : Nat}
  (placed : operation.program.automata[index]? = some (schedule.build operation.layout))
  {events past : List Event} {event : Event} {machine last : Machine} {cell : Cell} {changed : Bool}

include steers

theorem declared : schedule ∈ operation.yard.schedules := by
  have known : .train schedule ∈ operation.yard.sources := operation.declared steers.runs
  simpa [Yard.sources] using known

theorem listed : schedule.Listed operation.yard :=
  (Yard.performAll_distinct operation.config operation.orders).schedules schedule steers.declared

/-- The way out of a move is a passage of the layout. -/
theorem hasRoute (member : move ∈ schedule.moves) :
    operation.layout.HasRoute move.source.routeOut := by
  obtain ⟨block, known, shows⟩ := steers.listed.blocks _ (steers.listed.ends move member).1
  rw [shows.exit]
  exact (operation.sound.blocks block known).exit

theorem exit_notMem_outputs (member : move ∈ schedule.moves) :
    move.source.routeOut ∉ schedule.outputs := fun written =>
  (steers.hasRoute member).not_outside
    (operation.sound.schedules schedule steers.declared _ written)

theorem active_lt (member : move ∈ schedule.moves) :
    move.active.index < operation.layout.table.span :=
  steers.listed.below _ (List.mem_cons_of_mem _ (List.mem_append_right _ (List.mem_map_of_mem member)))

include placed

omit steers in
/-- The register of the schedule can be read under its name. -/
theorem state?_eq_some (automata : machine.automata = operation.program.automata)
    (found : machine.cells[index]? = some cell) :
    machine.state? schedule.name = some cell.state := by
  have names : (machine.automata.map (·.name)).Nodup := by
    rw [automata]
    exact Program.names_nodup operation.compiled
  have automaton := Machine.automata_getElem? found
  rw [automata, placed] at automaton
  have state := Machine.state?_eq names found
  rwa [← Option.some.inj automaton, name_build] at state

theorem awaits (automata : machine.automata = operation.program.automata)
    (size : machine.memory.bits.size = operation.layout.table.span)
    (found : machine.cells[index]? = some cell) (waits : cell.state = Stage.greenWait.state)
    (member : move ∈ schedule.moves) (active : machine.memory.value move.active = true) :
    schedule.AwaitsExit move machine := by
  refine ⟨Memory.read_eq_ok.mpr ⟨size ▸ steers.active_lt member, active⟩, ?_⟩
  rw [state?_eq_some placed automata found, waits]

omit steers in
theorem state_of_awaits (onTrack : schedule.OnTrack operation index past machine cell)
    (awaits : schedule.AwaitsExit move machine) :
    cell.state = Stage.greenWait.state ∧ machine.memory.value move.active = true := by
  have state := state?_eq_some placed onTrack.automata onTrack.placed
  exact ⟨Option.some.inj (state.symm.trans awaits.2), (Memory.read_eq_ok.mp awaits.1).2⟩

/-- An event that concerns neither the register of the schedule nor its moves. -/
theorem onTrack_frame (onTrack : schedule.OnTrack operation index past machine cell)
    (played : (Machine.powerOn operation.program operation.settings).play (past ++ [event]) =
      .ok last)
    (automata : last.automata = machine.automata)
    (size : last.memory.bits.size = machine.memory.bits.size)
    (found : last.cells[index]? = machine.cells[index]?)
    (actives : ∀ move ∈ schedule.moves,
      last.memory.value move.active = machine.memory.value move.active) :
    schedule.OnTrack operation index (past ++ [event]) last cell where
  automata := automata.trans onTrack.automata
  size := size.trans onTrack.size
  placed := found.trans onTrack.placed
  one := onTrack.one.stays actives (em' _)
  lasting := onTrack.lasting
  hasSet := by
    intro waits move member active
    have hasSet := onTrack.hasSet waits move member (actives move member ▸ active)
    exact hasSet.extend played (steers.awaits placed (automata.trans onTrack.automata)
      (size.trans onTrack.size) (found.trans onTrack.placed) waits member active)

/-- A turn of the schedule. -/
theorem departs_turn (onTrack : schedule.OnTrack operation index past machine cell)
    (evaluated : machine.evaluate index = .ok (last, changed)) :
    ∃ after, last.cells[index]? = some after ∧
      last.memory.bits.size = machine.memory.bits.size ∧
      (∀ stage, Passing stage → after.state ≠ stage.state) ∧
      schedule.Departs machine.memory.bits.size (cell.view machine.memory)
        (after.view last.memory) := by
  obtain ⟨known, turn, found, ran, rfl, -⟩ := Machine.evaluate_eq_ok evaluated
  obtain rfl := Option.some.inj (onTrack.placed.symm.trans found)
  have automaton := Machine.automata_getElem? found
  rw [onTrack.automata, placed] at automaton
  rw [← Option.some.inj automaton] at ran
  obtain ⟨view, size⟩ := Automaton.view_run ran
  refine ⟨{ cell with state := turn.state, timer := turn.timer },
    by simp [(Array.getElem?_eq_some_iff.mp found).1], size, ?_, ?_⟩
  · intro stage passing
    have state : turn.state = _ := congrArg View.state view
    rw [state]
    exact state_turn_ne passing (onTrack.lasting stage passing) operation.layout
  · refine Departs.turn steers.listed steers.commands (fun _ => steers.exit_notMem_outputs)
      steers.reports ?_ ?_ ran
    · exact onTrack.one
    · exact onTrack.lasting

omit placed in
/-- What the motors report is the same after the turn. -/
theorem isSet_of_reported {after : Cell} (size : last.memory.bits.size = machine.memory.bits.size)
    (departs : schedule.Departs machine.memory.bits.size (cell.view machine.memory)
      (after.view last.memory)) (member : move ∈ schedule.moves)
    (reported : Reported machine.memory.bits.size (cell.view machine.memory).bits move) :
    move.IsSet last := by
  intro entry declared
  obtain ⟨inside, value⟩ := reported entry declared
  have same := departs.same _ (steers.reports move member entry declared)
  exact Memory.read_eq_ok.mpr ⟨size ▸ inside, same.trans value⟩

/-- Every event keeps the schedule on its track. -/
theorem onTrack_react (inside : past ++ [event] <+: operation.events)
    (played : (Machine.powerOn operation.program operation.settings).play past = .ok machine)
    (onTrack : schedule.OnTrack operation index past machine cell)
    (reacted : machine.react event = .ok last) :
    ∃ cell, schedule.OnTrack operation index (past ++ [event]) last cell := by
  have run := Machine.play_concat_eq_ok.mpr ⟨_, played, reacted⟩
  have automata := Machine.automata_react reacted
  cases event with
  | write var value =>
      obtain ⟨memory, stored, rfl⟩ := Machine.set_eq_ok reacted
      obtain ⟨size, values⟩ := Memory.write_eq_ok stored
      refine ⟨cell, steers.onTrack_frame placed onTrack run automata size rfl ?_⟩
      intro move member
      have other : move.active ≠ var := by
        rintro rfl
        exact steers.writes move member value (inside.subset (by simp))
      rw [values, if_neg other]
  | turn place =>
      obtain ⟨changed, evaluated⟩ := Machine.react_turn_eq_ok reacted
      by_cases own : place = index
      · subst own
        obtain ⟨after, found, size, lasting, departs⟩ :=
          steers.departs_turn placed onTrack evaluated
        refine ⟨after, automata.trans onTrack.automata, size.trans onTrack.size, found,
          departs.one, lasting, ?_⟩
        intro waits move member active
        have awaits := steers.awaits placed (automata.trans onTrack.automata)
          (size.trans onTrack.size) found waits member active
        have leaving : Leaving after.state := by
          rw [waits]
          decide
        rcases departs.warranted leaving move member active with ⟨waited, wasActive⟩ | reported
        · exact (onTrack.hasSet waited move member wasActive).extend run awaits
        -- The motors may report so once more while the schedule is waiting already.
        by_cases busy : schedule.AwaitsExit move machine
        · obtain ⟨waited, wasActive⟩ := state_of_awaits placed onTrack busy
          exact (onTrack.hasSet waited move member wasActive).extend run awaits
        · exact .begin played busy run (steers.isSet_of_reported size departs member reported) awaits
      · obtain ⟨other, _, found, _, _, view, others, size⟩ := Machine.view_evaluate evaluated
        have stands := Machine.automata_getElem? found
        rw [onTrack.automata] at stands
        have named : other.automaton.name ≠ schedule.name := fun same =>
          own (Automaton.index_eq_of_name (Program.names_nodup operation.compiled) stands placed
            (same.trans (name_build schedule _).symm))
        refine ⟨cell, steers.onTrack_frame placed onTrack run automata size
          (others index (Ne.symm own)) ?_⟩
        intro move member
        calc last.memory.value move.active
          _ = ((other.view machine.memory).tick.pass other.automaton.rules).bits move.active :=
              congrFun (congrArg View.bits view) _
          _ = (other.view machine.memory).tick.bits move.active :=
              View.bits_pass fun rule written => steers.others other.automaton
                (List.mem_of_getElem? stands) named rule written move member
          _ = machine.memory.value move.active := by rw [View.bits_tick]; rfl

/-- A schedule in operation is on its track. -/
theorem onTrack : ∃ cell, schedule.OnTrack operation index operation.events operation.machine cell := by
  refine Machine.play_induct (motive := fun past machine =>
    ∃ cell, schedule.OnTrack operation index past machine cell) ?_ ?_ operation.played
  · have zero : ∀ var, (Machine.powerOn operation.program operation.settings).memory.value var =
        false := Memory.value_zeros _
    have initial : ∀ {stage : Stage}, State.initial ≠ stage.state := by
      intro stage
      cases stage <;> decide
    exact ⟨{ automaton := schedule.build operation.layout }, {
      automata := Machine.automata_powerOn ..
      size := operation.safe_powerOn.size
      placed := by simp [Machine.powerOn, placed]
      one := .none fun _ _ => zero _
      lasting := fun _ _ => initial
      hasSet := fun waits => absurd waits initial }⟩
  · rintro past event middle next inside played ⟨cell, onTrack⟩ reacted
    exact steers.onTrack_react placed inside played onTrack reacted

end Steers

end Schedule

section Loop

/-- Behind the block `s` the turnout `w` leads round a loop back into `s`, if it is thrown, and else
to the endpoint `e`. The train `u` is to go round the loop. -/
def loopOrders : List Order := [
  .external "c", .external "r", .movableTurnout "w" ⟨⟨0⟩, ⟨1⟩⟩, .endpoint "e", .block "s",
  .joinPairs [(⟨9⟩, ⟨0⟩), (⟨1⟩, ⟨3⟩), (⟨2⟩, ⟨4⟩)], .schedule "u",
  .move 0 0 0 [] none [(⟨⟨0⟩, ⟨1⟩⟩, .thrown)]]

/-- The block as the train sees it. -/
def loopBerth : Berth where
  block := "s"
  here := ⟨166⟩
  coming := ⟨167⟩
  detector := ⟨66⟩
  requestGreen := ⟨131⟩
  routeOut := ⟨152⟩

/-- Once round the loop. -/
def loopMove : Move where
  source := loopBerth
  target := loopBerth
  active := ⟨168⟩
  turnouts := [(⟨⟨0⟩, ⟨1⟩⟩, .thrown)]

/-- What the orders declare in the end. -/
def loopTrain : Schedule where
  name := "u"
  go := ⟨165⟩
  berths := [loopBerth]
  moves := [loopMove]

/-- So many cycles of the six automata. -/
def loopCycles (count : Nat) : List Event :=
  (List.replicate count ((List.range 6).map .turn)).flatten

/-- After four cycles the turnout is reported to be thrown, and the train waits for its way out.
Then somebody commands the turnout to close. In the third cycle after that, the train is next. -/
def loopOperation? : Option Operation :=
  Operation.start? { detector := { debounceCycles := 0 } } loopOrders [.train loopTrain] {}
    (.write ⟨166⟩ true :: loopCycles 4 ++ .write ⟨0⟩ false :: loopCycles 2 ++
      (List.range 5).map .turn)

theorem loopOperation_shows : ∃ operation ∈ loopOperation?,
    loopTrain.Steers operation ∧
    operation.program.automata[5]? = some (loopTrain.build operation.layout) ∧
    operation.machine.get loopTrain.go = .ok false ∧
    ∃ outcome ∈ (operation.machine.evaluate 5).toOption,
      outcome.1.get loopTrain.go = .ok true ∧ outcome.1.get loopMove.active = .ok true ∧
      ¬loopMove.IsSet outcome.1 := by
  decide +kernel

end Loop

/-- A turnout that somebody else may command need not be set any more when the train is
released. -/
theorem turnouts_may_move_before_departure :
    ¬∀ (operation : Operation) (schedule : Schedule), schedule.Steers operation →
      ∀ (index : Nat) (next : Machine) (changed : Bool),
      operation.program.automata[index]? = some (schedule.build operation.layout) →
      operation.machine.evaluate index = .ok (next, changed) →
      operation.machine.get schedule.go = .ok false → next.get schedule.go = .ok true →
      ∀ move ∈ schedule.moves, next.get move.active = .ok true →
        operation.machine.get move.source.routeOut = .ok true ∧ move.IsSet next := by
  intro set
  obtain ⟨operation, _, steers, placed, halted, ⟨next, changed⟩, evaluated, released, active,
    moved⟩ := loopOperation_shows
  exact moved (set operation loopTrain steers 5 next changed placed
    (Machine.mem_toOption_iff.mp evaluated) halted released loopMove List.mem_cons_self active).2

/-- A train is released only if its way out is reserved, and only if the motors report that its
turnouts are set, or reported so when the schedule began to wait for the way out. -/
theorem trains_leave_over_set_turnouts (operation : Operation) {schedule : Schedule}
    (steers : schedule.Steers operation) {index : Nat}
    (placed : operation.program.automata[index]? = some (schedule.build operation.layout))
    {next : Machine} {changed : Bool}
    (evaluated : operation.machine.evaluate index = .ok (next, changed))
    (halted : operation.machine.get schedule.go = .ok false)
    (released : next.get schedule.go = .ok true) {move : Move} (member : move ∈ schedule.moves)
    (active : next.get move.active = .ok true) :
    operation.machine.get move.source.routeOut = .ok true ∧
      next.get move.source.routeOut = .ok true ∧
      (move.IsSet next ∨ schedule.HasSet move (.powerOn operation.program operation.settings) index
        operation.events) := by
  obtain ⟨cell, onTrack⟩ := steers.onTrack placed
  obtain ⟨after, _, size, _, departs⟩ := steers.departs_turn placed onTrack evaluated
  obtain ⟨-, reasons⟩ :=
    departs.released (Memory.read_eq_ok.mp released).2 (Memory.read_eq_ok.mp halted).2
  obtain ⟨warranted, reserved⟩ := reasons move member (Memory.read_eq_ok.mp active).2
  have inside : move.source.routeOut.index < operation.machine.memory.bits.size := by
    rw [onTrack.size]
    exact (steers.hasRoute member).lt_span operation.sound.layout
  have same := departs.same _ (steers.exit_notMem_outputs member)
  refine ⟨Memory.read_eq_ok.mpr ⟨inside, reserved⟩,
    Memory.read_eq_ok.mpr ⟨size ▸ inside, same.trans reserved⟩, ?_⟩
  rcases warranted with ⟨waited, wasActive⟩ | reported
  · exact .inr (onTrack.hasSet waited move member wasActive)
  · exact .inl (steers.isSet_of_reported size departs member reported)

theorem trains_leave_over_set_turnouts_on_loop : ∃ operation ∈ loopOperation?,
    loopTrain.Steers operation ∧
    operation.program.automata[5]? = some (loopTrain.build operation.layout) ∧
    operation.machine.get loopTrain.go = .ok false ∧
    ∃ outcome, operation.machine.evaluate 5 = .ok outcome ∧
      outcome.1.get loopTrain.go = .ok true ∧ outcome.1.get loopMove.active = .ok true ∧
      operation.machine.get loopBerth.routeOut = .ok true ∧
      outcome.1.get loopBerth.routeOut = .ok true ∧
      loopTrain.HasSet loopMove (.powerOn operation.program operation.settings) 5
        operation.events := by
  obtain ⟨operation, started, steers, placed, halted, ⟨next, changed⟩, evaluated, released, active,
    moved⟩ := loopOperation_shows
  have run := Machine.mem_toOption_iff.mp evaluated
  obtain ⟨before, after, set⟩ := trains_leave_over_set_turnouts operation steers placed run
    halted released (List.mem_cons_self : loopMove ∈ loopTrain.moves) active
  exact ⟨operation, started, steers, placed, halted, _, run, released, active, before, after,
    set.resolve_left moved⟩

end Interlocking
