import Interlocking.Proofs.Custody
import Interlocking.Proofs.Recovery

/-!
# What a schedule does to its own bits

A schedule keeps bits of its own: whether the train may run, in which block it is, into which it
is being routed, and which move is under way. These marks are named here. Whatever rule is carried
out, what it makes of the register and of all marks is one of a few strokes. From these follows that
at most one move is under way, whatever the bits were at power-on. What a schedule does to the bits
of others is no part of a stroke.
-/

namespace Interlocking

open Function (update)

/-- A bit that a schedule keeps for itself. -/
inductive Mark where
  /-- The train may run. -/
  | go
  /-- The train is in the block. -/
  | here (berth : Berth)
  /-- The train is being routed into the block. -/
  | coming (berth : Berth)
  /-- The move is under way. -/
  | active (move : Move)
  deriving DecidableEq

namespace Schedule

/-- The variable of a mark. -/
def bit (schedule : Schedule) : Mark → Var
  | .go => schedule.go
  | .here berth => berth.here
  | .coming berth => berth.coming
  | .active move => move.active

/-- The marks of a schedule. -/
def entries (schedule : Schedule) : List Mark :=
  .go :: (schedule.berths.flatMap (fun berth => [Mark.here berth, .coming berth]) ++
    schedule.moves.map Mark.active)

/-- What the variables of the marks say. -/
def notes (schedule : Schedule) (view : View) (mark : Mark) : Bool := view.bits (schedule.bit mark)

/-- The marks of the schedule have these values. -/
def Reads (schedule : Schedule) (view : View) (notes : Mark → Bool) : Prop :=
  ∀ mark ∈ schedule.entries, view.bits (schedule.bit mark) = notes mark

variable {schedule : Schedule} {yard : Yard} {view next : View} {notes : Mark → Bool} {mark : Mark}
  {move : Move} {berth : Berth} {rule : Rule} {window : UInt8}

theorem own_eq (schedule : Schedule) : schedule.own = schedule.entries.map schedule.bit := by
  simp [own, entries, bit, List.map_flatMap, Function.comp_def]

@[simp] theorem go_mem_entries : .go ∈ schedule.entries := List.mem_cons_self

@[simp] theorem here_mem_entries : .here berth ∈ schedule.entries ↔ berth ∈ schedule.berths := by
  simp [entries]

@[simp] theorem coming_mem_entries :
    .coming berth ∈ schedule.entries ↔ berth ∈ schedule.berths := by
  simp [entries]

@[simp] theorem active_mem_entries : .active move ∈ schedule.entries ↔ move ∈ schedule.moves := by
  simp [entries]

theorem bit_mem_own (member : mark ∈ schedule.entries) : schedule.bit mark ∈ schedule.own := by
  rw [own_eq]
  exact List.mem_map_of_mem member

/-- No two marks share a variable. -/
theorem Listed.bit_inj (listed : schedule.Listed yard) {other : Mark}
    (member : mark ∈ schedule.entries) (known : other ∈ schedule.entries)
    (same : schedule.bit mark = schedule.bit other) : mark = other := by
  have nodup : (schedule.entries.map schedule.bit).Nodup :=
    own_eq schedule ▸ (List.nodup_append.mp listed.distinct).1
  exact List.inj_on_of_nodup_map nodup member known same

namespace Reads

theorem refl (schedule : Schedule) (view : View) : schedule.Reads view (schedule.notes view) :=
  fun _ _ => rfl

/-- A mark of the schedule is written. -/
theorem set (reads : schedule.Reads view notes) (listed : schedule.Listed yard) {other : Mark}
    (known : other ∈ schedule.entries) (value : Bool) :
    schedule.Reads (view.act (.set (schedule.bit other) value)) (update notes other value) := by
  intro mark member
  by_cases same : mark = other
  · simp [same]
  · have apart : schedule.bit mark ≠ schedule.bit other :=
      fun equal => same (listed.bit_inj member known equal)
    simpa [same, apart] using reads mark member

/-- Something else is written. -/
theorem foreign (reads : schedule.Reads view notes) {actions : List Action}
    (apart : ∀ var ∈ actions.filterMap Action.var?, var ∉ schedule.own) :
    schedule.Reads (view.carry actions) notes := by
  intro mark member
  rw [View.bits_carry fun written => apart _ written (bit_mem_own member)]
  exact reads mark member

/-- Marks of the schedule are cleared. -/
theorem clear (reads : schedule.Reads view notes) (listed : schedule.Listed yard)
    {cleared : List Mark} (known : cleared ⊆ schedule.entries) :
    schedule.Reads (view.carry (cleared.map fun mark => .clear (schedule.bit mark)))
      fun mark => decide (mark ∉ cleared) && notes mark := by
  induction cleared generalizing view notes with
  | nil => simpa using reads
  | cons other cleared ih =>
      obtain ⟨first, rest⟩ := List.cons_subset.mp known
      intro mark member
      rw [List.map_cons, View.carry_cons, ih (reads.set listed first false) rest mark member]
      by_cases same : mark = other <;> simp [same]

theorem advance (reads : schedule.Reads view notes) (stage : Stage) :
    schedule.Reads (view.act (Schedule.advance stage)) notes := reads

end Reads

/-- The steps of a move that write no mark. -/
def onward : List (Stage × Stage) := [
  (.ready, .turnouts), (.ready, .permission), (.permission, .recheck), (.recheck, .turnouts),
  (.turnouts, .turnouts), (.turnouts, .requestGreen), (.requestGreen, .greenWait),
  (.greenWait, .startTrain), (.stopTrain, .done)]

/-- What a rule of a schedule can make of its register and its marks. -/
inductive Stroke (schedule : Schedule) (view next : View) : Prop where
  /-- The move under way goes on. -/
  | proceed {move : Move} (first second : Stage) (step : (first, second) ∈ onward)
      (listed : move ∈ schedule.moves) (active : view.bits move.active = true)
      (before : view.state = first.state) (after : next.state = second.state)
      (reads : schedule.Reads next (schedule.notes view))
  /-- The train stays for good. -/
  | stay (resting : view.state = .base) (stays : next.state = Stage.stopTrain.state)
      (reads : schedule.Reads next (update (schedule.notes view) .go false))
  /-- A move is looked for. -/
  | wait (resting : view.state = .base) (waits : next.state = Stage.waiting.state)
      (reads : schedule.Reads next (schedule.notes view))
  /-- A move is picked. -/
  | pick {move : Move} (listed : move ∈ schedule.moves)
      (here : view.bits move.source.here = true) (before : view.state = Stage.waiting.state)
      (after : next.state = Stage.ready.state)
      (reads : schedule.Reads next
        (update (update (schedule.notes view) (.active move) true) (.coming move.target) true))
  /-- The move under way is dropped, or it has ended. -/
  | drop {move : Move} (listed : move ∈ schedule.moves) (active : view.bits move.active = true)
      (ends : view.state = Stage.recheck.state ∧ next.state = Stage.waiting.state ∨
        view.state = Stage.done.state ∧ next.state = .base)
      (reads : schedule.Reads next
        (update (update (schedule.notes view) (.coming move.target) false) (.active move) false))
  /-- The train is released. -/
  | depart {move : Move} (listed : move ∈ schedule.moves) (active : view.bits move.active = true)
      (before : view.state = Stage.startTrain.state) (after : next.state = Stage.moving.state)
      (reads : schedule.Reads next (update (update (update (schedule.notes view) .go true)
        (.here move.target) true) (.here move.source) false))
  /-- The train has reached its target. -/
  | arrive {move : Move} (listed : move ∈ schedule.moves) (active : view.bits move.active = true)
      (before : view.state = Stage.moving.state) (after : next.state = Stage.stopTrain.state)
      (reads : schedule.Reads next (update (schedule.notes view) .go false))
  /-- A restart forgets a train. -/
  | forget {berth : Berth} (known : berth ∈ schedule.berths)
      (sensitive : schedule.isSensitive berth = true)
      (before : view.state = Stage.recovering.state) (after : next.state = Stage.recovering.state)
      (reads : schedule.Reads next (update (schedule.notes view) (.here berth) false))
  /-- A restart ends. -/
  | recover (before : view.state = Stage.recovering.state) (expired : view.timer = 0)
      (after : next.state = .base)
      (reads : schedule.Reads next fun
        | .coming _ => false
        | mark => schedule.notes view mark)
  /-- A restart begins. -/
  | restart (before : view.state = .initial) (after : next.state = Stage.recovering.state)
      (reads : schedule.Reads next fun
        | .go | .active _ => false
        | mark => schedule.notes view mark)

section Rules

variable (listed : schedule.Listed yard)

include listed

theorem Listed.request_notMem_own (known : berth ∈ schedule.berths) :
    berth.requestGreen ∉ schedule.own := fun own =>
  listed.own_notMem_common own (List.mem_append_left _ (listed.request_mem known))

theorem Listed.client_notMem_own (member : move ∈ schedule.moves) {client : Client}
    (needs : move.client = some client) {var : Var} (owned : var ∈ client.vars) :
    var ∉ schedule.own := fun own =>
  listed.own_notMem_common own (List.mem_append_right _ (listed.mem_common member needs owned))

variable (spares : schedule.SparesOwn) (member : move ∈ schedule.moves)
  (enabled : view.Enables rule)

include member enabled

theorem stroke_of_permissionRules (known : rule ∈ permissionRules move move.client) :
    schedule.Stroke view (view.carry rule.actions) := by
  have reads := Reads.refl schedule view
  cases needs : move.client with
  | none =>
      rw [needs, permissionRules, List.mem_singleton] at known
      subst known
      obtain ⟨before, active⟩ := stage_of_during enabled
      exact .proceed .ready .turnouts (by decide) member active before rfl reads
  | some client =>
      have request : client.request ∉ schedule.own :=
        listed.client_notMem_own member needs (by simp [Client.vars])
      simp only [needs, permissionRules, List.mem_append, List.mem_cons, List.not_mem_nil, or_false,
        List.mem_map] at known
      rcases known with (rfl | rfl | rfl) | ⟨guard, _, rfl⟩
      · obtain ⟨before, active⟩ := stage_of_during enabled
        refine .proceed .ready .permission (by decide) member active before rfl (reads.foreign ?_)
        simpa [Action.var?, advance] using request
      · obtain ⟨before, active, -⟩ := meets_during enabled
        exact .proceed .permission .recheck (by decide) member active before rfl reads
      · obtain ⟨before, active, -⟩ := meets_during enabled
        exact .proceed .recheck .turnouts (by decide) member active before rfl reads
      · obtain ⟨before, active, -⟩ := meets_during enabled
        refine .drop member active (.inl ⟨before, rfl⟩) ?_
        have dropped : schedule.Reads (view.carry [.clear client.request]) (schedule.notes view) :=
          reads.foreign (by simpa [Action.var?] using request)
        exact (dropped.set listed (coming_mem_entries.mpr (listed.ends move member).2) false).set
          listed (active_mem_entries.mpr member) false

include spares in
omit listed in
theorem stroke_of_turnoutRules (known : rule ∈ turnoutRules move) :
    schedule.Stroke view (view.carry rule.actions) := by
  have reads := Reads.refl schedule view
  have proceeds : rule = ⟨during move .turnouts ++ holding (move.turnouts.map
      fun turnout => (turnout.1.current, turnout.2.bit)), [advance .requestGreen]⟩ →
      schedule.Stroke view (view.carry rule.actions) := by
    rintro rfl
    obtain ⟨before, active, -⟩ := meets_during enabled
    exact .proceed .turnouts .requestGreen (by decide) member active before rfl reads
  unfold turnoutRules at known
  split at known
  · exact proceeds (List.mem_singleton.mp known)
  · rcases List.mem_cons.mp known with rfl | known
    · obtain ⟨before, active⟩ := stage_of_during enabled
      refine .proceed .turnouts .turnouts (by decide) member active before ?_ (reads.foreign ?_)
      · rw [View.state_carry, before]
        exact List.forall_mem_map.mpr fun entry _ => ⟨_, _, rfl⟩
      · rw [List.filterMap_map]
        intro var written
        obtain ⟨entry, declared, same⟩ := List.mem_filterMap.mp written
        obtain rfl := Option.some.inj same
        exact spares move member entry declared
    · exact proceeds (List.mem_singleton.mp known)

theorem stroke_of_travelRules (known : rule ∈ schedule.travelRules move) :
    schedule.Stroke view (view.carry rule.actions) := by
  have reads := Reads.refl schedule view
  obtain ⟨source, target⟩ := listed.ends move member
  have request := listed.request_notMem_own source
  simp only [travelRules, List.mem_cons, List.not_mem_nil, or_false] at known
  rcases known with rfl | rfl | rfl | rfl | rfl | rfl
  · obtain ⟨before, active⟩ := stage_of_during enabled
    refine .proceed .requestGreen .greenWait (by decide) member active before rfl (reads.foreign ?_)
    simpa [Action.var?, advance] using request
  · obtain ⟨before, active, -⟩ := meets_during enabled
    exact .proceed .greenWait .startTrain (by decide) member active before rfl reads
  · obtain ⟨before, active⟩ := stage_of_during enabled
    refine .depart member active before (by simp [View.carry_append, advance]) ?_
    rw [View.carry_append, View.carry_append]
    -- Behind the marks come bits of the client, and those are nobody's marks.
    refine Reads.advance (Reads.foreign (((reads.set listed go_mem_entries true).set listed
      (here_mem_entries.mpr target) true).set listed (here_mem_entries.mpr source) false) ?_) _
    cases needs : move.client with
    | none => simp [permissionUsed]
    | some client =>
        have foreign : ∀ var ∈ client.vars, var ∉ schedule.own :=
          fun var => listed.client_notMem_own member needs
        simp only [Client.vars, List.forall_mem_cons] at foreign
        simp [permissionUsed, Action.var?, foreign]
  · obtain ⟨before, active, -⟩ := meets_during enabled
    exact .arrive member active before rfl (reads.set listed go_mem_entries false)
  · obtain ⟨before, active, -⟩ := meets_during enabled
    refine .proceed .stopTrain .done (by decide) member active before rfl (reads.foreign ?_)
    simpa [Action.var?, advance] using request
  · obtain ⟨before, active⟩ := stage_of_during enabled
    refine .drop member active (.inr ⟨before, rfl⟩) ?_
    -- A move that has ended clears its marks in the other order.
    rw [Function.update_comm (by simp)]
    exact (reads.set listed (active_mem_entries.mpr member) false).set listed
      (coming_mem_entries.mpr target) false

include spares in
theorem stroke_of_moveRules (known : rule ∈ schedule.moveRules move) :
    schedule.Stroke view (view.carry rule.actions) := by
  rcases List.mem_cons.mp known with rfl | known
  · have reads := Reads.refl schedule view
    have here := enabled (.on move.source.here) (by simp [pickRule])
    have before := enabled (.inState Stage.waiting.state) (by simp [pickRule])
    exact .pick member here before rfl ((reads.set listed (active_mem_entries.mpr member) true).set
      listed (coming_mem_entries.mpr (listed.ends move member).2) true)
  · rcases List.mem_append.mp known with known | known
    · rcases List.mem_append.mp known with known | known
      · exact stroke_of_permissionRules listed member enabled known
      · exact stroke_of_turnoutRules spares member enabled known
    · exact stroke_of_travelRules listed member enabled known

omit member in
theorem stroke_of_openingRules (known : rule ∈ schedule.openingRules) :
    schedule.Stroke view (view.carry rule.actions) := by
  have reads := Reads.refl schedule view
  rcases List.mem_append.mp known with known | known
  · obtain ⟨stop, _, rfl⟩ := List.mem_map.mp known
    exact .stay (enabled (.inState .base) (by simp [stopRule])) rfl
      (reads.set listed go_mem_entries false)
  · obtain ⟨source, _, rfl⟩ := List.mem_map.mp known
    exact .wait (enabled (.inState .base) (by simp [waitRule])) rfl reads

omit member in
theorem stroke_of_restartRules (known : rule ∈ schedule.restartRules window) :
    schedule.Stroke view (view.carry rule.actions) := by
  have reads := Reads.refl schedule view
  rcases List.mem_append.mp known with known | known
  · obtain ⟨berth, found, rfl⟩ := List.mem_map.mp known
    obtain ⟨found, sensitive⟩ := List.mem_filter.mp found
    have before := enabled (.inState Stage.recovering.state) (by simp)
    exact .forget found sensitive before before
      (reads.set listed (here_mem_entries.mpr found) false)
  · simp only [List.mem_cons, List.not_mem_nil, or_false] at known
    rcases known with rfl | rfl
    · refine .recover (enabled (.inState Stage.recovering.state) (by simp))
        (enabled .timerExpired (by simp)) (by simp [View.carry_append]) ?_
      have inside : schedule.berths.map .coming ⊆ schedule.entries :=
        List.forall_mem_map.mpr fun _ => coming_mem_entries.mpr
      have cleared := reads.clear listed inside
      rw [List.map_map] at cleared
      intro mark member
      rw [View.carry_append]
      refine (cleared mark member).trans ?_
      cases mark with
      | coming berth => simp [coming_mem_entries.mp member]
      | go | here | active => simp
    · refine .restart (enabled (.inState .initial) (by simp))
        (by simp [View.carry_append, advance]) ?_
      have inside : .go :: schedule.moves.map .active ⊆ schedule.entries :=
        List.cons_subset.mpr ⟨go_mem_entries,
          List.forall_mem_map.mpr fun _ => active_mem_entries.mpr⟩
      have cleared := reads.clear listed inside
      rw [List.map_cons, List.map_map] at cleared
      intro mark member
      rw [View.carry_cons, View.carry_append]
      refine (cleared mark member).trans ?_
      cases mark with
      | active move => simp [active_mem_entries.mp member]
      | go | here | coming => simp

end Rules

/-- The register has left its power-on state. -/
def Started (state : State) : Prop := state = .base ∨ ∃ stage : Stage, state = stage.state

/-- The bit of the move under way is 1 and no other, and the register is at a stage of it. Without
a move the schedule is idle, or its train stays for good. -/
structure OnMove (schedule : Schedule) (current : Option Move) (view : View) : Prop where
  started : Started view.state
  listed : ∀ move ∈ current, move ∈ schedule.moves
  active : ∀ move ∈ schedule.moves, view.bits move.active = decide (current = some move)
  idle : Idle view.state → current = none
  busy : current = none → Idle view.state ∨ view.state = Stage.stopTrain.state

namespace Stroke

/-- The register is never set back to its power-on state. -/
theorem started (stroke : schedule.Stroke view next) : Started next.state := by
  cases stroke with
  | proceed _ second _ _ _ _ after => exact .inr ⟨second, after⟩
  | stay _ after | wait _ after | forget _ _ _ after | restart _ after => exact .inr ⟨_, after⟩
  | pick _ _ _ after | depart _ _ _ after | arrive _ _ _ after => exact .inr ⟨_, after⟩
  | drop _ _ ends => exact ends.elim (fun waits => .inr ⟨_, waits.2⟩) fun rests => .inl rests.2
  | recover _ _ after => exact .inl after

end Stroke

namespace OnMove

variable {current after : Option Move}

theorem eq_some (onMove : schedule.OnMove current view) (member : move ∈ schedule.moves)
    (active : view.bits move.active = true) : current = some move := by
  simpa [active] using onMove.active move member

/-- The bits tell the move. -/
theorem unique (onMove : schedule.OnMove current view) (later : schedule.OnMove after next)
    (same : ∀ move ∈ schedule.moves, next.bits move.active = view.bits move.active) :
    after = current := by
  have tells : ∀ move, after = some move ↔ current = some move := by
    intro move
    constructor
    · intro known
      have member := later.listed move known
      exact onMove.eq_some member (by simp [← same move member, later.active move member, known])
    · intro known
      have member := onMove.listed move known
      exact later.eq_some member (by simp [same move member, onMove.active move member, known])
  exact Option.ext tells

theorem none (inactive : ∀ move ∈ schedule.moves, view.bits move.active = false)
    (started : Started view.state)
    (rests : Idle view.state ∨ view.state = Stage.stopTrain.state) :
    schedule.OnMove none view where
  started := started
  listed := by simp
  active := by simpa using inactive
  idle := fun _ => rfl
  busy := fun _ => rests

theorem congr (onMove : schedule.OnMove current view) (state : next.state = view.state)
    (same : ∀ move ∈ schedule.moves, next.bits move.active = view.bits move.active) :
    schedule.OnMove current next where
  started := state ▸ onMove.started
  listed := onMove.listed
  active := fun move member => (same move member).trans (onMove.active move member)
  idle := state ▸ onMove.idle
  busy := state ▸ onMove.busy

/-- The same move goes on. -/
theorem stays (onMove : schedule.OnMove (some move) view)
    (same : ∀ move ∈ schedule.moves, next.bits move.active = view.bits move.active)
    (started : Started next.state) (busy : ¬Idle next.state) :
    schedule.OnMove (some move) next where
  started := started
  listed := onMove.listed
  active := fun move member => (same move member).trans (onMove.active move member)
  idle := fun idle => absurd idle busy
  busy := by simp

end OnMove

theorem onward_busy : ∀ step ∈ onward, ¬Idle step.2.state ∧
    (step.1.state ≠ Stage.moving.state ∧ step.2.state ≠ Stage.moving.state) ∧
    step.1.state ≠ Stage.recovering.state := by
  decide

/-- Whatever the schedule does, at most one move is under way. -/
theorem Stroke.onMove {current : Option Move} (stroke : schedule.Stroke view next)
    (onMove : schedule.OnMove current view) : ∃ after, schedule.OnMove after next := by
  have started := stroke.started
  have inactive : Idle view.state → ∀ move ∈ schedule.moves, view.bits move.active = false := by
    intro idle move member
    simp [onMove.active move member, onMove.idle idle]
  -- Of all strokes three write bits of moves.
  cases stroke with
  | proceed first second step member active _ after reads =>
      obtain rfl := onMove.eq_some member active
      refine ⟨_, onMove.stays (fun _ known => reads _ (active_mem_entries.mpr known)) started ?_⟩
      rw [after]
      exact (onward_busy _ step).1
  | depart member active _ after reads | arrive member active _ after reads =>
      obtain rfl := onMove.eq_some member active
      refine ⟨_, onMove.stays (fun _ known => reads _ (active_mem_entries.mpr known)) started ?_⟩
      rw [after]
      decide
  | stay before after reads =>
      refine ⟨_, .none (fun move member => ?_) started (.inr after)⟩
      rw [← inactive (by simp [Idle, before]) move member]
      exact reads _ (active_mem_entries.mpr member)
  | wait before after reads | forget _ _ before after reads | recover before _ after reads =>
      refine ⟨_, .none (fun move member => ?_) started (.inl (by simp [Idle, after]))⟩
      rw [← inactive (by simp [Idle, before]) move member]
      exact reads _ (active_mem_entries.mpr member)
  | @pick picked member _ before after reads =>
      refine ⟨some picked, started, by simpa using member, fun move known => ?_, ?_, by simp⟩
      · have value := reads _ (active_mem_entries.mpr known)
        have others := inactive (by simp [Idle, before]) move known
        simpa [Function.update_apply, bit, notes, others, eq_comm] using value
      · rw [after]
        exact fun idle => absurd idle (by decide)
  | @drop dropped member active ends reads =>
      obtain rfl := onMove.eq_some member active
      refine ⟨_, .none (fun move known => ?_) started (.inl ?_)⟩
      · have value := reads _ (active_mem_entries.mpr known)
        have others := onMove.active move known
        by_cases same : move = dropped
        · simpa [same, bit] using value
        · simpa [same, Ne.symm same, bit, notes, others] using value
      · rcases ends with ⟨-, after⟩ | ⟨-, after⟩ <;> simp [Idle, after]
  | restart _ after reads =>
      exact ⟨_, .none (fun _ member => reads _ (active_mem_entries.mpr member)) started
        (.inl (by simp [Idle, after]))⟩

/-- In its power-on state a schedule can do nothing but begin a restart. -/
theorem Stroke.of_initial (stroke : schedule.Stroke view next) (initial : view.state = .initial) :
    next.state = Stage.recovering.state ∧ schedule.Reads next fun
      | .go | .active _ => false
      | mark => schedule.notes view mark := by
  cases stroke with
  | restart _ after reads => exact ⟨after, reads⟩
  | proceed first _ _ _ _ before =>
      cases first <;> simp [initial, State.initial, Stage.state] at before
  | stay before | wait before | pick _ _ before | depart _ _ before | arrive _ _ before
  | forget _ _ before | recover before =>
      simp [initial, State.initial, State.base, Stage.state] at before
  | drop _ _ ends => simp [initial, State.initial, Stage.state] at ends

/-- All rules but the last one, for which a restart leaves nothing to do. -/
def workingRules (schedule : Schedule) (window : UInt8) : List Rule :=
  schedule.openingRules ++ schedule.moves.flatMap schedule.moveRules ++ schedule.restartRules window

theorem state_workingRules_ne_initial (schedule : Schedule) (window : UInt8) (view : View) :
    (view.pass (schedule.workingRules window)).state ≠ .initial := by
  rw [workingRules, restartRules, ← List.append_assoc, List.append_cons, View.pass_append]
  generalize view.pass _ = reached
  rw [View.pass_cons, View.fire]
  split
  · simp [View.pass, View.carry_append, advance, Stage.state, State.initial]
  · rename_i disabled
    intro initial
    exact disabled (by simpa [View.Enables, View.Meets, View.pass] using initial)

/-- The last rule never finds the register in its power-on state. -/
theorem pass_build (schedule : Schedule) (layout : Layout) (view : View) :
    view.pass (schedule.build layout).rules =
      view.pass (schedule.workingRules (recoveryWindow layout)) := by
  have split : (schedule.build layout).rules =
      schedule.workingRules (recoveryWindow layout) ++ [RuleBook.startRule] := by
    simp [rules_build, laterRules, workingRules]
  rw [split, View.pass_append, View.pass_cons, View.fire, if_neg]
  · rfl
  · intro enabled
    exact schedule.state_workingRules_ne_initial _ view
      (enabled (.inState .initial) (by simp [RuleBook.startRule]))

theorem timer_workingRules (known : rule ∈ schedule.workingRules window) (view : View) :
    (view.carry rule.actions).timer = view.timer ∨
      (view.carry rule.actions).state = Stage.recovering.state := by
  have calm : rule ∈ schedule.calmRules → (view.carry rule.actions).timer = view.timer :=
    fun member => (carry_calm (calm_calmRules rule member)).1
  rw [workingRules, restartRules, ← List.append_assoc] at known
  rcases List.mem_append.mp known with known | known
  · exact .inl (calm known)
  · simp only [List.mem_cons, List.not_mem_nil, or_false] at known
    rcases known with rfl | rfl
    · exact .inl (carry_calm (List.forall_mem_append.mpr
        ⟨List.forall_mem_map.mpr fun _ _ => calm_set .., by simp⟩)).1
    · exact .inr (by simp [View.carry_append, advance])

section Turn

variable (listed : schedule.Listed yard) (spares : schedule.SparesOwn)

include listed spares

theorem stroke_of_mem (known : rule ∈ schedule.workingRules window) (enabled : view.Enables rule) :
    schedule.Stroke view (view.carry rule.actions) := by
  rcases List.mem_append.mp known with known | known
  · rcases List.mem_append.mp known with known | known
    · exact stroke_of_openingRules listed enabled known
    · obtain ⟨move, member, known⟩ := List.mem_flatMap.mp known
      exact stroke_of_moveRules listed spares member enabled known
  · exact stroke_of_restartRules listed enabled known

/-- What all maintain that a schedule can do is maintained in a turn. -/
theorem turn_induct {motive : View → Prop} (layout : Layout)
    (each : ∀ {view next}, motive view → schedule.Stroke view next →
      (next.timer = view.timer ∨ next.state = Stage.recovering.state) → motive next)
    (begins : motive view) : motive (view.pass (schedule.build layout).rules) := by
  rw [pass_build]
  refine View.pass_induct ?_ begins
  intro rule member view holds enabled
  exact each holds (stroke_of_mem listed spares member enabled) (timer_workingRules member view)

end Turn

end Schedule

end Interlocking
