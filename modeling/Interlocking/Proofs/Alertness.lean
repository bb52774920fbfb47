import Interlocking.Proofs.Operation
import Interlocking.Proofs.Rest

/-!
# Turns that report no change

A rule that belongs to a duty changes one of the bits that it looks at whenever it fires. So
a cycle that reports no change is one in which no piece has anything to do.
-/

namespace Interlocking

/-- The rule looks at bits only, and it changes one of them when it fires. -/
structure Rule.Alert (rule : Rule) : Prop where
  plain : ∀ condition ∈ rule.conditions, condition.var?.isSome
  changes : ∃ var value, .bit var value ∈ rule.conditions ∧ .set var (!value) ∈ rule.actions

section Traces

variable {turn after : Turn}

/-- What takes no note of a change did not change anything, and neither did its parts. -/
theorem foldlM_unchanged {α : Type} {act : Turn → α → Except Failure Turn}
    {motive : Memory → α → Prop}
    (each : ∀ {turn after item}, act turn item = .ok after → after.changed = false →
      turn.changed = false ∧ after.memory = turn.memory ∧ motive turn.memory item)
    {items : List α} (done : items.foldlM act turn = .ok after) (unchanged : after.changed = false) :
    turn.changed = false ∧ after.memory = turn.memory ∧ ∀ item ∈ items, motive turn.memory item := by
  induction items generalizing turn with
  | nil =>
      obtain rfl := Except.ok.inj done
      exact ⟨unchanged, rfl, by simp⟩
  | cons item items ih =>
      obtain ⟨next, first, done⟩ := foldlM_cons_eq_ok.mp done
      obtain ⟨calm, kept, rest⟩ := ih done
      obtain ⟨begun, same, first⟩ := each first calm
      rw [same] at kept rest
      exact ⟨begun, kept, List.forall_mem_cons.mpr ⟨first, rest⟩⟩

theorem Action.perform_unchanged {action : Action} (done : action.perform turn = .ok after)
    (unchanged : after.changed = false) :
    turn.changed = false ∧ after.memory = turn.memory ∧
      ∀ var value, action = .set var value → turn.memory.value var = value := by
  cases perform_eq_ok.mp done with
  | keep read =>
      refine ⟨unchanged, rfl, ?_⟩
      intro other written equal
      obtain ⟨rfl, rfl⟩ := Action.set.inj equal
      exact (Memory.read_eq_ok.mp read).2
  | store | leave => cases unchanged
  | stay | load => exact ⟨unchanged, rfl, by simp⟩

namespace Layout

variable {layout : Layout}

theorem not_sees_of_misses {panel : Panel} {rule : Rule}
    (plain : ∀ condition ∈ rule.conditions, condition.var?.isSome)
    (missed : ∃ condition ∈ rule.conditions, layout.Misses panel condition) :
    ¬∀ condition ∈ rule.conditions, layout.Sees panel condition := by
  obtain ⟨condition, member, misses⟩ := missed
  intro sees
  have plain := plain condition member
  have holds := sees condition member
  cases condition with
  | bit var value =>
      simp only [Misses] at misses
      simp [Sees, misses] at holds
  | inState | notInState | timerExpired => cases plain

/-- An alert rule that has not changed anything does not fire. -/
theorem run_unchanged (layout : Layout) {rule : Rule} (done : rule.run turn = .ok after)
    (unchanged : after.changed = false) :
    turn.changed = false ∧ after.memory = turn.memory ∧
      (rule.Alert → ¬∀ condition ∈ rule.conditions,
        layout.Sees (layout.panel turn.memory) condition) := by
  rcases Rule.run_eq_ok.mp done with ⟨-, acted⟩ | ⟨asked, rfl⟩
  · obtain ⟨begun, same, written⟩ :=
      foldlM_unchanged (motive := fun memory action =>
        ∀ var value, action = .set var value → memory.value var = value)
        Action.perform_unchanged acted unchanged
    refine ⟨begun, same, ?_⟩
    intro alert sees
    obtain ⟨var, value, required, set⟩ := alert.changes
    have before := sees _ required
    simp [Sees, panel_role, written _ set var (!value) rfl] at before
  · refine ⟨unchanged, rfl, fun alert => ?_⟩
    exact not_sees_of_misses alert.plain (layout.enabled_outcome asked)

end Layout

end Traces

section Machines

variable {machine next : Machine}

/-- No alert rule of the automaton fires. -/
def Automaton.Idle (automaton : Automaton) (layout : Layout) (memory : Memory) : Prop :=
  ∀ rule ∈ automaton.rules, rule.Alert →
    ¬∀ condition ∈ rule.conditions, layout.Sees (layout.panel memory) condition

theorem Machine.evaluate_unchanged (layout : Layout) {index : Nat}
    (evaluated : machine.evaluate index = .ok (next, false)) :
    next.memory = machine.memory ∧ next.automata = machine.automata ∧
      ∀ automaton, machine.automata[index]? = some automaton →
        automaton.Idle layout machine.memory := by
  have automata := Machine.automata_react (Machine.react_turn evaluated)
  obtain ⟨cell, turn, found, run, rfl, unchanged⟩ := Machine.evaluate_eq_ok evaluated
  obtain ⟨_, same, idle⟩ := foldlM_unchanged
    (motive := fun memory rule => rule.Alert →
      ¬∀ condition ∈ rule.conditions, layout.Sees (layout.panel memory) condition)
    layout.run_unchanged run unchanged.symm
  rw [Turn.memory_tick] at same idle
  refine ⟨same, automata, ?_⟩
  intro automaton placed
  rw [Machine.automata, List.getElem?_map, Array.getElem?_toList, found] at placed
  obtain rfl := Option.some.inj placed
  exact idle

theorem Machine.evaluateAll_unchanged (layout : Layout) {indices : List Nat}
    (evaluated : machine.evaluateAll indices = .ok (next, false)) :
    next.memory = machine.memory ∧
      ∀ index ∈ indices, ∀ automaton, machine.automata[index]? = some automaton →
        automaton.Idle layout machine.memory := by
  induction indices generalizing machine with
  | nil =>
      obtain ⟨rfl, _⟩ := Prod.mk.inj (Except.ok.inj evaluated)
      simp
  | cons index indices ih =>
      obtain ⟨middle, early, late, first, rest, told⟩ :=
        Machine.evaluateAll_cons_eq_ok.mp evaluated
      obtain ⟨rfl, rfl⟩ := Bool.or_eq_false_iff.mp told.symm
      obtain ⟨memory, automata, idle⟩ := Machine.evaluate_unchanged layout first
      obtain ⟨same, idles⟩ := ih rest
      rw [memory, automata] at idles
      exact ⟨same.trans memory, List.forall_mem_cons.mpr ⟨idle, idles⟩⟩

/-- After a cycle that changes nothing, all automata are idle. -/
theorem Machine.idle_of_step (layout : Layout) (stepped : machine.step = .ok (next, false)) :
    ∀ automaton ∈ machine.automata, automaton.Idle layout machine.memory := by
  obtain ⟨last, evaluated, -⟩ := Machine.step_eq_ok.mp stepped
  intro automaton member
  obtain ⟨index, placed⟩ := List.mem_iff_getElem?.mp member
  have inside : index < machine.cells.size := by
    simpa [Machine.automata] using (List.getElem?_eq_some_iff.mp placed).1
  exact (Machine.evaluateAll_unchanged layout evaluated).2 index (Machine.mem_order.mpr inside)
    automaton placed

end Machines

namespace Layout

section Alertness

theorem Replies.alert {inlet : Handshake} {rules : List Rule} (replies : Replies inlet rules) :
    ∀ rule ∈ rules, rule.Alert := by
  intro rule member
  obtain ⟨reasons, conditions, plain, actions⟩ := replies rule member
  constructor
  · rw [conditions]
    exact List.forall_mem_append.mpr ⟨by simp [Condition.var?], plain⟩
  · rcases actions with granted | denied
    · exact ⟨inlet.granted, false, by simp [conditions], by simp [granted]⟩
    · exact ⟨inlet.denied, false, by simp [conditions], by simp [denied]⟩

theorem answerResetRules_alert (inlet : Handshake) :
    ∀ rule ∈ answerResetRules inlet, rule.Alert := by
  simp only [answerResetRules, List.forall_mem_cons]
  refine ⟨?_, ?_, ?_, by simp⟩
  · exact ⟨by simp [Condition.var?], inlet.granted, true, by simp, by simp⟩
  · exact ⟨by simp [Condition.var?], inlet.granted, true, by simp, by simp⟩
  · exact ⟨by simp [Condition.var?], inlet.denied, true, by simp, by simp⟩

theorem releaseDoneRules_alert (outlet : Option Outlet) :
    ∀ rule ∈ releaseDoneRules outlet, rule.Alert := by
  cases outlet with
  | none => simp [releaseDoneRules]
  | some outlet =>
      refine List.forall_mem_singleton.mpr ⟨by simp [Condition.var?], outlet.bits.released, true, ?_⟩
      exact ⟨by simp, by simp⟩

end Alertness

/-- The rules by which a passage gets reserved. They begin when it is allowed, and they tell
whoever has asked what has come of it. -/
def bidRules (passage : Passage) (allowed : List Condition) (grant deny : List Action) :
    Option Outlet → List Rule
  | none => [{ conditions := allowed, actions := [.raise passage.route] ++ grant }]
  | some { bits := out, .. } => [
      { conditions := allowed ++ [.off out.request, .off out.granted, .off out.denied]
        actions := [.raise passage.pending, .raise out.request] },
      { conditions := [.on passage.pending, .on out.request, .on out.granted]
        actions := [.raise passage.route, .clear passage.pending] ++ grant },
      { conditions := [.on passage.pending, .on out.request, .on out.denied]
        actions := [.clear passage.pending, .clear out.request] ++ deny }]

theorem acceptRules_eq (site : Site) (index : Nat) (passage : Passage) (inlet : Handshake)
    (outlet : Option Outlet) : site.acceptRules index passage inlet outlet =
      bidRules passage (site.acceptable index passage inlet) [.raise inlet.granted]
        [.raise inlet.denied] outlet := by
  cases outlet <;> rfl

theorem originRules_eq (straight : Straight) (request used : Var) (outlet : Option Outlet) :
    straight.originRules request used outlet =
      bidRules straight.ab (straight.originAllowed request used) [] [] outlet := by
  cases outlet <;> rfl

/-- The work on a passage: refusals, the reservation itself, and what follows it. -/
theorem handshakeRules_parts (site : Site) (index : Nat) (passage : Passage) (inlet : Handshake)
    (outlet : Option Outlet) : site.handshakeRules index passage inlet outlet =
      site.denyRules index passage inlet ++ bidRules passage (site.acceptable index passage inlet)
        [.raise inlet.granted] [.raise inlet.denied] outlet ++
      (answerResetRules inlet ++ (site.passedRules passage outlet ++
        [site.withdrawnRule passage inlet outlet]) ++ releaseDoneRules outlet) := by
  simp [Site.handshakeRules, acceptRules_eq]

/-- The work of a signal on its own passage. -/
theorem signalRouteRules_parts (straight : Straight) (occupancy request used : Var)
    (outlet : Option Outlet) : straight.signalRouteRules occupancy request used outlet =
      [] ++ bidRules straight.ab (straight.originAllowed request used) [] [] outlet ++
      (straight.originReleaseRules occupancy request used outlet ++ releaseDoneRules outlet) := by
  simp [Straight.signalRouteRules_eq, originRules_eq]

end Layout

/-- Whether bits of this role are anything but answers to requests. -/
def Role.silent : Role → Bool
  | .granted _ | .denied _ => false
  | _ => true

namespace Layout

variable {layout : Layout} {id : PieceId} {piece : Piece} {passage : Passage}

/-- What is known when the work on a passage may begin, and what is told of it. -/
structure Bidding (layout : Layout) (passage : Passage) (wanted : Var) (allowed : List Condition)
    (grant deny : List Action) : Prop where
  plain : ∀ condition ∈ allowed, condition.var?.isSome
  requested : .on wanted ∈ allowed
  unreserved : .off passage.route ∈ allowed
  settled : .off passage.pending ∈ allowed
  given : (∃ side, layout.role wanted = .request side) ∨ layout.role wanted = .outside wanted
  granting : ∀ var ∈ grant.filterMap Action.var?, (layout.role var).silent = false
  denying : ∀ var ∈ deny.filterMap Action.var?, (layout.role var).silent = false

theorem Bidding.alert {wanted : Var} {allowed : List Condition} {grant deny : List Action}
    (bidding : layout.Bidding passage wanted allowed grant deny) (outlet : Option Outlet) :
    ∀ rule ∈ bidRules passage allowed grant deny outlet, rule.Alert := by
  cases outlet with
  | none =>
      refine List.forall_mem_singleton.mpr ⟨bidding.plain, passage.route, false, ?_⟩
      exact ⟨bidding.unreserved, by simp⟩
  | some outlet =>
      simp only [bidRules, List.forall_mem_cons]
      refine ⟨⟨?_, passage.pending, false, ?_, by simp⟩, ?_, ?_, by simp⟩
      · exact List.forall_mem_append.mpr ⟨bidding.plain, by simp [Condition.var?]⟩
      · exact List.mem_append_left _ bidding.settled
      · exact ⟨by simp [Condition.var?], passage.pending, true, by simp, by simp⟩
      · exact ⟨by simp [Condition.var?], passage.pending, true, by simp, by simp⟩

theorem Serves.bidding {site : Site} {index : Nat} {inlet : Handshake} {asker : SideId}
    (serves : layout.Serves id piece site index passage inlet asker) : layout.Bidding passage inlet.request (site.acceptable index passage inlet)
    [.raise inlet.granted] [.raise inlet.denied] where
  plain := by
    simp only [Site.acceptable, Site.asked, List.forall_mem_append, List.forall_mem_map]
    refine ⟨⟨⟨⟨by simp [Condition.var?], selector_plain site index passage⟩, by simp [Condition.var?]⟩,
      fun _ _ => rfl⟩, ?_⟩
    split <;> simp [Condition.var?]
  requested := by simp [Site.acceptable, Site.asked]
  unreserved := by simp [Site.acceptable, Site.asked]
  settled := by simp [Site.acceptable, Site.asked]
  given := .inl ⟨asker, serves.wired.request⟩
  granting := by simp [Action.var?, serves.wired.granted, Role.silent]
  denying := by simp [Action.var?, serves.wired.denied, Role.silent]

theorem releaseRules_alert {site : Site} {inlet : Handshake} (outlet : Option Outlet) :
    ∀ rule ∈ site.passedRules passage outlet ++ [site.withdrawnRule passage inlet outlet],
      rule.Alert := by
  have clears : .clear passage.route ∈ site.releaseActions passage outlet := by
    simp [Site.releaseActions]
  refine List.forall_mem_append.mpr ⟨?_, List.forall_mem_singleton.mpr ?_⟩
  · intro rule member
    obtain ⟨freed, rfl⟩ := Site.mem_passedRules member
    exact ⟨by simp [Condition.var?], passage.route, true, by simp, clears⟩
  · exact ⟨by simp [Site.withdrawnRule, Condition.var?], passage.route, true,
      by simp [Site.withdrawnRule], clears⟩

section Signals

variable {name : String} {occupancy request aspect used : Var} {straight : Straight}
  (sound : layout.Sound)
  (found : layout.piece? id = some { name, occupancy, body := .straight straight })
  (kind : straight.kind = .signal request aspect used)

include sound found kind

theorem Sound.bidding_origin : layout.Bidding straight.ab request
    (straight.originAllowed request used) [] [] where
  plain := by simp [Lane.originAllowed, Condition.var?]
  requested := by simp [Lane.originAllowed]
  unreserved := by simp [Lane.originAllowed]
  settled := by simp [Lane.originAllowed]
  given := by
    obtain ⟨⟨seen, ab, ba⟩, _, a, b⟩ := straight
    subst kind
    exact .inr (role_of_outside (sound.supplied found request (by simp [Piece.supplied])))
  granting := by simp
  denying := by simp

omit sound found kind in
theorem originReleaseRules_alert (outlet : Option Outlet) :
    ∀ rule ∈ straight.originReleaseRules occupancy request used outlet, rule.Alert := by
  have clears : .clear straight.ab.route ∈ straight.originRelease outlet := by
    simp [Lane.originRelease]
  simp only [Straight.originReleaseRules, List.forall_mem_cons]
  refine ⟨?_, ?_, ?_, by simp⟩
  · exact ⟨by simp [Condition.var?], straight.ab.route, true, by simp,
      List.mem_cons_of_mem _ clears⟩
  · exact ⟨by simp [Condition.var?], straight.ab.route, true, by simp, clears⟩
  · exact ⟨by simp [Condition.var?], used, true, by simp, by simp⟩

end Signals

/-- Every rule of a duty is alert. -/
theorem Task.alert (sound : layout.Sound) {duty : Duty} (task : layout.Task id duty) : ∀ rule ∈ duty.rules, rule.Alert := by
  cases task with
  | rest => simp
  | @negotiate _ site index passage inlet _ serves =>
      rw [handshakeRules_parts]
      exact List.forall_mem_append.mpr ⟨List.forall_mem_append.mpr
        ⟨(denyRules_replies site index passage inlet).alert, serves.bidding.alert _⟩,
        List.forall_mem_append.mpr ⟨List.forall_mem_append.mpr ⟨answerResetRules_alert inlet,
          releaseRules_alert _⟩, releaseDoneRules_alert _⟩⟩
  | originate found kind =>
      rw [signalRouteRules_parts]
      exact List.forall_mem_append.mpr ⟨(sound.bidding_origin found kind).alert _,
        List.forall_mem_append.mpr ⟨originReleaseRules_alert _, releaseDoneRules_alert _⟩⟩
  | answer given =>
      exact List.forall_mem_append.mpr ⟨given.replies.alert, answerResetRules_alert _⟩

/-- Where all pieces are idle, the layout is at rest. -/
theorem Sound.atRest_of_idle (sound : layout.Sound) {memory : Memory}
    (idle : ∀ automaton ∈ layout.automata, automaton.Idle layout memory) :
    layout.AtRest (layout.panel memory) := by
  intro id piece found duty member rule own
  have listed : piece.automaton layout ∈ layout.automata :=
    List.mem_map.mpr ⟨piece, mem_pieces.mpr ⟨id, found⟩, rfl⟩
  apply idle _ listed rule
  · rw [piece.rules_automaton]
    exact List.mem_append_left _ (List.mem_append_right _ (List.mem_flatMap.mpr ⟨duty, member, own⟩))
  · exact (sound.task found duty member).alert sound rule own

end Layout

end Interlocking
