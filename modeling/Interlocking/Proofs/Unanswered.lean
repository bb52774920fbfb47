import Interlocking.Proofs.Alertness
import Interlocking.Proofs.RouteSafety
import Interlocking.Proofs.TrainFree

/-!
# Requests without an answer

A piece answers a request by a grant or a denial, unless the passage that it would answer for
is in use already. A route may stay reserved under a train although its request was taken
back; if the request is made again it is neither granted nor denied. Such stale routes are the
only reason: where a cycle changes nothing, a request without an answer waits for one of them.
-/

namespace Interlocking

open Function (update)

namespace Layout

variable {layout : Layout}

/-- What is known of the requests that are passed on from piece to piece. -/
structure Chained (layout : Layout) (panel : Panel) : Prop where
  linked : layout.Linked panel
  ranked : layout.Ranked panel

namespace Chained

variable {panel other : Panel}

theorem zeros (layout : Layout) : layout.Chained (fun _ => false) :=
  ⟨(Undisturbed.zeros layout).linked, (Undisturbed.zeros layout).ranked⟩

theorem congr (chained : layout.Chained other)
    (routes : ∀ passage, panel (.route passage) = other (.route passage))
    (pendings : ∀ passage, panel (.pending passage) = other (.pending passage))
    (grants : ∀ side, panel (.granted side) = other (.granted side)) : layout.Chained panel :=
  ⟨chained.linked.congr routes pendings, chained.ranked.congr routes pendings grants⟩

theorem accord (chained : layout.Chained other) (accords : panel.Accords other) :
    layout.Chained panel :=
  chained.congr (fun _ => accords _ rfl) (fun _ => accords _ rfl) (fun _ => accords _ rfl)

theorem turn (sound : layout.Sound) {id : PieceId} {piece : Piece}
    (found : layout.piece? id = some piece) {stand : PieceId → Bool} :
    layout.Takes (fun panel => layout.Steady stand none panel ∧ layout.Chained panel)
      (piece.automaton layout).rules layout.Chained :=
  sound.turn_keeps found
    (fun orderly chained deed => ⟨deed.linked_after sound orderly chained.linked,
      deed.ranked sound orderly chained.linked chained.ranked⟩)
    (fun accords chained => chained.accord accords)

/-- What is written from outside does not concern the chains. -/
theorem set (sound : layout.Sound) {machine next : Machine} {var : Var} {value : Bool}
    (chained : layout.Chained (layout.panel machine.memory))
    (permitted : layout.Permits (.write var value)) (written : machine.set var value = .ok next) :
    layout.Chained (layout.panel next.memory) := by
  obtain ⟨memory, stored, rfl⟩ := Machine.set_eq_ok written
  simp only [panel_write stored]
  rcases sound.role_open permitted with aside | ⟨side, _, role | role⟩
  · exact chained.accord ((Panel.Alike.refl _).aside aside value).accords
  · exact chained.congr (by simp [role]) (by simp [role]) (by simp [role])
  · exact chained.congr (by simp [role]) (by simp [role]) (by simp [role])

end Chained

/-- As a machine shows it: the passage is reserved and asked for, and the request is neither
granted nor denied. -/
def Blocks (layout : Layout) (machine : Machine) (passage : Passage) : Prop :=
  machine.get passage.route = .ok true ∧
    ∃ side record, layout.mate? passage.entry = some side ∧ layout.side? side = some record ∧
      machine.get record.bits.request = .ok true ∧ machine.get record.bits.granted = .ok false ∧
      machine.get record.bits.denied = .ok false

theorem Awaits.mono {negotiated waiting : Passage → Prop} {side : SideId} {passage : Passage}
    (awaits : layout.Awaits negotiated side passage)
    (weaker : ∀ next, layout.Asked next → negotiated next → waiting next) :
    layout.Awaits waiting side passage := by
  induction awaits with
  | here asked joined => exact .here asked joined
  | beyond asked joined waits _ ih => exact .beyond asked joined (weaker _ asked waits) ih

section Reading

variable {machine : Machine} (safe : layout.Safe machine) (sound : layout.Sound)

include safe sound

theorem Stale.blocks {passage : Passage} (stale : layout.Stale (layout.panel machine.memory) passage) :
    layout.Blocks machine passage := by
  obtain ⟨id, way⟩ := stale.asked.way
  obtain ⟨asker, joined, wanted⟩ := stale.wanted
  obtain ⟨record, known, _⟩ := Option.bind_eq_some_iff.mp (sound.paired joined)
  obtain ⟨request, granted, denied, _⟩ := safe.get_side sound known
  obtain ⟨requested, ungranted, undenied⟩ := wanted asker rfl
  refine ⟨by rw [(safe.get_way sound way).1, stale.reserved], asker, record, joined, known, ?_⟩
  rw [request, granted, denied, requested, ungranted, undenied]
  exact ⟨rfl, rfl, rfl⟩

theorem Awaits.reading {side : SideId} {passage : Passage}
    (awaits : layout.Awaits (fun next => layout.panel machine.memory (.pending next) = true) side
      passage) :
    layout.Awaits (fun next => machine.get next.pending = .ok true) side passage := by
  refine awaits.mono fun next asked waits => ?_
  obtain ⟨id, way⟩ := asked.way
  rw [(safe.get_way sound way).2, waits]

end Reading

end Layout

namespace Operation

variable (operation : Operation)

/-- Requests are passed on in chains that end, whatever happens. -/
theorem chained : operation.layout.Chained (operation.layout.panel operation.machine.memory) := by
  have sound : operation.layout.Sound := operation.sound.layout
  have kept : ∀ automaton ∈ operation.program.automata, ∀ stand, operation.layout.Takes
      (fun panel => operation.layout.Steady stand none panel ∧ operation.layout.Chained panel)
      automaton.rules operation.layout.Chained := by
    intro automaton member stand
    rcases operation.mem_automata member with listed | ⟨vars, writes, outside⟩
    · obtain ⟨piece, own, rfl⟩ := List.mem_map.mp listed
      obtain ⟨id, found⟩ := Layout.mem_pieces.mp own
      exact Layout.Chained.turn sound found
    · have aside := Layout.aside_of_writesOnly writes outside
      rintro before after ⟨_, chained⟩
      exact Layout.Takes.each (aside.maintains fun alike chained => chained.accord alike.accords)
        before after chained
  refine (Machine.play_induct (motive := fun _ machine =>
    machine.automata = operation.program.automata ∧ operation.layout.Safe machine ∧
      operation.layout.Chained (operation.layout.panel machine.memory)) ?_ ?_ operation.played).2.2
  · refine ⟨Machine.automata_powerOn _ _, operation.safe_powerOn, ?_⟩
    simp only [Machine.powerOn, Layout.panel_zeros]
    exact .zeros operation.layout
  · rintro past event middle next inside _ ⟨automata, safe, chained⟩ reacted
    have permitted := operation.permitted event (inside.subset (by simp))
    refine ⟨(Machine.automata_react reacted).trans automata,
      (safe.react sound permitted reacted).1, ?_⟩
    cases event with
    | turn index =>
        obtain ⟨changed, evaluated⟩ := Machine.react_turn_eq_ok reacted
        obtain ⟨cell, found, runs, _⟩ := operation.layout.runs_of_evaluate evaluated
        have member := automata ▸ Machine.mem_automata found
        exact kept _ member (fun id => operation.layout.panel middle.memory (.position id)) _ _
          ⟨⟨safe.orderly, fun _ => rfl⟩, chained⟩ runs
    | write var value => exact chained.set sound permitted reacted

/-- Where a cycle changes nothing, no piece has anything to do. -/
theorem atRest_of_step {next : Machine} (stepped : operation.machine.step = .ok (next, false)) :
    operation.layout.AtRest (operation.layout.panel operation.machine.memory) := by
  have idle := Machine.idle_of_step operation.layout stepped
  rw [operation.automata_machine] at idle
  obtain ⟨-, extra, _, automata⟩ := Program.automata_of_compile operation.compiled
  have sound : operation.layout.Sound := operation.sound.layout
  apply sound.atRest_of_idle
  intro automaton member
  exact idle automaton (automata ▸ List.mem_append_left _ member)

end Operation

section Spur

/-- Behind the endpoint `e` lies nothing but the piece `d` with the detector `s`. -/
def spur : List Order := [.external "s", .endpoint "e", .detector "d" ⟨0⟩, .join ⟨0⟩ ⟨1⟩]

/-- A train enters the spur on a route that is then given up, and the route is asked for again. -/
def recalledSpur : Operation :=
  (Operation.start? {} spur [] {} [
    .write ⟨1⟩ true, .turn 0, .turn 1, .write ⟨0⟩ true, .write ⟨1⟩ false, .turn 0, .turn 1,
    .write ⟨1⟩ true]).get (by decide +kernel)

theorem recalledSpur_shows :
    recalledSpur.sources = [] ∧
    recalledSpur.layout.side? ⟨0⟩ = some ⟨"side", ⟨0⟩, ⟨⟨1⟩, ⟨2⟩, ⟨3⟩, ⟨4⟩⟩, some ⟨1⟩⟩ ∧
    recalledSpur.machine.step.map (·.2) = .ok false ∧
    recalledSpur.machine.get ⟨1⟩ = .ok true ∧ recalledSpur.machine.get ⟨2⟩ = .ok false ∧
    recalledSpur.machine.get ⟨3⟩ = .ok false := by
  decide +kernel

theorem recalledSpur_stands : ∃ next, recalledSpur.machine.step = .ok (next, false) := by
  obtain ⟨_, _, stands, _⟩ := recalledSpur_shows
  cases stepped : recalledSpur.machine.step with
  | error failure => simp [stepped, Except.map] at stands
  | ok outcome =>
      obtain ⟨next, changed⟩ := outcome
      rw [stepped] at stands
      obtain rfl : changed = false := Except.ok.inj stands
      exact ⟨next, rfl⟩

end Spur

/-- A request may stay unanswered although no cycle changes anything any more. -/
theorem request_may_stay_unanswered :
    ¬∀ (operation : Operation) (next : Machine) (side mate : SideId) (record : Side),
      operation.sources = [] → operation.machine.step = .ok (next, false) →
      operation.layout.side? side = some record → record.mate = some mate →
      operation.machine.get record.bits.request = .ok true →
      operation.machine.get record.bits.granted = .ok true ∨
        operation.machine.get record.bits.denied = .ok true := by
  intro answered
  obtain ⟨alone, found, _, requested, ungranted, undenied⟩ := recalledSpur_shows
  obtain ⟨next, stepped⟩ := recalledSpur_stands
  have answer := answered recalledSpur next ⟨0⟩ ⟨1⟩ _ alone stepped found rfl requested
  simp [ungranted, undenied] at answer

/-- Where a cycle changes nothing, a request has been granted or denied, or it waits for a
route that stayed reserved when its grant was gone. Without trains there is no such route. -/
theorem requests_answered_or_blocked (operation : Operation) {next : Machine}
    (stepped : operation.machine.step = .ok (next, false)) {side mate : SideId} {record : Side}
    (found : operation.layout.side? side = some record) (joined : record.mate = some mate)
    (requested : operation.machine.get record.bits.request = .ok true) :
    operation.machine.get record.bits.granted = .ok true ∨
      operation.machine.get record.bits.denied = .ok true ∨
      ¬operation.TrainFree ∧ ∃ passage,
        operation.layout.Awaits (fun next => operation.machine.get next.pending = .ok true) side
          passage ∧
        operation.layout.Blocks operation.machine passage := by
  have sound : operation.layout.Sound := operation.sound.layout
  have safe := operation.safe
  have rest : operation.layout.AtRest (operation.layout.panel operation.machine.memory) :=
    operation.atRest_of_step stepped
  have bound : operation.layout.mate? side = some mate := by simp [Layout.mate?, found, joined]
  have back := sound.paired bound
  obtain ⟨request, granted, denied, _⟩ := safe.get_side sound found
  rw [granted, denied]
  by_contra unanswered
  simp only [not_or, Except.ok.injEq, Bool.not_eq_true] at unanswered
  obtain ⟨ungranted, undenied, unblocked⟩ := unanswered
  have wanted : (operation.layout.panel operation.machine.memory).Wants (some side) := by
    rw [request, Except.ok.injEq] at requested
    simp [Panel.Wants, requested, ungranted, undenied]
  refine unblocked ⟨fun free => ?_, ?_⟩
  · exact rest.not_wanted sound safe.orderly free.calm.undisturbed back wanted
  · obtain ⟨passage, awaits, stale⟩ := rest.awaits_stale sound safe.orderly
      operation.chained.linked operation.chained.ranked back wanted
    exact ⟨passage, awaits.reading safe sound, stale.blocks safe sound⟩

theorem requests_answered_or_blocked_at_spur :
    ∃ next, recalledSpur.machine.step = .ok (next, false) ∧
      recalledSpur.layout.side? ⟨0⟩ = some ⟨"side", ⟨0⟩, ⟨⟨1⟩, ⟨2⟩, ⟨3⟩, ⟨4⟩⟩, some ⟨1⟩⟩ ∧
      recalledSpur.machine.get ⟨1⟩ = .ok true ∧ ¬recalledSpur.TrainFree ∧
      ∃ passage,
        recalledSpur.layout.Awaits (fun next => recalledSpur.machine.get next.pending = .ok true)
          ⟨0⟩ passage ∧
        recalledSpur.layout.Blocks recalledSpur.machine passage := by
  obtain ⟨_, found, _, requested, ungranted, undenied⟩ := recalledSpur_shows
  obtain ⟨next, stepped⟩ := recalledSpur_stands
  refine ⟨next, stepped, found, requested, ?_⟩
  have outcome := requests_answered_or_blocked recalledSpur stepped found rfl requested
  simpa only [ungranted, undenied, Except.ok.injEq, Bool.false_eq_true, false_or] using outcome

end Interlocking
