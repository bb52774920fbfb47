import Interlocking.Proofs.Commutation
import Interlocking.Proofs.Compilation
import Interlocking.Proofs.Lookups

/-!
# Aspects

At the end of its turn a signal decides what it shows. One rule raises the aspect and others clear
it, each for one reason only, and they run after all that the signal does with its routes. Together
they make the aspect what it should be, whatever was shown before.
-/

namespace Interlocking

open Function (update)

namespace Straight

/-- A signal should show proceed if this is wanted, the route behind it is set and the piece behind
it, if there is one, is free. -/
def proceeds (straight : Straight) (request : Var) (next : Option Var) (bits : Var → Bool) : Bool :=
  bits request && bits straight.ab.route && next.all fun occupancy => !bits occupancy

variable {straight : Straight} {request aspect : Var} {next : Option Var} {view : View}

/-- The rules of the aspect give it the value that it should have. -/
theorem pass_aspectRules (notRequest : request ≠ aspect) (notRoute : straight.ab.route ≠ aspect)
    (notNext : ∀ occupancy ∈ next, occupancy ≠ aspect) :
    view.pass (straight.aspectRules request aspect next) =
      { view with bits := update view.bits aspect (straight.proceeds request next view.bits) } := by
  obtain ⟨bits, state, timer⟩ := view
  cases next with
  | none =>
      cases wanted : bits request <;> cases reserved : bits straight.ab.route <;>
        cases shown : bits aspect <;>
        simp [Lane.aspectRules, proceeds, View.pass, View.fire, View.Enables, View.Meets, wanted,
          reserved, shown, notRequest, notRoute]
  | some occupancy =>
      have notOccupancy := notNext occupancy rfl
      cases wanted : bits request <;> cases reserved : bits straight.ab.route <;>
        cases occupied : bits occupancy <;> cases shown : bits aspect <;>
        simp [Lane.aspectRules, proceeds, View.pass, View.fire, View.Enables, View.Meets, wanted,
          reserved, occupied, shown, notRequest, notRoute, notOccupancy]

/-- The last rule of an automaton concerns the register alone. -/
theorem bits_startRule : (view.pass [RuleBook.startRule]).bits = view.bits :=
  funext fun var => View.bits_pass (by simp [RuleBook.startRule, Rule.writes, Action.var?])

/-- At the end of a turn the signal shows what its request and its route ask for. -/
theorem aspect_of_summary (notRequest : request ≠ aspect) (notRoute : straight.ab.route ≠ aspect)
    (notNext : ∀ occupancy ∈ next, occupancy ≠ aspect) {after : View}
    (passed : after =
      view.pass (straight.aspectRules request aspect next ++ [RuleBook.startRule])) :
    after.bits aspect = straight.proceeds request next after.bits := by
  rw [passed, View.pass_append, bits_startRule, pass_aspectRules notRequest notRoute notNext]
  cases next with
  | none => simp [proceeds, notRequest, notRoute]
  | some occupancy => simp [proceeds, notRequest, notRoute, notNext occupancy rfl]

/-- Nothing else is written at the end of a turn. -/
theorem writes_summary :
    ∀ rule ∈ straight.aspectRules request aspect next ++ [RuleBook.startRule], ∀ var ∈ rule.writes,
      var = aspect := by
  cases next <;> simp [Lane.aspectRules, RuleBook.startRule, Rule.writes, Action.var?]

/-- Without its route a signal never shows proceed, whatever other variables its aspect is. -/
theorem aspect_eq_false_of_summary (notRoute : straight.ab.route ≠ aspect)
    (free : view.bits straight.ab.route = false) :
    (view.pass (straight.aspectRules request aspect next ++ [RuleBook.startRule])).bits aspect =
      false := by
  rw [View.pass_append, bits_startRule, Lane.aspectRules, View.pass_append]
  -- Behind the rule for the route, rules can only clear the aspect.
  refine View.pass_induct (motive := fun view => view.bits aspect = false) ?_ ?_
  · refine List.forall_mem_map.mpr fun occupancy _ view _ _ => ?_
    simp
  · cases wanted : view.bits request <;> cases shown : view.bits aspect <;>
      simp [View.pass, View.fire, View.Enables, View.Meets, wanted, shown, free, notRoute]

end Straight

namespace Layout

variable {layout : Layout}

/-- Whether the piece behind a side is free, said of the side to which it is joined. -/
theorem Framed.free_behind_iff (framed : layout.Framed) {side : SideId} {bits : Var → Bool} :
    ((layout.neighbourOccupancy? side).all fun occupancy => !bits occupancy) = true ↔
      ∀ mate, layout.mate? side = some mate →
        ∃ piece, layout.owner? mate = some piece ∧ bits piece.occupancy = false := by
  cases joined : layout.mate? side with
  | none => simp [neighbourOccupancy?, joined]
  | some mate =>
      obtain ⟨piece, _, owner⟩ := framed.owner?_of_has (framed.has_mate joined)
      simp [neighbourOccupancy?, joined, owner]

/-- At the end of its turn a signal decides on its aspect. -/
theorem summary_of_signal {name : String} {occupancy request aspect used : Var}
    {straight : Straight} (kind : straight.kind = .signal request aspect used) :
    ({ name, occupancy, body := .straight straight } : Piece).summary layout =
      straight.aspectRules request aspect (layout.neighbourOccupancy? straight.b) ++
        [RuleBook.startRule] := by
  simp [Piece.summary, kind]

end Layout

section Home

/-- A signal `s` between the detector `d` and the endpoint `e`. -/
def homeOrders : List Order := [
  .external "g", .external "p", .external "x", .detector "d" ⟨2⟩, .signal "s" ⟨0⟩ ⟨1⟩,
  .endpoint "e", .join ⟨1⟩ ⟨2⟩, .join ⟨3⟩ ⟨4⟩]

/-- What the orders make. -/
def homeYard : Yard := (Yard.empty {}).performAll homeOrders

/-- The signal. -/
def homeSignal : Straight where
  kind := .signal ⟨0⟩ ⟨1⟩ ⟨53⟩
  a := ⟨2⟩
  b := ⟨3⟩
  seen := ⟨52⟩
  ab := { entry := ⟨2⟩, exit := ⟨3⟩, route := ⟨54⟩, pending := ⟨55⟩ }
  ba := { entry := ⟨3⟩, exit := ⟨2⟩, route := ⟨56⟩, pending := ⟨57⟩ }

theorem homeYard_shows :
    (∀ order ∈ homeOrders, ∀ var ∈ order.mentions, var.index < homeYard.layout.table.span) ∧
    homeYard.layout.piece? ⟨1⟩ =
      some { name := "s", occupancy := ⟨51⟩, body := .straight homeSignal } ∧
    homeYard.layout.Outside ⟨1⟩ ∧ (∀ piece ∈ homeYard.layout.pieces.toList, ⟨1⟩ ≠ piece.occupancy) ∧
    homeYard.layout.mate? ⟨3⟩ = some ⟨4⟩ ∧
    (homeYard.layout.owner? ⟨4⟩).map (·.occupancy) = some ⟨75⟩ ∧
    ∃ program ∈ (Program.compile homeYard.layout []).toOption, program.alight.get ⟨1⟩ = .ok true ∧
      ∃ turned ∈ (program.alight.evaluate 1).toOption, turned.1.get ⟨0⟩ = .ok true ∧
        turned.1.get ⟨54⟩ = .ok true ∧ turned.1.get ⟨75⟩ = .ok true := by
  decide +kernel

end Home

/-- The aspect of a signal is right after every turn of the signal. Take any layout, whatever orders
it was made with, such that the variables which its author has handed over were reserved, and a
signal in it whose aspect is an outside variable, not the one that asks for proceed and no
occupancy. Whatever else is compiled with the layout and whatever the bits, registers and timers of
the machine hold, the turn of the signal succeeds, and at its end the aspect is 1 exactly if proceed
is asked for, the signal has its route and the piece that is joined to its side `b`, if there is
one, is free. -/
theorem aspect_is_right_after_every_turn (config : Config) (orders : List Order) (yard : Yard)
    (made : (Yard.empty config).performAll orders = yard)
    (handed : ∀ order ∈ orders, ∀ var ∈ order.mentions, var.index < yard.layout.table.span)
    (sources : List Source) (program : Program)
    (compiled : Program.compile yard.layout sources = .ok program) (id : PieceId) (name : String)
    (occupancy request aspect used : Var) (straight : Straight)
    (found : yard.layout.piece? id = some { name, occupancy, body := .straight straight })
    (kind : straight.kind = .signal request aspect used) (outside : yard.layout.Outside aspect)
    (unasked : aspect ≠ request)
    (unoccupied : ∀ other piece, yard.layout.piece? other = some piece → aspect ≠ piece.occupancy)
    (machine : Machine) (loaded : program.Loaded machine) :
    ∃ next changed shown, machine.evaluate id.index = .ok (next, changed) ∧
      next.get aspect = .ok shown ∧
      (shown = true ↔ next.get request = .ok true ∧ next.get straight.ab.route = .ok true ∧
        ∀ mate, yard.layout.mate? straight.b = some mate →
          ∃ piece, yard.layout.owner? mate = some piece ∧ next.get piece.occupancy = .ok false) := by
  have formed : yard.Formed yard.layout.Holds :=
    made ▸ Yard.performAll_formed (.empty config) (made ▸ handed)
  have framed := formed.layout.framed
  have words := formed.vocabulary found
  have size : machine.memory.bits.size = yard.layout.table.span :=
    (Program.automata_of_compile compiled).1 ▸ loaded.size
  obtain ⟨cell, here, same⟩ :=
    Machine.exists_cell (loaded.automata ▸ Program.getElem?_of_piece compiled found)
  have addresses : yard.layout.Addresses cell.automaton.rules := by
    rw [same]
    exact Layout.addresses_iff_uses.mpr (words.uses_automaton (framed.shaped found))
  obtain ⟨next, changed, evaluated⟩ := addresses.evaluate_ok size here
  -- What the turn leaves in memory is what the rules leave in the view of the signal.
  obtain ⟨known, after, there, -, -, view, -, kept⟩ := Machine.view_evaluate evaluated
  obtain rfl := Option.some.inj (there.symm.trans here)
  rw [same, Piece.rules_automaton, Layout.summary_of_signal kind, View.pass_append] at view
  have notRoute : straight.ab.route ≠ aspect := by
    rintro rfl
    have own : (.route straight.ab, straight.ab.route) ∈ yard.layout.roles :=
      Layout.mem_roles_piece found (by simp [Piece.roles, Piece.passages, Passage.roles])
    exact outside.2 (List.mem_map_of_mem own)
  have notNext : ∀ var ∈ yard.layout.neighbourOccupancy? straight.b, var ≠ aspect := by
    intro var near
    obtain ⟨piece, joined, rfl⟩ := Option.map_eq_some_iff.mp near
    obtain ⟨mate, _, owner⟩ := Option.bind_eq_some_iff.mp joined
    obtain ⟨record, _, known⟩ := Option.bind_eq_some_iff.mp owner
    exact (unoccupied _ piece known).symm
  have right := Straight.aspect_of_summary unasked.symm notRoute notNext view
  have reads {var : Var} {value : Bool} (held : yard.layout.Holds var) :
      next.get var = .ok value ↔ next.memory.value var = value :=
    Memory.read_eq_ok.trans (and_iff_right (Nat.lt_of_lt_of_eq held (kept.trans size).symm))
  obtain ⟨asked, shows, -⟩ := words.signal kind
  have route := (words.passage straight.ab (by simp [Piece.passages])).1.1
  refine ⟨next, changed, _, evaluated, (reads shows).mpr right, ?_⟩
  simp only [Straight.proceeds, Bool.and_eq_true, and_assoc, framed.free_behind_iff, reads asked,
    reads route]
  refine and_congr_right fun _ => and_congr_right fun _ => forall₂_congr fun mate joined => ?_
  refine exists_congr fun piece => and_congr_right fun owner => (reads ?_).symm
  exact words.near straight.b (by simp [Piece.sides]) _
    (by simp [Layout.neighbourOccupancy?, joined, owner])

/-- With every bit 1 the signal shows proceed although a train stands behind it. Its next turn
corrects this. -/
theorem aspect_is_right_after_every_turn_at_home :
    (∀ order ∈ homeOrders, ∀ var ∈ order.mentions, var.index < homeYard.layout.table.span) ∧
    homeYard.layout.piece? ⟨1⟩ =
      some { name := "s", occupancy := ⟨51⟩, body := .straight homeSignal } ∧
    homeYard.layout.Outside ⟨1⟩ ∧
    (∀ other piece, homeYard.layout.piece? other = some piece → ⟨1⟩ ≠ piece.occupancy) ∧
    ∃ program, Program.compile homeYard.layout [] = .ok program ∧ program.Loaded program.alight ∧
      program.alight.get ⟨1⟩ = .ok true ∧ ∃ next changed,
        program.alight.evaluate 1 = .ok (next, changed) ∧ Machine.get next ⟨0⟩ = .ok true ∧
        Machine.get next ⟨54⟩ = .ok true ∧ Machine.get next ⟨1⟩ = .ok false := by
  obtain ⟨handed, found, outside, unoccupied, joined, beyond, program, known, shows, turned, ran,
    asked, reserved, occupied⟩ := homeYard_shows
  have compiled := Machine.mem_toOption_iff.mp known
  have unoccupied : ∀ other piece, homeYard.layout.piece? other = some piece →
      ⟨1⟩ ≠ piece.occupancy :=
    fun other piece there => unoccupied piece (Layout.mem_pieces.mpr ⟨other, there⟩)
  have loaded : program.Loaded program.alight :=
    ⟨Machine.automata_powerOn program {}, by simp [Program.alight]⟩
  obtain ⟨next, changed, shown, evaluated, shownNext, right⟩ :=
    aspect_is_right_after_every_turn {} homeOrders homeYard rfl handed [] program compiled ⟨1⟩ "s"
      ⟨51⟩ ⟨0⟩ ⟨1⟩ ⟨53⟩ homeSignal found rfl outside (by decide) unoccupied program.alight loaded
  obtain rfl : turned = (next, changed) :=
    Except.ok.inj ((Machine.mem_toOption_iff.mp ran).symm.trans evaluated)
  refine ⟨handed, found, outside, unoccupied, program, compiled, loaded, shows, next, changed,
    evaluated, ?_⟩
  obtain rfl : shown = false := by
    rw [← Bool.not_eq_true, right]
    rintro ⟨-, -, free⟩
    obtain ⟨piece, owner, free⟩ := free ⟨4⟩ joined
    have same : piece.occupancy = ⟨75⟩ := by simpa [owner] using beyond
    rw [same] at free
    cases occupied.symm.trans free
  exact ⟨asked, reserved, shownNext⟩

end Interlocking
