import Interlocking.Proofs.Permission

/-!
# Permissions in service

In a cycle the arbiter and a schedule that it serves take one turn each, in one order or the
other. The report of a schedule that its train has left is cleared in between, so the schedule
keeps its licence in all cycles. Two schedules that rely on permissions of one arbiter at the same
time would both have to be its holder.

The marks of a schedule must be left alone for this. A schedule that somebody makes believe that
it is busy with another move relies on a permission that it never asked for.
-/

namespace Interlocking

namespace Schedule

/-- The schedule is at a stage at which it relies on a permission, with a move under way that
needs one. -/
def Critical (schedule : Schedule) (machine : Machine) : Prop :=
  (∃ move ∈ schedule.moves, move.client.isSome ∧ machine.get move.active = .ok true) ∧
    ∃ state ∈ machine.state? schedule.name, Relying state

instance (schedule : Schedule) : DecidablePred schedule.Critical :=
  fun _ => inferInstanceAs (Decidable (_ ∧ _))

/-- The schedule is in service and takes its permissions from the arbiter, and nobody but the two
writes the given bits. -/
@[mk_iff]
structure ServedBy (schedule : Schedule) (arbiter : Arbiter) (bits : List Var) (service : Service) :
    Prop where
  declared : schedule ∈ service.yard.schedules
  runs : .train schedule ∈ service.sources
  clients : ∀ move ∈ schedule.moves, ∀ client ∈ move.client, client ∈ arbiter.clients
  commands : ∀ move ∈ schedule.moves, ∀ entry ∈ move.turnouts, entry.1.command ∉ bits
  writes : ∀ var ∈ bits, ∀ value, .write var value ∉ service.beats
  others : ∀ automaton ∈ service.program.automata, automaton.name ≠ schedule.name →
    automaton.name ≠ arbiter.name → ∀ rule ∈ automaton.rules, ∀ var ∈ bits, var ∉ rule.writes

instance (schedule : Schedule) (arbiter : Arbiter) (bits : List Var) :
    DecidablePred (schedule.ServedBy arbiter bits) :=
  fun _ => decidable_of_iff' _ (servedBy_iff ..)

/-- A machine in which the schedule and the arbiter have their places, and the schedule has its
licence. -/
structure Seated (schedule : Schedule) (arbiter : Arbiter) (program : Program)
    (train server : Nat) (machine : Machine) (cell seat : Cell) : Prop where
  automata : machine.automata = program.automata
  atTrain : machine.cells[train]? = some cell
  atServer : machine.cells[server]? = some seat
  licensed : schedule.Licensed arbiter seat.state (cell.view machine.memory)

section Places

variable {schedule : Schedule} {arbiter : Arbiter} {yard : Yard} {program : Program}
  {train server : Nat} {machine next : Machine} {cell seat : Cell} {changed : Bool}

/-- Nothing is lost where neither the two cells nor the marks change. -/
theorem Seated.frame (seated : schedule.Seated arbiter program train server machine cell seat)
    (automata : next.automata = machine.automata)
    (atTrain : next.cells[train]? = machine.cells[train]?)
    (atServer : next.cells[server]? = machine.cells[server]?)
    (marks : ∀ var ∈ schedule.marks, next.memory.value var = machine.memory.value var) :
    schedule.Seated arbiter program train server next cell seat ∧
      (schedule.Fresh (cell.view machine.memory) → schedule.Fresh (cell.view next.memory)) := by
  have shows : (cell.view next.memory).Shows schedule.marks (cell.view machine.memory).bits := marks
  exact ⟨⟨automata.trans seated.automata, atTrain.trans seated.atTrain,
    atServer.trans seated.atServer, seated.licensed.frame rfl shows⟩, fun fresh => fresh.frame shows⟩

/-- What a machine keeps between the turns of the schedule and of the arbiter. -/
def Waits (schedule : Schedule) (arbiter : Arbiter) (program : Program) (train server : Nat)
    (machine : Machine) : Prop :=
  ∃ cell seat, schedule.Seated arbiter program train server machine cell seat

/-- What it has behind the turn of the arbiter: no report is pending. -/
def Clear (schedule : Schedule) (arbiter : Arbiter) (program : Program) (train server : Nat)
    (machine : Machine) : Prop :=
  ∃ cell seat, schedule.Seated arbiter program train server machine cell seat ∧
    schedule.Fresh (cell.view machine.memory)

theorem keeps_of_frame (automata : next.automata = machine.automata)
    (atTrain : next.cells[train]? = machine.cells[train]?)
    (atServer : next.cells[server]? = machine.cells[server]?)
    (marks : machine.automata = program.automata →
      ∀ var ∈ schedule.marks, next.memory.value var = machine.memory.value var) :
    Machine.Keeps (schedule.Waits arbiter program train server)
      (schedule.Clear arbiter program train server) machine next := by
  constructor
  · rintro ⟨cell, seat, seated⟩
    exact ⟨cell, seat, (seated.frame automata atTrain atServer (marks seated.automata)).1⟩
  · rintro ⟨cell, seat, seated, fresh⟩
    obtain ⟨seated, stays⟩ := seated.frame automata atTrain atServer (marks seated.automata)
    exact ⟨cell, seat, seated, stays fresh⟩

theorem waits_of_train (under : schedule.Under arbiter yard) {layout : Layout}
    (trains : program.automata[train]? = some (schedule.build layout)) (apart : train ≠ server)
    (clear : schedule.Clear arbiter program train server machine)
    (evaluated : machine.evaluate train = .ok (next, changed)) :
    schedule.Waits arbiter program train server next := by
  obtain ⟨cell, seat, seated, fresh⟩ := clear
  obtain ⟨known, after, found, there, _, view, others, _⟩ := Machine.view_evaluate evaluated
  obtain rfl := Option.some.inj (seated.atTrain.symm.trans found)
  have automaton : cell.automaton = schedule.build layout := by
    have placed := Machine.automata_getElem? seated.atTrain
    rw [seated.automata, trains] at placed
    exact (Option.some.inj placed).symm
  refine ⟨after, seat, (Machine.frame_evaluate evaluated).1.trans seated.automata, there,
    (others server apart.symm).trans seated.atServer, ?_⟩
  rw [view, automaton]
  exact seated.licensed.turn under fresh layout

theorem clear_of_server (under : schedule.Under arbiter yard) {automaton : Automaton}
    (built : arbiter.build = .ok automaton)
    (serves : program.automata[server]? = some automaton) (apart : train ≠ server)
    (waits : schedule.Waits arbiter program train server machine)
    (evaluated : machine.evaluate server = .ok (next, changed)) :
    schedule.Clear arbiter program train server next := by
  obtain ⟨cell, seat, seated⟩ := waits
  obtain ⟨known, after, found, there, _, view, others, _⟩ := Machine.view_evaluate evaluated
  obtain rfl := Option.some.inj (seated.atServer.symm.trans found)
  have same : seat.automaton = automaton := by
    have placed := Machine.automata_getElem? seated.atServer
    rw [seated.automata, serves] at placed
    exact (Option.some.inj placed).symm
  rw [same] at view
  have bits : (seat.view machine.memory).tick.bits = (cell.view machine.memory).bits :=
    View.bits_tick
  have before : schedule.Licensed arbiter (seat.view machine.memory).tick.state
      (cell.view machine.memory) := by
    rw [View.state_tick]
    exact seated.licensed
  have state : (cell.view next.memory).state = (cell.view machine.memory).state := rfl
  obtain ⟨licensed, fresh⟩ := before.served under built bits view state rfl
  exact ⟨cell, after, ⟨(Machine.frame_evaluate evaluated).1.trans seated.automata,
    (others train apart).trans seated.atTrain, there, licensed⟩, fresh⟩

theorem clear_powerOn {settings : SimConfig} {left right : Automaton}
    (trains : program.automata[train]? = some left)
    (serves : program.automata[server]? = some right) :
    schedule.Clear arbiter program train server (.powerOn program settings) := by
  have cells : ∀ {place : Nat} {automaton : Automaton}, program.automata[place]? = some automaton →
      (Machine.powerOn program settings).cells[place]? = some { automaton := automaton } := by
    intro place automaton found
    simp [Machine.powerOn, found]
  have zero : ∀ var, (Machine.powerOn program settings).memory.value var = false :=
    Memory.value_zeros _
  refine ⟨{ automaton := left }, { automaton := right }, ⟨Machine.automata_powerOn ..,
    cells trains, cells serves, ?_⟩, fun _ _ => zero _⟩
  refine ⟨.none fun _ _ => zero _, ?_, ?_, ?_, ?_⟩
  · intro move client _ _ active
    simp [Cell.view, zero] at active
  · intro move client index _ _ _ active
    simp [Cell.view, zero] at active
  · intro move client index _ _ _ used
    simp [Cell.view, zero] at used
  · intro move client index _ _ _
    exact iff_of_false (by simp [Cell.view, zero]) (Arbiter.held_ne_initial index).symm

end Places

section Service

variable {schedule : Schedule} {arbiter : Arbiter} {service : Service}
  (served : schedule.ServedBy arbiter schedule.marks service)

include served

/-- Whoever takes a turn besides the schedule and the arbiter leaves the marks. -/
theorem ServedBy.marks_of_other {train server index : Nat} {left right : Automaton}
    (trains : service.program.automata[train]? = some left) (named : left.name = schedule.name)
    (serves : service.program.automata[server]? = some right) (called : right.name = arbiter.name)
    (notTrain : index ≠ train) (notServer : index ≠ server) {machine next : Machine} {changed : Bool}
    (automata : machine.automata = service.program.automata)
    (evaluated : machine.evaluate index = .ok (next, changed)) :
    ∀ var ∈ schedule.marks, next.memory.value var = machine.memory.value var := by
  obtain ⟨cell, after, found, _, _, view, _⟩ := Machine.view_evaluate evaluated
  have names := Program.names_nodup service.compiled
  have placed : service.program.automata[index]? = some cell.automaton :=
    automata ▸ Machine.automata_getElem? found
  have notNamed : cell.automaton.name ≠ schedule.name := fun same =>
    notTrain (Automaton.index_eq_of_name names placed trains (same.trans named.symm))
  have notCalled : cell.automaton.name ≠ arbiter.name := fun same =>
    notServer (Automaton.index_eq_of_name names placed serves (same.trans called.symm))
  intro var mark
  calc next.memory.value var
    _ = ((cell.view machine.memory).tick.pass cell.automaton.rules).bits var :=
        congrFun (congrArg View.bits view) var
    _ = (cell.view machine.memory).tick.bits var :=
        View.bits_pass fun rule member => served.others cell.automaton
          (List.mem_of_getElem? placed) notNamed notCalled rule member var mark
    _ = machine.memory.value var := by rw [View.bits_tick]; rfl

/-- The schedule and the arbiter take turns. -/
theorem ServedBy.alternate (under : schedule.Under arbiter service.yard) {train server : Nat}
    {automaton : Automaton} (built : arbiter.build = .ok automaton)
    (trains : service.program.automata[train]? = some (schedule.build service.layout))
    (serves : service.program.automata[server]? = some automaton) (apart : train ≠ server) :
    Machine.Alternate train server (schedule.Waits arbiter service.program train server)
      (schedule.Clear arbiter service.program train server) service.beats where
  weakens := fun ⟨cell, seat, seated, _⟩ => ⟨cell, seat, seated⟩
  takes := waits_of_train under trains apart
  gives := clear_of_server under built serves apart
  others := by
    intro machine next index changed notTrain notServer evaluated
    obtain ⟨_, _, _, _, _, _, others, _⟩ := Machine.view_evaluate evaluated
    refine keeps_of_frame (Machine.frame_evaluate evaluated).1 (others train notTrain.symm)
      (others server notServer.symm) fun automata => ?_
    exact served.marks_of_other trains (schedule.name_build _) serves
      (Arbiter.build_eq_ok built).1 notTrain notServer automata evaluated
  counts := fun _ => keeps_of_frame rfl rfl rfl fun _ _ _ => rfl
  writes := by
    intro machine next var value member written
    obtain ⟨memory, stored, rfl⟩ := Machine.set_eq_ok written
    refine keeps_of_frame rfl rfl rfl fun _ mark listed => ?_
    have other : mark ≠ var := fun same => served.writes mark listed value (same ▸ member)
    rw [(Memory.write_eq_ok stored).2, if_neg other]

/-- A schedule in service always has its licence. -/
theorem ServedBy.seated (declared : arbiter ∈ service.yard.arbiters)
    (runs : .permission arbiter ∈ service.sources) :
    ∃ train server cell seat,
      schedule.Seated arbiter service.program train server service.machine cell seat ∧
        cell.automaton.name = schedule.name ∧ seat.automaton.name = arbiter.name := by
  have distinct : service.yard.Distinct := Yard.performAll_distinct service.config service.orders
  have under : schedule.Under arbiter service.yard := {
    listed := distinct.schedules schedule served.declared
    nodup := distinct.clients_nodup declared
    known := (distinct.arbiters arbiter declared).subset
    clients := served.clients
    commands := served.commands }
  obtain ⟨train, server, _, automaton, made, built, trains, serves, apart⟩ :=
    Program.exists_places service.compiled served.runs runs (by simp)
  obtain rfl := Except.ok.inj made
  have inside : ∀ {place : Nat} {automaton : Automaton},
      service.program.automata[place]? = some automaton →
      place ∈ (Machine.powerOn service.program service.settings).order := by
    intro place automaton found
    rw [Machine.mem_order]
    simpa [Machine.powerOn] using (List.getElem?_eq_some_iff.mp found).1
  obtain ⟨cell, seat, seated⟩ :=
    (served.alternate under built trains serves apart).waits_drive (inside trains) (inside serves)
      apart (clear_powerOn trains serves) service.driven
  have atTrain := Machine.automata_getElem? seated.atTrain
  have atServer := Machine.automata_getElem? seated.atServer
  rw [seated.automata] at atTrain atServer
  refine ⟨train, server, cell, seat, seated, ?_, ?_⟩
  · rw [← Option.some.inj (trains.symm.trans atTrain), name_build]
  · rw [← Option.some.inj (serves.symm.trans atServer), (Arbiter.build_eq_ok built).1]

/-- A schedule that relies on a permission is the holder. -/
theorem ServedBy.holds (declared : arbiter ∈ service.yard.arbiters)
    (runs : .permission arbiter ∈ service.sources) (critical : schedule.Critical service.machine) :
    ∃ move ∈ schedule.moves, ∃ client index, move.client = some client ∧
      arbiter.clients[index]? = some client ∧
      service.machine.state? arbiter.name = some (Arbiter.held index) := by
  obtain ⟨⟨move, member, some, active⟩, state, shown, relying⟩ := critical
  obtain ⟨client, needs⟩ := Option.isSome_iff_exists.mp some
  obtain ⟨index, placed⟩ := List.mem_iff_getElem?.mp (served.clients move member client needs)
  obtain ⟨train, server, cell, seat, seated, named, called⟩ := served.seated declared runs
  have cellState := Machine.state?_eq service.names_nodup seated.atTrain
  have seatState := Machine.state?_eq service.names_nodup seated.atServer
  rw [named] at cellState
  rw [called] at seatState
  obtain rfl := Option.some.inj (cellState.symm.trans shown)
  have held := (seated.licensed.relies member needs placed (Memory.read_eq_ok.mp active).2 relying).1
  exact ⟨move, member, client, index, needs, placed, seatState.trans (congrArg _ held)⟩

end Service

end Schedule

section Stand

/-- Two trains `u` and `d` share the block `s` and the arbiter `a`. Each train needs a permission if
`c` is 1, and else waits for a turnout. -/
def standOrders : List Order := [
  .external "c", .external "m", .external "r", .block "s", .arbiter "a", .client 0 "l",
  .client 1 "r", .schedule "u", .schedule "d",
  .move 0 0 0 [(⟨0⟩, true)] (some 0) [], .move 2 0 0 [(⟨0⟩, false)] none [(⟨⟨1⟩, ⟨2⟩⟩, .thrown)],
  .move 1 0 0 [(⟨0⟩, true)] (some 1) [], .move 4 0 0 [(⟨0⟩, false)] none [(⟨⟨1⟩, ⟨2⟩⟩, .thrown)]]

/-- The stand as a train sees it. -/
def standBerth (here coming : Var) : Berth where
  block := "s"
  here := here
  coming := coming
  detector := ⟨3⟩
  requestGreen := ⟨68⟩
  routeOut := ⟨89⟩

/-- The plan of a train at the stand. -/
def standTrain (name : String) (go : Var) (berth : Berth) (client : Client) (shared own : Var) :
    Schedule where
  name := name
  go := go
  berths := [berth]
  moves := [
    { source := berth, target := berth, active := shared, guards := [(⟨0⟩, true)],
      client := some client },
    { source := berth, target := berth, active := own, guards := [(⟨0⟩, false)],
      turnouts := [(⟨⟨1⟩, ⟨2⟩⟩, .thrown)] }]

def leftClient : Client := ⟨"l", ⟨102⟩, ⟨103⟩, ⟨104⟩⟩

def rightClient : Client := ⟨"r", ⟨106⟩, ⟨107⟩, ⟨108⟩⟩

def upTrain : Schedule :=
  standTrain "u" ⟨110⟩ (standBerth ⟨112⟩ ⟨113⟩) leftClient ⟨114⟩ ⟨115⟩

def downTrain : Schedule :=
  standTrain "d" ⟨111⟩ (standBerth ⟨116⟩ ⟨117⟩) rightClient ⟨118⟩ ⟨119⟩

/-- What the orders declare in the end. -/
def standArbiter : Arbiter := ⟨"a", [leftClient, rightClient]⟩

/-- The two trains and their arbiter, if this happens to them. -/
def standService? (beats : List Beat) : Option Service :=
  Service.start? { detector := { debounceCycles := 0 } } standOrders
    [.train upTrain, .permission standArbiter, .train downTrain] {}
    ([Beat.write ⟨112⟩ true, .write ⟨116⟩ true] ++ beats)

/-- Both trains ask at the same time. -/
def sharedStand : Service :=
  (standService? [.write ⟨0⟩ true, .cycle, .cycle, .cycle, .cycle]).get (by decide +kernel)

theorem sharedStand_shows :
    standArbiter ∈ sharedStand.yard.arbiters ∧ .permission standArbiter ∈ sharedStand.sources ∧
    upTrain.ServedBy standArbiter upTrain.marks sharedStand ∧
    downTrain.ServedBy standArbiter downTrain.marks sharedStand ∧
    upTrain.Critical sharedStand.machine := by
  decide +kernel

/-- Both trains wait for the turnout when somebody tells them that they are on the shared move. -/
def forgedStand : Service :=
  (standService? [.cycle, .cycle, .cycle, .write ⟨114⟩ true, .write ⟨118⟩ true, .cycle]).get
    (by decide +kernel)

theorem forgedStand_shows :
    standArbiter ∈ forgedStand.yard.arbiters ∧ .permission standArbiter ∈ forgedStand.sources ∧
    upTrain.ServedBy standArbiter upTrain.clientBits forgedStand ∧
    downTrain.ServedBy standArbiter downTrain.clientBits forgedStand ∧
    upTrain.Critical forgedStand.machine ∧ downTrain.Critical forgedStand.machine := by
  decide +kernel

theorem standTrains_apart : ∀ move ∈ upTrain.moves, ∀ other ∈ downTrain.moves,
    ∀ client ∈ move.client, client ∉ other.client := by
  decide

end Stand

/-- It is not enough that nobody else writes the bits of the clients. -/
theorem forged_moves_share_permission :
    ¬∀ (service : Service) (arbiter : Arbiter) (first second : Schedule),
      arbiter ∈ service.yard.arbiters → .permission arbiter ∈ service.sources →
      first.ServedBy arbiter first.clientBits service →
      second.ServedBy arbiter second.clientBits service →
      (∀ move ∈ first.moves, ∀ other ∈ second.moves, ∀ client ∈ move.client,
        client ∉ other.client) →
      ¬(first.Critical service.machine ∧ second.Critical service.machine) := by
  intro exclusive
  obtain ⟨declared, runs, served, alsoServed, critical⟩ := forgedStand_shows
  exact exclusive forgedStand standArbiter upTrain downTrain declared runs served alsoServed
    standTrains_apart critical

/-- Two schedules whose permissions come from one arbiter, each from clients of its own, never
both rely on a permission, whatever happens to the other bits between the cycles. -/
theorem permissions_exclude_one_another (service : Service) (arbiter : Arbiter)
    (declared : arbiter ∈ service.yard.arbiters) (runs : .permission arbiter ∈ service.sources)
    (first second : Schedule) (served : first.ServedBy arbiter first.marks service)
    (alsoServed : second.ServedBy arbiter second.marks service)
    (own : ∀ move ∈ first.moves, ∀ other ∈ second.moves, ∀ client ∈ move.client,
      client ∉ other.client) :
    ¬(first.Critical service.machine ∧ second.Critical service.machine) := by
  rintro ⟨firstRelies, secondRelies⟩
  obtain ⟨move, member, client, index, needs, placed, holds⟩ :=
    served.holds declared runs firstRelies
  obtain ⟨other, known, rival, place, wants, alsoPlaced, alsoHolds⟩ :=
    alsoServed.holds declared runs secondRelies
  obtain ⟨automaton, built⟩ : ∃ automaton, arbiter.build = .ok automaton := by
    obtain ⟨index, found⟩ := List.mem_iff_getElem?.mp runs
    obtain ⟨automaton, built, -⟩ := Program.getElem?_of_source service.compiled found
    exact ⟨automaton, built⟩
  have same := (Arbiter.held_eq_iff (Arbiter.build_eq_ok built).2.2 placed alsoPlaced).mp
    (Option.some.inj (holds.symm.trans alsoHolds))
  subst same
  obtain rfl := Option.some.inj (placed.symm.trans alsoPlaced)
  exact own move member other known client needs wants

theorem permissions_exclude_one_another_at_stand :
    standArbiter ∈ sharedStand.yard.arbiters ∧ .permission standArbiter ∈ sharedStand.sources ∧
    upTrain.ServedBy standArbiter upTrain.marks sharedStand ∧
    downTrain.ServedBy standArbiter downTrain.marks sharedStand ∧
    upTrain.Critical sharedStand.machine ∧ ¬downTrain.Critical sharedStand.machine := by
  obtain ⟨declared, runs, served, alsoServed, critical⟩ := sharedStand_shows
  have exclusive := permissions_exclude_one_another sharedStand standArbiter declared runs upTrain
    downTrain served alsoServed standTrains_apart
  exact ⟨declared, runs, served, alsoServed, critical, fun other => exclusive ⟨critical, other⟩⟩

end Interlocking
