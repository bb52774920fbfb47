import Interlocking.Proofs.LineCycles
import Interlocking.Proofs.RouteSafety
import Interlocking.Proofs.TrainFree
import Mathlib.Data.Nat.Find

/-!
# Reservation of a line from end to end

A route over a line of any length is asked for at its endpoint. The machine settles with a route
that is set from end to end or with a denial, depending on whether a detector of the line shows
a train, and when the request is taken back nothing is left of either.
-/

namespace Interlocking

open Function (update)

namespace Line

variable {layout : Layout} (line : Line layout)

/-- The detectors of the tracks. -/
def detectors : List Var :=
  line.tracks.filterMap fun track =>
    match track.straight.kind with
    | .detector var => some var
    | _ => none

/-- The route and pending bits of both directions of all tracks. -/
def marks : List Var :=
  line.tracks.flatMap fun track =>
    [track.straight.ab, track.straight.ba].flatMap fun passage => [passage.route, passage.pending]

/-- The handshake bits of both sides of all tracks. -/
def handshakes : List Var :=
  line.tracks.flatMap fun track =>
    [track.straight.a, track.straight.b].flatMap fun side =>
      (layout.side? side).elim [] fun record => record.bits.vars

variable {line} {request : Bool} {occupied : Nat → Bool} {hops : Nat → Hop} {panel : Panel}
  {machine : Machine} {settings : SimConfig}

theorem mem_detectors {var : Var} : var ∈ line.detectors ↔
    ∃ track ∈ line.tracks, track.straight.kind = .detector var ∧ track.occupancy = var := by
  simp only [detectors, List.mem_filterMap]
  constructor
  · intro ⟨track, member, detects⟩
    refine ⟨track, member, ?_⟩
    rcases track.plain with kind | kind | kind <;> simp_all
  · intro ⟨track, member, kind, _⟩
    exact ⟨track, member, by simp [kind]⟩

theorem role_detector (sound : layout.Sound) {var : Var} (member : var ∈ line.detectors) :
    layout.role var = .outside var ∧ var.index < layout.table.span := by
  obtain ⟨⟨id, name, occupancy, ⟨⟨seen, ab, ba⟩, kind, a, b⟩, found, _⟩, _, rfl, _⟩ :=
    mem_detectors.mp member
  have outside := sound.supplied found var (by simp [Piece.supplied])
  exact ⟨Layout.role_of_outside outside, outside.1⟩

/-- The place at which the endpoint asks. -/
theorem exists_first (line : Line layout) : ∃ first, line.Stands 0 line.side first :=
  ⟨_, List.getElem?_eq_getElem (List.length_pos_iff.mpr line.nonempty), rfl⟩

section Asking

variable (sound : layout.Sound)

include sound

theorem side_found (line : Line layout) : ∃ own, layout.side? line.side = some own := by
  obtain ⟨own, found, _⟩ := Option.bind_eq_some_iff.mp
    (sound.owner_of_listed line.found (show line.side ∈ _ by simp [Piece.sides]))
  exact ⟨own, found⟩

theorem not_idle_request : ¬line.Idle (.request line.side) := by
  have differs : ∀ track : Track layout, track.straight.a ≠ line.side := by
    intro track same
    have absent : track.straight.a ∉ line.exits := a_not_mem_exits sound track
    exact absent (same ▸ List.mem_cons_self)
  intro idle
  cases idle with
  | track member idle =>
      rename_i track
      simp only [Track.idles, List.mem_append, List.mem_flatMap, Option.mem_toList] at idle
      rcases idle with own | ⟨mate, onward, listed⟩
      · simp at own
      · obtain ⟨place, known⟩ := List.mem_iff_getElem?.mp member
        obtain ⟨asker, stands⟩ := stands_of_getElem? known
        rw [stands.mate_b] at onward
        obtain ⟨follower, _, rfl⟩ := Option.map_eq_some_iff.mp onward
        simp [(differs follower).symm] at listed
  | back member idle =>
      rename_i track
      simp [(differs track).symm] at idle
  | terminus member unbound idle => simp at idle

/-- The endpoint asks for a route or takes its request back. -/
theorem Shows.ask (shows : line.Shows request occupied hops panel) (value : Bool) :
    line.Shows value occupied hops (update panel (.request line.side) value) where
  request := Function.update_self ..
  idle := by
    intro role idle
    rw [Function.update_of_ne, shows.idle idle]
    rintro rfl
    exact not_idle_request sound idle
  occupied := by
    intro place track known
    rw [Function.update_of_ne, shows.occupied known]
    intro same
    have aside := sound.occupancy_aside track.found
    simp only [same] at aside
    cases aside
  hops := by
    intro place asker track stands
    rw [← shows.hops stands]
    simp [Track.hop, (stands.side_ne_b sound).symm]

end Asking

section Reading

variable (sound : layout.Sound) (hosts : layout.Hosts settings machine)
  (shows : line.Shows request occupied hops (layout.panel machine.memory))

include sound hosts shows

theorem Shows.get_endpoint {own : Side} (found : layout.side? line.side = some own) :
    machine.get own.bits.request = .ok request ∧ machine.get own.bits.granted = .ok (hops 0).granted ∧
      machine.get own.bits.denied = .ok (hops 0).denied ∧
      machine.get own.bits.released = .ok false := by
  obtain ⟨first, stands⟩ := line.exists_first
  rw [← shows.hops stands, ← shows.request, ← shows.idle .released]
  exact sound.get_side hosts.size found

/-- No track is in use from side `b` to side `a`, and the marks of the other direction are those
of the hops. -/
theorem Shows.get_marks {place : Nat} {asker : SideId} {track : Track layout}
    (stands : line.Stands place asker track) :
    machine.get track.straight.ab.route = .ok (hops place).route ∧
      machine.get track.straight.ab.pending = .ok (hops place).pending ∧
      machine.get track.straight.ba.route = .ok false ∧
      machine.get track.straight.ba.pending = .ok false := by
  obtain ⟨route, pending⟩ := sound.get_way hosts.size track.way_ab
  obtain ⟨back, waiting⟩ := sound.get_way hosts.size track.way_ba
  obtain ⟨unrouted, unpending⟩ := (shows.ready stands.member).unopposed
  rw [← shows.hops stands, route, pending, back, waiting, unrouted, unpending]
  exact ⟨rfl, rfl, rfl, rfl⟩

/-- Where the hops mark nothing, no mark is set. -/
theorem Shows.marks_off
    (off : ∀ place < line.tracks.length, (hops place).route = false ∧ (hops place).pending = false) :
    ∀ var ∈ line.marks, machine.get var = .ok false := by
  intro var member
  obtain ⟨track, listed, member⟩ := List.mem_flatMap.mp member
  obtain ⟨place, known⟩ := List.mem_iff_getElem?.mp listed
  obtain ⟨asker, stands⟩ := stands_of_getElem? known
  obtain ⟨route, pending, back, waiting⟩ := shows.get_marks sound hosts stands
  rw [(off place stands.inside).1] at route
  rw [(off place stands.inside).2] at pending
  simp only [List.flatMap_cons, List.flatMap_nil, List.append_nil, List.mem_append, List.mem_cons,
    List.not_mem_nil, or_false] at member
  rcases member with (rfl | rfl) | rfl | rfl
  · exact route
  · exact pending
  · exact back
  · exact waiting

/-- Where the hops ask and answer nothing behind the first track, no bit is set there. -/
theorem Shows.handshakes_off
    (off : ∀ place < line.tracks.length, (hops place).request = false ∧
      (hops place).released = false ∧ (0 < place → (hops place).granted = false ∧
        (hops place).denied = false)) :
    ∀ var ∈ line.handshakes, machine.get var = .ok false := by
  intro var member
  obtain ⟨track, listed, member⟩ := List.mem_flatMap.mp member
  obtain ⟨side, bounds, member⟩ := List.mem_flatMap.mp member
  obtain ⟨place, known⟩ := List.mem_iff_getElem?.mp listed
  obtain ⟨asker, stands⟩ := stands_of_getElem? known
  have shown : ∀ role ∈ [Role.request side, .granted side, .denied side, .released side],
      layout.panel machine.memory role = false := by
    simp only [List.mem_cons, List.not_mem_nil, or_false] at bounds
    rcases bounds with rfl | rfl
    · -- Nothing is asked for from the far end of the line.
      have back : ∀ role ∈ [Role.request track.straight.a, .granted track.straight.a,
          .denied track.straight.a], layout.panel machine.memory role = false :=
        fun role idle => shows.idle (.back listed idle)
      have released := shows.idle (.track listed (show Role.released track.straight.a ∈ track.idles by
        simp [Track.idles]))
      simp_all
    · have own := shows.hops stands
      have asked := off place stands.inside
      rw [← own] at asked
      have answered : layout.panel machine.memory (.granted track.straight.b) = false ∧
          layout.panel machine.memory (.denied track.straight.b) = false := by
        cases found : line.tracks[place + 1]? with
        | some follower =>
            have next := stands.next found
            have answers := (off (place + 1) next.inside).2.2 (Nat.succ_pos place)
            rw [← shows.hops next] at answers
            exact answers
        | none =>
            have unbound : layout.mate? track.straight.b = none := by
              rw [stands.mate_b, found]
              rfl
            exact ⟨shows.idle (.terminus listed unbound (by simp)),
              shows.idle (.terminus listed unbound (by simp))⟩
      simp only [List.forall_mem_cons]
      exact ⟨asked.1, answered.1, answered.2, asked.2.1, by simp⟩
  cases foundSide : layout.side? side with
  | none => simp [foundSide] at member
  | some record =>
      obtain ⟨request, granted, denied, released⟩ := sound.get_side hosts.size foundSide
      simp only [List.forall_mem_cons] at shown
      rw [foundSide] at member
      simp only [Option.elim_some, Handshake.vars, List.mem_cons, List.not_mem_nil, or_false] at member
      rcases member with rfl | rfl | rfl | rfl
      · rw [request, shown.1]
      · rw [granted, shown.2.1]
      · rw [denied, shown.2.2.1]
      · rw [released, shown.2.2.2.1]

end Reading

end Line

namespace Layout

variable {layout : Layout} {settings : SimConfig} {machine : Machine}

/-- A bit of the layout can be written. -/
theorem Hosts.set (hosts : layout.Hosts settings machine) {var : Var}
    (inside : var.index < layout.table.span) (value : Bool) :
    ∃ next, machine.set var value = .ok next ∧ layout.Hosts settings next ∧
      layout.panel next.memory = update (layout.panel machine.memory) (layout.role var) value := by
  obtain ⟨memory, stored⟩ := Memory.write_ok (hosts.size ▸ inside) value
  have size := (Memory.write_eq_ok stored).1.trans hosts.size
  exact ⟨{ machine with memory }, Machine.set_of_write stored,
    ⟨hosts.automata, size, hosts.reverse, hosts.bound, hosts.fresh⟩, panel_write stored⟩

end Layout

/-- The machine settles with what the hops say, and after the request at the endpoint was taken
back it settles without a trace of it. -/
def Line.Answers {layout : Layout} (line : Line layout) (settings : SimConfig) (own : Side)
    (occupied : Nat → Bool) (hops : Nat → Hop) (machine : Machine) : Prop :=
  ∃ answered clearing cleared, machine.settle = .ok (answered, true) ∧
    answered.set own.bits.request false = .ok clearing ∧ clearing.settle = .ok (cleared, true) ∧
    (layout.Hosts settings answered ∧
      line.Shows true occupied hops (layout.panel answered.memory)) ∧
    layout.Hosts settings cleared ∧
      line.Shows false occupied (fun _ => {}) (layout.panel cleared.memory)

namespace Line

section Phases

variable {layout : Layout} {line : Line layout} {settings : SimConfig} {machine : Machine}
  {occupied : Nat → Bool} {own : Side} (sound : layout.Sound)
  (found : layout.side? line.side = some own) (hosts : layout.Hosts settings machine)

include sound found hosts

/-- The request at the endpoint is written. -/
theorem Shows.set {request : Bool} {hops : Nat → Hop}
    (shows : line.Shows request occupied hops (layout.panel machine.memory)) (value : Bool) :
    ∃ next, machine.set own.bits.request value = .ok next ∧ layout.Hosts settings next ∧
      line.Shows value occupied hops (layout.panel next.memory) := by
  have inside : own.bits.request.index < layout.table.span :=
    sound.reserved (.request line.side, own.bits.request)
      (Layout.mem_roles_side found (by simp [Handshake.roles]))
  obtain ⟨next, written, hosted, shown⟩ := hosts.set inside value
  refine ⟨next, written, hosted, ?_⟩
  rw [shown, (sound.wired found).request]
  exact shows.ask sound value

omit found in
/-- A line at rest settles at once. -/
theorem Shows.settle_at_rest
    (shows : line.Shows false occupied (fun _ => {}) (layout.panel machine.memory))
    (enough : 1 < settings.maxSettleCycles.toNat) :
    ∃ next, machine.settle = .ok (next, true) ∧ layout.Hosts settings next ∧
      line.Shows false occupied (fun _ => {}) (layout.panel next.memory) := by
  let idle : Wave (line.setting false occupied) (line.follows settings.reverseOrder) := .rest rfl
  have resting : line.Shows false occupied (fun place => idle.plan place 0)
    (layout.panel machine.memory) := shows
  exact resting.settle sound hosts Nat.one_pos enough

/-- A line that is asked for a route settles where a wave ends, and where another wave that goes
on from there leaves nothing, it settles without a trace after the request was taken back. -/
theorem Shows.answers {asked : Wave (line.setting true occupied) (line.follows settings.reverseOrder)}
    {unasked : Wave (line.setting false occupied) (line.follows settings.reverseOrder)}
    (shows : line.Shows true occupied (fun _ => {}) (layout.panel machine.memory))
    (starts : ∀ place, asked.plan place 0 = {})
    (continues : ∀ place, unasked.plan place 0 = asked.final place)
    (ends : ∀ place, unasked.final place = {}) (positive : 0 < asked.last ∧ 0 < unasked.last)
    (enough : asked.last < settings.maxSettleCycles.toNat ∧
      unasked.last < settings.maxSettleCycles.toNat) :
    line.Answers settings own occupied asked.final machine := by
  have begun := shows.congr fun place _ => (starts place).symm
  obtain ⟨answered, settled, hosted, shown⟩ := begun.settle sound hosts positive.1 enough.1
  obtain ⟨clearing, written, hostedNext, shownNext⟩ := shown.set sound found hosted false
  have goes := shownNext.congr fun place _ => (continues place).symm
  obtain ⟨cleared, ended, hostedLast, shownLast⟩ := goes.settle sound hostedNext positive.2 enough.2
  exact ⟨answered, clearing, cleared, settled, written, ended, ⟨hosted, shown⟩, hostedLast,
    shownLast.congr fun place _ => ends place⟩

variable (shows : line.Shows true occupied (fun _ => {}) (layout.panel machine.memory))
  (enough : line.tracks.length + 3 ≤ settings.maxSettleCycles.toNat)

include shows enough

/-- On a free line the route is set from end to end. -/
theorem Shows.answers_of_free (free : ∀ place < line.tracks.length, occupied place = false) :
    line.Answers settings own occupied (fun place =>
      { granted := true, route := true, request := (line.setting true occupied).linked place })
      machine := by
  let asked : Wave (line.setting true occupied) (line.follows settings.reverseOrder) :=
    .grant rfl free
  let unasked : Wave (line.setting false occupied) (line.follows settings.reverseOrder) :=
    .release rfl free
  have lengths : asked.last = line.tracks.length ∧ unasked.last = line.tracks.length + 1 := ⟨rfl, rfl⟩
  have room := List.length_pos_iff.mpr line.nonempty
  have starts : ∀ place, asked.plan place 0 = {} := granting_zero _ _
  have continues : ∀ place, unasked.plan place 0 = asked.final place := releasing_zero _ _
  exact shows.answers sound found hosts starts continues (fun _ => rfl) (by omega) (by omega)

/-- A line with an occupied track denies the request at its entry. -/
theorem Shows.answers_of_occupied {place : Nat} (inside : place < line.tracks.length)
    (blocked : occupied place = true) :
    line.Answers settings own occupied (fun place => { denied := decide (place = 0) }) machine := by
  -- The first occupied track refuses.
  have present : ∃ place, occupied place = true := ⟨place, blocked⟩
  have free : ∀ earlier < Nat.find present, occupied earlier = false :=
    fun earlier before => Bool.not_eq_true _ ▸ Nat.find_min present before
  have near : Nat.find present < line.tracks.length :=
    Nat.lt_of_le_of_lt (Nat.find_min' present blocked) inside
  let asked : Wave (line.setting true occupied) (line.follows settings.reverseOrder) :=
    .refusal rfl free near (Nat.find_spec present)
  let unasked : Wave (line.setting false occupied) (line.follows settings.reverseOrder) :=
    .relent rfl
  have lengths : asked.last = line.tracks.length + 1 ∧ unasked.last = 1 := ⟨rfl, rfl⟩
  have starts : ∀ place, asked.plan place 0 = {} := fun place => refusing_zero _ place _
  have continues : ∀ place, unasked.plan place 0 = asked.final place := by
    intro place
    simp [unasked, asked, Wave.relent, Wave.refusal, relenting]
  exact shows.answers sound found hosts starts continues (fun _ => rfl) (by omega) (by omega)

end Phases

end Line

namespace Operation

variable {operation : Operation} (line : Line operation.layout)

/-- Nothing but detectors of the line was written. -/
def Watched : Prop :=
  ∀ event ∈ operation.events, ∃ var ∈ line.detectors, ∃ value, event = .write var value

/-- Whether a track shows a train. -/
def occupied (place : Nat) : Bool :=
  (line.tracks[place]?).elim false fun track => operation.machine.memory.value track.occupancy

variable {line} (alone : operation.sources = []) (watched : operation.Watched line)

include alone watched

/-- A machine that was not run shows a line at rest. -/
theorem Watched.begins : operation.layout.Hosts operation.settings operation.machine ∧
    line.Shows false (operation.occupied line) (fun _ => {})
      (operation.layout.panel operation.machine.memory) := by
  have sound : operation.layout.Sound := operation.sound.layout
  have table := (Program.automata_of_compile operation.compiled).1
  obtain ⟨hosts, zero⟩ : operation.layout.Hosts operation.settings operation.machine ∧
      ∀ role, (∀ var, role ≠ .outside var) →
        operation.layout.panel operation.machine.memory role = false := by
    refine Machine.play_induct (motive := fun _ machine =>
      operation.layout.Hosts operation.settings machine ∧ ∀ role, (∀ var, role ≠ .outside var) →
        operation.layout.panel machine.memory role = false) ?_ ?_ operation.played
    · refine ⟨⟨?_, ?_, rfl, rfl, ?_⟩, ?_⟩
      · rw [Machine.automata_powerOn, operation.automata_of_alone alone]
      · simp [Machine.powerOn, Memory.zeros, table, layout, yard]
      · intro cell member
        simp only [Machine.powerOn, List.mem_toArray] at member
        obtain ⟨automaton, _, rfl⟩ := List.mem_map.mp member
        exact ⟨rfl, .inl rfl⟩
      · simp only [Machine.powerOn, Layout.panel_zeros]
        exact fun _ _ => trivial
    · rintro past event middle next inside _ ⟨hosts, zero⟩ reacted
      obtain ⟨var, member, value, rfl⟩ := watched event (inside.subset (by simp))
      obtain ⟨role, held⟩ := Line.role_detector sound member
      obtain ⟨next', written, hosted, shown⟩ := hosts.set held value
      obtain rfl := Except.ok.inj (written.symm.trans reacted)
      refine ⟨hosted, fun other apart => ?_⟩
      rw [shown, role, Function.update_of_ne (apart var), zero other apart]
  refine ⟨hosts, ?_, ?_, ?_, ?_⟩
  · exact zero _ (by simp)
  · intro role idle
    refine zero role fun var outside => ?_
    subst outside
    cases idle with
    | track member idle => simp [Track.idles] at idle
    | back member idle => simp at idle
    | terminus member unbound idle => simp at idle
  · intro place track known
    simp [occupied, known, Layout.panel_role]
  · intro place asker track stands
    have off : ∀ role ∈ track.writes asker,
        operation.layout.panel operation.machine.memory role = false := by
      intro role member
      refine zero role fun var outside => ?_
      subst outside
      simp [Track.writes] at member
    simp only [Track.writes, List.forall_mem_cons] at off
    simp only [Track.hop, off]

/-- A track is occupied if its detector shows a train. -/
theorem Watched.occupied_iff : (∃ place < line.tracks.length, operation.occupied line place = true) ↔
    ∃ var ∈ line.detectors, operation.machine.get var = .ok true := by
  have sound : operation.layout.Sound := operation.sound.layout
  obtain ⟨hosts, shows⟩ := watched.begins alone
  constructor
  · rintro ⟨place, inside, present⟩
    have known := List.getElem?_eq_getElem inside
    have member := List.mem_of_getElem? known
    rw [← shows.occupied known, Layout.panel_role] at present
    by_cases kind : line.tracks[place].straight.kind = .detector line.tracks[place].occupancy
    · have listed : line.tracks[place].occupancy ∈ line.detectors :=
        Line.mem_detectors.mpr ⟨_, member, kind, rfl⟩
      refine ⟨_, listed, Memory.read_eq_ok.mpr ⟨?_, present⟩⟩
      rw [hosts.size]
      exact (Line.role_detector sound listed).2
    · -- A track without a detector is not occupied as long as there are no trains.
      have simulated : line.tracks[place].straight.simulated = true := by
        rcases line.tracks[place].plain with short | long | detector
        · simp [Straight.simulated, short]
        · simp [Straight.simulated, long]
        · exact absurd detector kind
      rw [← Layout.panel_role, Track.role_occupancy sound simulated,
        shows.idle (.track member (by simp [Track.idles]))] at present
      cases present
  · rintro ⟨var, listed, shown⟩
    obtain ⟨track, member, _, rfl⟩ := Line.mem_detectors.mp listed
    obtain ⟨place, known⟩ := List.mem_iff_getElem?.mp member
    refine ⟨place, (List.getElem?_eq_some_iff.mp known).1, ?_⟩
    simpa [occupied, known] using (Memory.read_eq_ok.mp shown).2

end Operation

section Siding

/-- Behind the endpoint `e` lie the long piece `l`, the piece `d` with the detector `s`, and the
short piece `k`, declared in another order. -/
def siding : List Order := [
  .external "s", .endpoint "e", .short "k", .detector "d" ⟨0⟩, .long "l", .join ⟨0⟩ ⟨5⟩,
  .join ⟨6⟩ ⟨3⟩, .join ⟨4⟩ ⟨1⟩]

/-- A train stands in the middle of the siding. The pieces take their turns in the opposite
order, and there is no more time to settle than the siding needs. -/
def blockedSiding : Operation :=
  (Operation.start? {} siding [] { maxSettleCycles := 6, reverseOrder := true }
    [.write ⟨0⟩ true]).get (by decide +kernel)

/-- The long piece of the siding. -/
def sidingLong : Straight :=
  ⟨⟨⟨98⟩, ⟨⟨5⟩, ⟨6⟩, ⟨99⟩, ⟨100⟩, none⟩, ⟨⟨6⟩, ⟨5⟩, ⟨101⟩, ⟨102⟩, none⟩⟩, .long, ⟨5⟩, ⟨6⟩⟩

/-- The piece with a detector. -/
def sidingDetector : Straight :=
  ⟨⟨⟨65⟩, ⟨⟨3⟩, ⟨4⟩, ⟨66⟩, ⟨67⟩, none⟩, ⟨⟨4⟩, ⟨3⟩, ⟨68⟩, ⟨69⟩, none⟩⟩, .detector ⟨0⟩, ⟨3⟩, ⟨4⟩⟩

/-- The short piece of the siding. -/
def sidingShort : Straight :=
  ⟨⟨⟨34⟩, ⟨⟨1⟩, ⟨2⟩, ⟨35⟩, ⟨36⟩, none⟩, ⟨⟨2⟩, ⟨1⟩, ⟨37⟩, ⟨38⟩, none⟩⟩, .short, ⟨1⟩, ⟨2⟩⟩

theorem blockedSiding_shows :
    blockedSiding.sources = [] ∧ blockedSiding.events = [.write ⟨0⟩ true] ∧
    blockedSiding.settings.maxSettleCycles = 6 ∧ blockedSiding.layout.pieces = #[
      ⟨"e", ⟨9⟩, .endpoint ⟨0⟩⟩, ⟨"k", ⟨33⟩, .straight sidingShort⟩,
      ⟨"d", ⟨0⟩, .straight sidingDetector⟩, ⟨"l", ⟨97⟩, .straight sidingLong⟩] ∧
    blockedSiding.layout.side? ⟨0⟩ = some ⟨"side", ⟨0⟩, ⟨⟨1⟩, ⟨2⟩, ⟨3⟩, ⟨4⟩⟩, some ⟨5⟩⟩ ∧
    [⟨0⟩, ⟨6⟩, ⟨4⟩, ⟨2⟩].map blockedSiding.layout.mate? = [some ⟨5⟩, some ⟨3⟩, some ⟨1⟩, none] ∧
    blockedSiding.machine.get ⟨0⟩ = .ok true := by
  decide +kernel

theorem blockedSiding_piece (index : Nat) : blockedSiding.layout.piece? ⟨index⟩ =
    [⟨"e", ⟨9⟩, .endpoint ⟨0⟩⟩, ⟨"k", ⟨33⟩, .straight sidingShort⟩,
      ⟨"d", ⟨0⟩, .straight sidingDetector⟩, ⟨"l", ⟨97⟩, .straight sidingLong⟩][index]? := by
  obtain ⟨_, _, _, pieces, _⟩ := blockedSiding_shows
  simp [Layout.piece?, pieces]

/-- The siding is a line. -/
def sidingLine : Line blockedSiding.layout where
  id := ⟨0⟩
  name := "e"
  occupancy := ⟨9⟩
  side := ⟨0⟩
  found := blockedSiding_piece 0
  tracks := [
    ⟨⟨3⟩, "l", ⟨97⟩, sidingLong, blockedSiding_piece 3, by decide⟩,
    ⟨⟨2⟩, "d", ⟨0⟩, sidingDetector, blockedSiding_piece 2, by decide⟩,
    ⟨⟨1⟩, "k", ⟨33⟩, sidingShort, blockedSiding_piece 1, by decide⟩]
  nonempty := by simp
  joined := by
    obtain ⟨_, _, _, _, _, mates, _⟩ := blockedSiding_shows
    exact mates
  complete := by
    intro ⟨index⟩ piece known
    rw [blockedSiding_piece, List.getElem?_eq_some_iff] at known
    obtain ⟨inside, _⟩ := known
    have listed : index = 0 ∨ index = 1 ∨ index = 2 ∨ index = 3 := by
      simp only [List.length_cons, List.length_nil] at inside
      omega
    rcases listed with rfl | rfl | rfl | rfl <;> simp

end Siding

/-- A route over a line of any length is reserved from end to end or denied at the entry, and
nothing is left of it when the request is taken back. -/
theorem line_reserves_and_releases (operation : Operation) (alone : operation.sources = [])
    (line : Line operation.layout) (watched : operation.Watched line)
    (enough : line.tracks.length + 3 ≤ operation.settings.maxSettleCycles.toNat) :
    ∃ own ready asking answered clearing cleared,
      operation.layout.side? line.side = some own ∧
      operation.machine.settle = .ok (ready, true) ∧
      ready.set own.bits.request true = .ok asking ∧ asking.settle = .ok (answered, true) ∧
      answered.set own.bits.request false = .ok clearing ∧ clearing.settle = .ok (cleared, true) ∧
      ((∀ var ∈ line.detectors, operation.machine.get var = .ok false) →
        answered.get own.bits.granted = .ok true ∧ ∀ track ∈ line.tracks,
          answered.get track.straight.ab.route = .ok true ∧
          answered.get track.straight.ab.pending = .ok false ∧
          answered.get track.straight.ba.route = .ok false ∧
          answered.get track.straight.ba.pending = .ok false) ∧
      ((∃ var ∈ line.detectors, operation.machine.get var = .ok true) →
        answered.get own.bits.denied = .ok true ∧ answered.get own.bits.granted = .ok false ∧
          ∀ var ∈ line.marks ++ line.handshakes, answered.get var = .ok false) ∧
      ∀ var ∈ own.bits.vars ++ (line.marks ++ line.handshakes), cleared.get var = .ok false := by
  have sound : operation.layout.Sound := operation.sound.layout
  obtain ⟨own, found⟩ := line.side_found sound
  obtain ⟨hosts, shows⟩ := watched.begins alone
  obtain ⟨ready, settled, hostedReady, shown⟩ := shows.settle_at_rest sound hosts (by omega)
  obtain ⟨asking, written, hostedAsking, asks⟩ := shown.set sound found hostedReady true
  have cleared_off : ∀ cleared : Machine, operation.layout.Hosts operation.settings cleared →
      line.Shows false (operation.occupied line) (fun _ => {})
        (operation.layout.panel cleared.memory) →
      ∀ var ∈ own.bits.vars ++ (line.marks ++ line.handshakes), cleared.get var = .ok false := by
    intro cleared hosted shown
    obtain ⟨request, granted, denied, released⟩ := shown.get_endpoint sound hosted found
    simp only [List.forall_mem_append]
    refine ⟨?_, shown.marks_off sound hosted (by simp), shown.handshakes_off sound hosted (by simp)⟩
    simp [Handshake.vars, request, granted, denied, released]
  by_cases blocked : ∃ place < line.tracks.length, operation.occupied line place = true
  · obtain ⟨place, inside, present⟩ := blocked
    obtain ⟨answered, clearing, cleared, settledAgain, takenBack, ended, ⟨hosted, answer⟩,
      hostedLast, last⟩ :=
      asks.answers_of_occupied sound found hostedAsking enough inside present
    refine ⟨own, ready, asking, answered, clearing, cleared, found, settled, written, settledAgain,
      takenBack, ended, ?_, ?_, cleared_off cleared hostedLast last⟩
    · intro undetected
      obtain ⟨var, listed, detected⟩ := (watched.occupied_iff alone).mp ⟨place, inside, present⟩
      rw [undetected var listed] at detected
      cases detected
    · intro _
      obtain ⟨_, granted, denied, _⟩ := answer.get_endpoint sound hosted found
      refine ⟨denied, granted, List.forall_mem_append.mpr
        ⟨answer.marks_off sound hosted (by simp), answer.handshakes_off sound hosted ?_⟩⟩
      intro place _
      simp only [decide_eq_false_iff_not, true_and]
      omega
  · obtain ⟨answered, clearing, cleared, settledAgain, takenBack, ended, ⟨hosted, answer⟩,
      hostedLast, last⟩ :=
      asks.answers_of_free sound found hostedAsking enough (by simpa using blocked)
    refine ⟨own, ready, asking, answered, clearing, cleared, found, settled, written, settledAgain,
      takenBack, ended, ?_, ?_, cleared_off cleared hostedLast last⟩
    · intro _
      refine ⟨(answer.get_endpoint sound hosted found).2.1, fun track member => ?_⟩
      obtain ⟨place, known⟩ := List.mem_iff_getElem?.mp member
      obtain ⟨asker, stands⟩ := Line.stands_of_getElem? known
      exact answer.get_marks sound hosted stands
    · intro detected
      exact absurd ((watched.occupied_iff alone).mpr detected) blocked

theorem line_reserves_and_releases_on_siding :
    blockedSiding.sources = [] ∧ blockedSiding.Watched sidingLine ∧ sidingLine.tracks.length = 3 ∧
      blockedSiding.settings.maxSettleCycles = 6 ∧
      ∃ ready asking answered clearing cleared,
        blockedSiding.machine.settle = .ok (ready, true) ∧ ready.set ⟨1⟩ true = .ok asking ∧
        asking.settle = .ok (answered, true) ∧ answered.set ⟨1⟩ false = .ok clearing ∧
        clearing.settle = .ok (cleared, true) ∧ answered.get ⟨3⟩ = .ok true ∧
        cleared.get ⟨3⟩ = .ok false := by
  obtain ⟨alone, events, limit, _, side, _, shown⟩ := blockedSiding_shows
  have listed : ⟨0⟩ ∈ sidingLine.detectors := by simp [Line.detectors, sidingLine, sidingDetector]
  have watched : blockedSiding.Watched sidingLine := by
    intro event member
    rw [events] at member
    exact ⟨⟨0⟩, listed, true, List.mem_singleton.mp member⟩
  refine ⟨alone, watched, rfl, limit, ?_⟩
  obtain ⟨own, ready, asking, answered, clearing, cleared, found, settled, asks, settledAgain,
    takesBack, ended, _, denied, off⟩ := line_reserves_and_releases blockedSiding alone sidingLine
      watched (by rw [limit]; decide)
  obtain rfl := Option.some.inj (side.symm.trans found)
  exact ⟨ready, asking, answered, clearing, cleared, settled, asks, settledAgain, takesBack, ended,
    (denied ⟨⟨0⟩, listed, shown⟩).1, off ⟨3⟩ (by simp [Handshake.vars])⟩

end Interlocking
