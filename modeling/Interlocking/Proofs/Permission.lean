import Interlocking.Proofs.Arbitration
import Interlocking.Proofs.Cycles
import Interlocking.Proofs.Journeys

/-!
# One train at a time under a permission

A move that needs a permission asks an arbiter for it and relies on it until the train is
released. The request, the grant and the report that the permission was used travel between the
two automata with a delay of up to a cycle. Still a schedule never relies on a permission that is
not, or is no longer, its own: a report is cleared by the arbiter before the schedule can ask
again. So two schedules never rely on permissions of one arbiter at the same time.

This needs that nobody else writes the bits of the clients, and that nobody but the schedule
itself says which of its moves is active.
-/

namespace Interlocking

open Function (update)

namespace Schedule

/-- A move that needs a permission asks for it at these stages. -/
def Asking (state : State) : Prop :=
  state ∈ [Stage.permission, .recheck, .turnouts, .requestGreen, .greenWait, .startTrain].map
    Stage.state

/-- A move that needs a permission relies on it at these stages. -/
def Relying (state : State) : Prop :=
  state ∈ [Stage.recheck, .turnouts, .requestGreen, .greenWait, .startTrain].map Stage.state

instance : DecidablePred Asking := fun _ => inferInstanceAs (Decidable (_ ∈ _))

instance : DecidablePred Relying := fun _ => inferInstanceAs (Decidable (_ ∈ _))

theorem Relying.asking {state : State} (relying : Relying state) : Asking state :=
  List.mem_cons_of_mem _ relying

/-- All permissions of the schedule come from the arbiter, and no turnout is commanded through
the bits by which the schedule keeps track of its moves. -/
structure Under (schedule : Schedule) (arbiter : Arbiter) (yard : Yard) : Prop where
  listed : schedule.Listed yard
  nodup : (arbiter.clients.flatMap Client.vars).Nodup
  known : arbiter.clients ⊆ yard.clients
  clients : ∀ move ∈ schedule.moves, ∀ client, move.client = some client → client ∈ arbiter.clients
  commands : ∀ move ∈ schedule.moves, ∀ entry ∈ move.turnouts, entry.1.command ∉ schedule.marks

/-- What a schedule may rely on while the register of the arbiter stands at `register`. -/
structure Licensed (schedule : Schedule) (arbiter : Arbiter) (register : State) (view : View) :
    Prop where
  one : schedule.OneMove view
  asked : ∀ {move client}, move ∈ schedule.moves → move.client = some client →
    view.bits move.active = true → Asking view.state → view.bits client.request = true
  relies : ∀ {move client index}, move ∈ schedule.moves → move.client = some client →
    arbiter.clients[index]? = some client → view.bits move.active = true → Relying view.state →
    register = Arbiter.held index ∧ view.bits client.taken = false
  used : ∀ {move client index}, move ∈ schedule.moves → move.client = some client →
    arbiter.clients[index]? = some client → view.bits client.taken = true →
    register = Arbiter.held index
  tells : ∀ {move client index}, move ∈ schedule.moves → move.client = some client →
    arbiter.clients[index]? = some client →
    (view.bits client.granted = true ↔ register = Arbiter.held index)

/-- The schedule has no report with the arbiter. -/
def Fresh (schedule : Schedule) (view : View) : Prop :=
  ∀ {move client}, move ∈ schedule.moves → move.client = some client →
    view.bits client.taken = false

section Turn

variable {schedule : Schedule} {arbiter : Arbiter} {yard : Yard}

theorem vars_mem_marks {move : Move} (member : move ∈ schedule.moves) {client : Client}
    (needs : move.client = some client) {var : Var} (owned : var ∈ client.vars) :
    var ∈ schedule.marks :=
  List.mem_append_right _ (mem_clientBits member needs owned)

namespace Under

variable (under : schedule.Under arbiter yard)

include under

theorem apart : schedule.Apart schedule.marks :=
  under.listed.apart (List.subset_cons_self _ _) under.commands

theorem go_notMem_marks : schedule.go ∉ schedule.marks := by
  simp only [marks, clientBits, List.mem_append, List.mem_map, List.mem_flatMap,
    Option.mem_toList]
  rintro (⟨move, member, same⟩ | ⟨move, member, client, needs, owned⟩)
  · exact under.listed.active_ne_go member same
  · exact under.listed.own_notMem_common List.mem_cons_self
      (List.mem_append_right _ (under.listed.mem_common member needs owned))

theorem active_notMem_outputs {move : Move} (member : move ∈ schedule.moves) :
    move.active ∉ arbiter.outputs := by
  intro output
  obtain ⟨client, placed, output⟩ := List.mem_flatMap.mp output
  have owned : move.active ∈ client.vars := by
    simp only [List.mem_cons, List.not_mem_nil, or_false] at output
    rcases output with same | same <;> simp [same]
  exact under.listed.own_notMem_common
    (List.mem_cons_of_mem _ (List.mem_append_right _ (List.mem_map_of_mem member)))
    (List.mem_append_right _ (List.mem_flatMap.mpr ⟨client, under.known placed, owned⟩))

theorem request_notMem_outputs {client : Client} (placed : client ∈ arbiter.clients) :
    client.request ∉ arbiter.outputs := by
  intro output
  obtain ⟨other, alsoPlaced, output⟩ := List.mem_flatMap.mp output
  have owned : client.request ∈ other.vars := by
    simp only [List.mem_cons, List.not_mem_nil, or_false] at output
    rcases output with same | same <;> simp [same]
  obtain ⟨first, atFirst⟩ := List.mem_iff_getElem?.mp placed
  obtain ⟨second, atSecond⟩ := List.mem_iff_getElem?.mp alsoPlaced
  obtain rfl := index_eq_of_mem_parts under.nodup atFirst atSecond client.request_mem_vars owned
  obtain rfl := Option.some.inj (atFirst.symm.trans atSecond)
  have bits := vars_nodup under.nodup placed
  simp only [Client.vars, List.nodup_cons, List.mem_cons, List.not_mem_nil, or_false] at bits output
  exact bits.1 output

variable {move other : Move} {client rival : Client} (member : move ∈ schedule.moves)
  (needs : move.client = some client)

include member needs

theorem ne_go {var : Var} (owned : var ∈ client.vars) : var ≠ schedule.go := by
  rintro rfl
  exact under.listed.own_notMem_common List.mem_cons_self
    (List.mem_append_right _ (under.listed.mem_common member needs owned))

theorem ne_active {var : Var} (owned : var ∈ client.vars) (known : other ∈ schedule.moves) :
    var ≠ other.active := by
  rintro rfl
  exact under.listed.active_notMem_vars known member needs owned

theorem bits_ne : client.request ≠ client.granted ∧ client.request ≠ client.taken ∧
    client.granted ≠ client.taken := by
  have bits := vars_nodup under.nodup (under.clients move member client needs)
  simpa [Client.vars, and_assoc] using bits

variable (known : other ∈ schedule.moves) (wants : other.client = some rival)

include known wants

/-- The bits of the clients that a schedule uses belong to one client each. -/
theorem client_eq {left right : Var} (owned : left ∈ client.vars) (alsoOwned : right ∈ rival.vars)
    (same : left = right) : client = rival := by
  obtain ⟨first, atFirst⟩ := List.mem_iff_getElem?.mp (under.clients move member client needs)
  obtain ⟨second, atSecond⟩ := List.mem_iff_getElem?.mp (under.clients other known rival wants)
  obtain rfl := index_eq_of_mem_parts under.nodup atFirst atSecond owned (same ▸ alsoOwned)
  exact Option.some.inj (atFirst.symm.trans atSecond)

theorem granted_ne : client.granted ≠ rival.request ∧ client.granted ≠ rival.taken := by
  obtain ⟨first, -, last⟩ := under.bits_ne known wants
  constructor
  · intro same
    obtain rfl := under.client_eq member needs known wants (by simp) (by simp) same
    exact first same.symm
  · intro same
    obtain rfl := under.client_eq member needs known wants (by simp) (by simp) same
    exact last same

theorem taken_ne_request : client.taken ≠ rival.request := by
  intro same
  obtain rfl := under.client_eq member needs known wants (by simp) (by simp) same
  exact (under.bits_ne known wants).2.1 same.symm

end Under

/-- A bit of a client that is no request changes in no deed but the release of a train. -/
theorem Deed.untouched (under : schedule.Under arbiter yard) {view next : View}
    (deed : schedule.Deed schedule.marks view next) {move : Move} {client : Client}
    (member : move ∈ schedule.moves) (needs : move.client = some client) {var : Var}
    (owned : var ∈ client.vars) (notRequest : ∀ {other rival}, other ∈ schedule.moves →
      other.client = some rival → var ≠ rival.request) :
    next.bits var = view.bits var ∨ ∃ other ∈ schedule.moves, view.bits other.active = true ∧
      view.state = Stage.startTrain.state ∧ next.state = Stage.moving.state ∧
      next.bits var = (view.carry (permissionUsed other.client)).bits var := by
  have mark := vars_mem_marks member needs owned
  have notGo := under.ne_go member needs owned
  have notActive : ∀ {other}, other ∈ schedule.moves → var ≠ other.active :=
    under.ne_active member needs owned
  cases deed with
  | pick known _ _ bits | finish known _ _ _ bits => simp [bits _ mark, notActive known]
  | prepare _ _ _ _ _ bits | permit _ _ _ _ _ _ bits | confirm _ _ _ _ bits
  | command _ _ _ _ bits | set _ _ _ _ _ bits | signal _ _ _ _ bits | start _ _ _ _ _ bits
  | leave _ _ _ _ bits | forget _ _ bits | recover _ _ bits | wake _ _ bits =>
      exact .inl (bits _ mark)
  | ask known wants _ _ _ bits => simp [bits _ mark, notRequest known wants]
  | abandon known wants _ _ _ bits =>
      simp [bits _ mark, notRequest known wants, notActive known]
  | @depart other known active before after bits =>
      refine .inr ⟨other, known, active, before, after, ?_⟩
      rw [bits _ mark, View.carry_cons]
      refine View.bits_carry_congr ?_ _
      simp [notGo]
  | arrive _ _ _ _ bits => simp [bits _ mark, notGo]
  | restart _ _ bits =>
      left
      rw [bits _ mark]
      apply View.bits_carry_clear_of_notMem
      simp only [List.mem_cons, List.mem_map, not_or, not_exists, not_and]
      exact ⟨notGo, fun other known same => notActive known same.symm⟩

/-- A schedule never writes its grants. -/
theorem Deed.granted (under : schedule.Under arbiter yard) {view next : View}
    (deed : schedule.Deed schedule.marks view next) {move : Move} {client : Client}
    (member : move ∈ schedule.moves) (needs : move.client = some client) :
    next.bits client.granted = view.bits client.granted := by
  have apart : ∀ {other rival}, other ∈ schedule.moves → other.client = some rival →
      client.granted ≠ rival.request ∧ client.granted ≠ rival.taken :=
    under.granted_ne member needs
  rcases deed.untouched under member needs client.granted_mem_vars
    (fun known wants => (apart known wants).1) with same | ⟨other, known, _, _, _, same⟩
  · exact same
  · rw [same]
    cases wants : other.client with
    | none => rfl
    | some rival => simp [permissionUsed, apart known wants]

/-- A schedule reports that a permission was used only when it releases the train. -/
theorem Deed.taken (under : schedule.Under arbiter yard) {view next : View}
    (deed : schedule.Deed schedule.marks view next) {move : Move} {client : Client}
    (member : move ∈ schedule.moves) (needs : move.client = some client) :
    next.bits client.taken = view.bits client.taken ∨ ∃ other ∈ schedule.moves,
      other.client = some client ∧ view.bits other.active = true ∧
        view.state = Stage.startTrain.state ∧ next.state = Stage.moving.state := by
  rcases deed.untouched under member needs client.taken_mem_vars
    (under.taken_ne_request member needs) with same | ⟨other, known, active, before, after, same⟩
  · exact .inl same
  · cases wants : other.client with
    | none => exact .inl (by rw [same, wants]; rfl)
    | some rival =>
        by_cases own : client.taken = rival.taken
        · obtain rfl := under.client_eq member needs known wants (by simp) (by simp) own
          exact .inr ⟨other, known, wants, active, before, after⟩
        · left
          simp [same, wants, permissionUsed, own, under.taken_ne_request member needs known wants]

/-- In a turn that releases the train, the schedule gets no further than to rest. -/
def Released (state : State) : Prop :=
  state ∈ [Stage.moving.state, Stage.stopTrain.state, Stage.done.state, .base]

instance : DecidablePred Released := fun _ => inferInstanceAs (Decidable (_ ∈ _))

theorem Deed.released {vars : List Var} {view next : View} (deed : schedule.Deed vars view next)
    (released : Released view.state) : Released next.state := by
  cases deed with
  | pick _ before | prepare _ _ _ before | ask _ _ _ before | permit _ _ _ _ before
  | confirm _ _ before | abandon _ _ _ before | command _ _ before | set _ _ _ before
  | signal _ _ before | start _ _ _ before | depart _ _ before | forget before | recover before
  | restart before | wake before =>
      rw [before] at released
      exact absurd released (by decide)
  | arrive _ _ _ after | leave _ _ _ after | finish _ _ _ after =>
      rw [after]
      decide

section Licence

variable {view next : View} {register : State}

/-- Nothing is lost by what changes neither the register nor the marks. -/
theorem Licensed.frame (licensed : schedule.Licensed arbiter register view)
    (state : next.state = view.state) (bits : next.Shows schedule.marks view.bits) :
    schedule.Licensed arbiter register next := by
  have actives : ∀ {move}, move ∈ schedule.moves → next.bits move.active = view.bits move.active :=
    fun member => bits _ (active_mem_marks member)
  have owned : ∀ {move client}, move ∈ schedule.moves → move.client = some client →
      ∀ {var}, var ∈ client.vars → next.bits var = view.bits var :=
    fun member needs _ owned => bits _ (vars_mem_marks member needs owned)
  refine ⟨licensed.one.stays (fun move => actives) ?_, ?_, ?_, ?_, ?_⟩
  · rw [state]
    exact (Classical.em _).symm
  · intro move client member needs active asking
    rw [owned member needs client.request_mem_vars]
    exact licensed.asked member needs (actives member ▸ active) (state ▸ asking)
  · intro move client index member needs placed active relying
    rw [owned member needs client.taken_mem_vars]
    exact licensed.relies member needs placed (actives member ▸ active) (state ▸ relying)
  · intro move client index member needs placed used
    rw [owned member needs client.taken_mem_vars] at used
    exact licensed.used member needs placed used
  · intro move client index member needs placed
    rw [owned member needs client.granted_mem_vars]
    exact licensed.tells member needs placed

theorem Fresh.frame (fresh : schedule.Fresh view) (bits : next.Shows schedule.marks view.bits) :
    schedule.Fresh next := by
  intro move client member needs
  rw [bits _ (vars_mem_marks member needs client.taken_mem_vars)]
  exact fresh member needs

/-- A schedule that leaves all marks keeps what it relies on. -/
theorem Licensed.goes_on (licensed : schedule.Licensed arbiter register view)
    (bits : next.Shows schedule.marks view.bits) (relying : Relying view.state) {move : Move}
    {client : Client} (member : move ∈ schedule.moves) (needs : move.client = some client)
    (active : next.bits move.active = true) :
    next.bits client.request = true ∧ ∀ {index}, arbiter.clients[index]? = some client →
      register = Arbiter.held index ∧ next.bits client.taken = false := by
  rw [bits _ (active_mem_marks member)] at active
  rw [bits _ (vars_mem_marks member needs client.request_mem_vars),
    bits _ (vars_mem_marks member needs client.taken_mem_vars)]
  exact ⟨licensed.asked member needs active relying.asking,
    fun placed => licensed.relies member needs placed active relying⟩

variable (under : schedule.Under arbiter yard) (done : schedule.Deed schedule.marks view next)
  (licensed : schedule.Licensed arbiter register view)

include under done licensed

/-- A report is made only for a permission that the schedule holds. -/
theorem Licensed.used_deed {move : Move} {client : Client} {index : Nat}
    (member : move ∈ schedule.moves) (needs : move.client = some client)
    (placed : arbiter.clients[index]? = some client) (used : next.bits client.taken = true) :
    register = Arbiter.held index := by
  rcases done.taken under member needs with same | ⟨other, known, wants, active, before, _⟩
  · exact licensed.used member needs placed (same ▸ used)
  · exact (licensed.relies known wants placed active (by rw [before]; decide)).1

/-- At the stages at which it is needed, the permission is asked for and later relied on. No
report is pending when the permission is found granted. -/
theorem Licensed.relies_deed (fresh : schedule.Fresh view ∨ Released view.state) {move : Move}
    {client : Client} (member : move ∈ schedule.moves) (needs : move.client = some client)
    (active : next.bits move.active = true) (asking : Asking next.state) :
    next.bits client.request = true ∧ (Relying next.state → ∀ {index},
      arbiter.clients[index]? = some client →
        register = Arbiter.held index ∧ next.bits client.taken = false) := by
  -- Only the move at hand is active, so its client is the one in question.
  have only : ∀ {other}, other ∈ schedule.moves → view.bits other.active = true →
      view.bits move.active = true → other.client = some client := by
    intro other known otherActive active
    rw [licensed.one.single other known move member otherActive active, needs]
  have goes : next.Shows schedule.marks view.bits → Relying view.state →
      next.bits client.request = true ∧ (Relying next.state → ∀ {index},
        arbiter.clients[index]? = some client →
          register = Arbiter.held index ∧ next.bits client.taken = false) := by
    intro bits relying
    obtain ⟨request, held⟩ := licensed.goes_on bits relying member needs active
    exact ⟨request, fun _ => held⟩
  cases done with
  | pick _ _ after | abandon _ _ _ _ after | depart _ _ _ after | arrive _ _ _ after
  | leave _ _ _ after | finish _ _ _ after | forget _ after | recover _ after | restart _ after
  | wake _ after =>
      rw [after] at asking
      exact absurd asking (by decide)
  | prepare known needsNone otherActive before after bits =>
      rw [bits _ (active_mem_marks member)] at active
      have wants := only known otherActive active
      rw [needsNone] at wants
      cases wants
  | @ask other rival known wants otherActive before after bits =>
      have apart := (under.ne_active known wants rival.request_mem_vars member).symm
      rw [bits _ (active_mem_marks member), Function.update_of_ne apart] at active
      obtain rfl := Option.some.inj (wants.symm.trans (only known otherActive active))
      constructor
      · rw [bits _ (vars_mem_marks known wants rival.request_mem_vars), Function.update_self]
      · intro relying
        rw [after] at relying
        exact absurd relying (by decide)
  | @permit other rival known wants otherActive granted before after bits =>
      rw [bits _ (active_mem_marks member)] at active
      obtain rfl := Option.some.inj (wants.symm.trans (only known otherActive active))
      constructor
      · rw [bits _ (vars_mem_marks known wants rival.request_mem_vars)]
        exact licensed.asked member needs active (by rw [before]; decide)
      · intro _ index placed
        have unreleased : ¬Released view.state := by
          rw [before]
          decide
        rw [bits _ (vars_mem_marks known wants rival.taken_mem_vars)]
        exact ⟨(licensed.tells known wants placed).mp granted,
          (fresh.resolve_right unreleased) known wants⟩
  | confirm _ _ before _ bits | command _ _ before _ bits | set _ _ _ before _ bits
  | signal _ _ before _ bits | start _ _ _ before _ bits =>
      exact goes bits (by rw [before]; decide)

/-- Every deed keeps to the licence. -/
theorem Licensed.deed (fresh : schedule.Fresh view ∨ Released view.state) :
    schedule.Licensed arbiter register next ∧ (schedule.Fresh next ∨ Released next.state) := by
  refine ⟨⟨licensed.one.deed under.listed (fun move => active_mem_marks) done, ?_, ?_,
    licensed.used_deed under done, ?_⟩, ?_⟩
  · intro move client member needs active asking
    exact (licensed.relies_deed under done fresh member needs active asking).1
  · intro move client index member needs placed active relying
    exact (licensed.relies_deed under done fresh member needs active relying.asking).2 relying placed
  · intro move client index member needs placed
    rw [done.granted under member needs]
    exact licensed.tells member needs placed
  · rcases fresh with fresh | released
    · by_cases released : Released next.state
      · exact .inr released
      · left
        intro move client member needs
        rcases done.taken under member needs with same | ⟨_, _, _, _, _, after⟩
        · rw [same]
          exact fresh member needs
        · rw [after] at released
          exact absurd (by decide) released
    · exact .inr (done.released released)

omit done in
/-- The opening rules touch no mark, and nothing is asked for behind them. -/
theorem Licensed.opening (opening : schedule.Opening schedule.marks view next) :
    schedule.Licensed arbiter register next ∧ next.Shows schedule.marks view.bits := by
  have bits : next.Shows schedule.marks view.bits := by
    cases opening with
    | stop _ _ bits =>
        intro var mark
        have notGo : var ≠ schedule.go := fun same => under.go_notMem_marks (same ▸ mark)
        rw [bits var mark, Function.update_of_ne notGo]
    | wait _ _ bits => exact bits
  have idle : ¬Asking next.state := by
    cases opening with
    | stop _ after | wait _ after =>
        rw [after]
        decide
  have one := licensed.one.opening under.listed (fun move => active_mem_marks) opening
  refine ⟨⟨one, fun _ _ _ asking => absurd asking idle,
    fun _ _ _ _ relying => absurd relying.asking idle, ?_, ?_⟩, bits⟩
  · intro move client index member needs placed used
    rw [bits _ (vars_mem_marks member needs client.taken_mem_vars)] at used
    exact licensed.used member needs placed used
  · intro move client index member needs placed
    rw [bits _ (vars_mem_marks member needs client.granted_mem_vars)]
    exact licensed.tells member needs placed

omit done in
/-- A turn of the schedule that finds no report pending keeps to the licence. -/
theorem Licensed.turn (fresh : schedule.Fresh view) (layout : Layout) :
    schedule.Licensed arbiter register (view.tick.pass (schedule.build layout).rules) := by
  have ticked : view.tick.Shows schedule.marks view.bits := fun _ _ => by rw [View.bits_tick]
  rw [rules_build, View.pass_append]
  have opened : schedule.Licensed arbiter register (view.tick.pass schedule.openingRules) ∧
      schedule.Fresh (view.tick.pass schedule.openingRules) := by
    refine View.pass_induct (motive := fun view => schedule.Licensed arbiter register view ∧
      schedule.Fresh view) ?_ ⟨licensed.frame View.state_tick ticked, fresh.frame ticked⟩
    intro rule member view ⟨licensed, fresh⟩ enabled
    obtain ⟨stays, bits⟩ := licensed.opening under (opening_of_mem member enabled)
    exact ⟨stays, fresh.frame bits⟩
  refine (View.pass_induct (motive := fun view => schedule.Licensed arbiter register view ∧
    (schedule.Fresh view ∨ Released view.state)) ?_ ⟨opened.1, .inl opened.2⟩).1
  intro rule member view ⟨licensed, fresh⟩ enabled
  exact licensed.deed under (deed_of_mem under.apart enabled member) fresh

omit done licensed in
/-- A turn of the arbiter keeps the licence of a schedule and takes note of its report. -/
theorem Licensed.served {automaton : Automaton} (built : arbiter.build = .ok automaton)
    {seat : View} (same : seat.bits = view.bits)
    (licensed : schedule.Licensed arbiter seat.state view) {after : View}
    (turned : after = seat.pass automaton.rules) (state : next.state = view.state)
    (bits : next.bits = after.bits) :
    schedule.Licensed arbiter after.state next ∧ schedule.Fresh next := by
  have fits := (Arbiter.build_eq_ok built).2.2
  have kept : ∀ {var}, var ∉ arbiter.outputs → next.bits var = view.bits var := by
    intro var apart
    rw [bits, turned, ← same]
    exact View.bits_pass fun rule member written =>
      apart (Arbiter.build_writesOnly built rule member written)
  have actives : ∀ {move}, move ∈ schedule.moves → next.bits move.active = view.bits move.active :=
    fun member => kept (under.active_notMem_outputs member)
  have fresh : schedule.Fresh next := by
    intro move client member needs
    obtain ⟨index, placed⟩ := List.mem_iff_getElem?.mp (under.clients move member client needs)
    rw [bits, turned]
    refine Arbiter.unused_turn under.nodup fits placed built ?_
    intro used
    exact licensed.used member needs placed (same ▸ used)
  refine ⟨⟨licensed.one.stays (fun move => actives) ?_, ?_, ?_, ?_, ?_⟩, fresh⟩
  · rw [state]
    exact (Classical.em _).symm
  · intro move client member needs active asking
    rw [kept (under.request_notMem_outputs (under.clients move member client needs))]
    exact licensed.asked member needs (actives member ▸ active) (state ▸ asking)
  · intro move client index member needs placed active relying
    rw [state] at relying
    rw [actives member] at active
    -- A permission that is relied on is not taken away.
    obtain ⟨holds, unused⟩ := licensed.relies member needs placed active relying
    have asks := licensed.asked member needs active relying.asking
    rw [← same] at unused asks
    rw [turned, Arbiter.pass_of_held fits placed built holds asks unused]
    exact ⟨holds, fresh member needs⟩
  · intro move client index member needs _ used
    rw [fresh member needs] at used
    cases used
  · intro move client index member needs placed
    have tells : Arbiter.Tells after index client := by
      rw [turned]
      refine Arbiter.pass_induct (motive := fun view => Arbiter.Tells view index client) built
        (fun _ _ tells deed => deed.tells under.nodup fits placed tells) ?_
      rw [Arbiter.Tells, same]
      exact licensed.tells member needs placed
    rw [bits]
    exact tells

end Licence

end Turn

end Schedule

end Interlocking
