import Interlocking.Proofs.Operation
import Interlocking.Proofs.Vacancy
import Mathlib.Data.List.Infix

/-!
# Operation without trains

A run is free of trains if from outside nothing but requests and commands is written and all
sensors show 0 throughout. Such a run leaves the reservations undisturbed.
-/

namespace Interlocking

open Function (update)

/-- The variable that an event writes from outside. -/
def Event.var? : Event → Option Var
  | .turn _ => none
  | .write var _ => some var

namespace Layout

/-- The variables with which routes are asked for: the requests of endpoints and signals. -/
def requests (layout : Layout) : List Var :=
  layout.pieces.toList.flatMap fun piece =>
    match piece.body with
    | .straight { kind := .signal request _ _, .. } => [request]
    | .endpoint side => (layout.side? side).toList.map (·.bits.request)
    | _ => []

/-- The variables with which turnouts are driven. -/
def commands (layout : Layout) : List Var :=
  layout.pieces.toList.flatMap fun piece =>
    match piece.body with
    | .turnout { kind := .movable motor _ _, .. } => [motor.command]
    | _ => []

/-- The variables with which a layout without trains is worked. -/
def controls (layout : Layout) : List Var := layout.requests ++ layout.commands

/-- The variables that tell of trains from outside. -/
def sensors (layout : Layout) : List Var := layout.pieces.toList.flatMap Piece.sensors

variable {layout : Layout}

/-- A control is an outside variable or the request of an endpoint. -/
theorem Sound.role_control (sound : layout.Sound) {var : Var} (member : var ∈ layout.controls) :
    layout.role var = .outside var ∨
      ∃ side, ¬layout.Inner side ∧ layout.role var = .request side := by
  rcases List.mem_append.mp member with member | member
  · obtain ⟨piece, listed, member⟩ := List.mem_flatMap.mp member
    obtain ⟨id, found⟩ := mem_pieces.mp listed
    split at member
    · rename_i body
      obtain rfl := List.mem_singleton.mp member
      exact .inl (role_of_outside (sound.supplied found var (by simp [Piece.supplied, body])))
    · rename_i side body
      obtain ⟨name, occupancy, _⟩ := piece
      obtain rfl := body
      obtain ⟨record, known, rfl⟩ := List.mem_map.mp member
      exact .inr ⟨side, sound.not_inner_endpoint found,
        (sound.wired (Option.mem_toList.mp known)).request⟩
    · cases member
  · obtain ⟨piece, listed, member⟩ := List.mem_flatMap.mp member
    obtain ⟨id, found⟩ := mem_pieces.mp listed
    split at member
    · rename_i body
      obtain rfl := List.mem_singleton.mp member
      exact .inl (role_of_outside (sound.supplied found _ (by simp [Piece.supplied, body])))
    · cases member

/-- What holds of a machine as long as there are no trains. -/
structure Calm (layout : Layout) (machine : Machine) : Prop where
  automata : machine.automata = layout.automata
  safe : layout.Safe machine
  unnoticed : Unnoticed (layout.panel machine.memory)
  undisturbed : layout.Undisturbed (layout.panel machine.memory)

namespace Calm

variable {machine next : Machine}

theorem vacant (calm : layout.Calm machine)
    (undetected : ∀ var ∈ layout.sensors, machine.get var = .ok false) :
    layout.Vacant (layout.panel machine.memory) := by
  refine ⟨calm.unnoticed, ?_⟩
  intro id piece found var member
  have listed : var ∈ layout.sensors :=
    List.mem_flatMap.mpr ⟨piece, mem_pieces.mpr ⟨id, found⟩, member⟩
  rw [panel_role]
  exact (Memory.read_eq_ok.mp (undetected var listed)).2

theorem evaluate (calm : layout.Calm machine) (sound : layout.Sound)
    (undetected : ∀ var ∈ layout.sensors, machine.get var = .ok false) {index : Nat}
    (reacted : machine.react (.turn index) = .ok next) : layout.Calm next := by
  have safe := (calm.safe.react sound (show layout.Permits (.turn index) from trivial) reacted).1
  have automata := (Machine.automata_react reacted).trans calm.automata
  obtain ⟨changed, evaluated⟩ := Machine.react_turn_eq_ok reacted
  obtain ⟨cell, found, runs, _⟩ := layout.runs_of_evaluate evaluated
  have member : cell.automaton ∈ layout.automata := calm.automata ▸ Machine.mem_automata found
  obtain ⟨piece, listed, same⟩ := List.mem_map.mp member
  obtain ⟨id, known⟩ := mem_pieces.mp listed
  rw [← same] at runs
  have steady : layout.Steady (fun id => layout.panel machine.memory (.position id)) none
      (layout.panel machine.memory) := ⟨calm.safe.orderly, fun _ => rfl⟩
  obtain ⟨unnoticed, undisturbed⟩ := sound.vacant_turn known _ _
    ⟨steady, calm.vacant undetected, calm.undisturbed⟩ runs
  exact ⟨automata, safe, unnoticed, undisturbed⟩

theorem set (calm : layout.Calm machine) (sound : layout.Sound) {var : Var} {value : Bool}
    (permitted : layout.Permits (.write var value)) (control : var ∈ layout.controls)
    (reacted : machine.react (.write var value) = .ok next) : layout.Calm next := by
  have safe := (calm.safe.react sound permitted reacted).1
  have automata := (Machine.automata_react reacted).trans calm.automata
  obtain ⟨memory, stored, rfl⟩ := Machine.set_eq_ok reacted
  refine ⟨automata, safe, ?_, ?_⟩
  · simp only [panel_write stored]
    rcases sound.role_control control with role | ⟨side, _, role⟩
    · rw [role]
      exact ⟨by simpa using calm.unnoticed.seen, by simpa using calm.unnoticed.occupancy,
        by simpa using calm.unnoticed.helper⟩
    · rw [role]
      exact ⟨by simpa using calm.unnoticed.seen, by simpa using calm.unnoticed.occupancy,
        by simpa using calm.unnoticed.helper⟩
  · simp only [panel_write stored]
    rcases sound.role_control control with role | ⟨side, outer, role⟩
    · rw [role]
      apply calm.undisturbed.congr
      · intro role reserving _
        apply Function.update_of_ne
        rintro rfl
        cases reserving
      · simp
    · rw [role]
      apply calm.undisturbed.congr
      · intro role _ others
        exact Function.update_of_ne (others side) _ _
      · intro other inner
        apply Function.update_of_ne
        intro same
        exact outer (Role.request.inj same ▸ inner)

end Calm

end Layout

/-- Which variables are written from outside can be decided event by event. -/
instance Event.decidableForallWrite (events : List Event) (holds : Var → Prop)
    [DecidablePred holds] : Decidable (∀ var value, .write var value ∈ events → holds var) :=
  decidable_of_iff (∀ event ∈ events, ∀ var ∈ event.var?, holds var) <| by
    constructor
    · exact fun each var value listed => each _ listed var rfl
    · intro each event listed var written
      cases event with
      | turn => cases written
      | write other value =>
          obtain rfl := Option.some.inj written
          exact each _ value listed

/-- What holds throughout can be decided by playing the beginnings of the events. -/
instance Machine.decidableForallPlay (start : Machine) (events : List Event)
    (holds : Machine → Prop) [DecidablePred holds] :
    Decidable (∀ past machine, past <+: events → start.play past = .ok machine → holds machine) :=
  decidable_of_iff (∀ past ∈ events.inits, ∀ machine ∈ (start.play past).toOption, holds machine) <| by
    constructor
    · intro each past machine before played
      exact each past ((List.mem_inits _ _).mpr before) machine (by simp [played, Except.toOption])
    · intro each past before machine played
      refine each past machine ((List.mem_inits _ _).mp before) ?_
      cases outcome : start.play past with
      | error failure => simp [outcome, Except.toOption] at played
      | ok reached => simpa [outcome, Except.toOption] using played

namespace Operation

variable (operation : Operation)

/-- From outside nothing but requests and commands is written, and at no time does a sensor
show a train. -/
@[mk_iff]
structure TrainFree : Prop where
  alone : operation.sources = []
  driven : ∀ var value, .write var value ∈ operation.events → var ∈ operation.layout.controls
  undetected : ∀ past machine, past <+: operation.events →
    (Machine.powerOn operation.program operation.settings).play past = .ok machine →
    ∀ var ∈ operation.layout.sensors, machine.get var = .ok false

instance : Decidable operation.TrainFree := decidable_of_iff' _ (trainFree_iff ..)

/-- The places of a machine are taken by the automata of its program. -/
theorem automata_machine : operation.machine.automata = operation.program.automata := by
  refine Machine.play_induct
    (motive := fun _ machine => machine.automata = operation.program.automata) ?_ ?_ operation.played
  · exact Machine.automata_powerOn operation.program operation.settings
  · intro past event middle next _ _ same reacted
    exact (Machine.automata_react reacted).trans same

/-- Without arbiters and schedules a program has the automata of the layout's pieces. -/
theorem automata_of_alone (alone : operation.sources = []) :
    operation.program.automata = operation.layout.automata := by
  obtain ⟨-, extra, mapped, automata⟩ := Program.automata_of_compile operation.compiled
  rw [alone] at mapped
  obtain rfl := Except.ok.inj mapped
  exact automata.trans (List.append_nil _)

variable {operation} (free : operation.TrainFree)

include free

theorem TrainFree.automata : operation.program.automata = operation.layout.automata :=
  operation.automata_of_alone free.alone

/-- Without trains a machine stays calm. -/
theorem TrainFree.calm : operation.layout.Calm operation.machine := by
  have sound : operation.layout.Sound := operation.sound.layout
  refine Machine.play_induct (motive := fun _ machine => operation.layout.Calm machine) ?_ ?_
    operation.played
  · refine ⟨?_, operation.safe_powerOn, ?_, ?_⟩
    · rw [← free.automata]
      exact Machine.automata_powerOn operation.program operation.settings
    · simp only [Machine.powerOn, Layout.panel_zeros]
      exact ⟨fun _ => rfl, fun _ => rfl, fun _ => rfl⟩
    · simp only [Machine.powerOn, Layout.panel_zeros]
      exact .zeros operation.layout
  · intro past event middle next inside played calm reacted
    have listed : event ∈ operation.events := inside.subset (by simp)
    cases event with
    | turn index =>
        have before := (List.prefix_append past [.turn index]).trans inside
        exact calm.evaluate sound (free.undetected past middle before played) reacted
    | write var value =>
        exact calm.set sound (operation.permitted _ listed) (free.driven var value listed) reacted

/-- Without trains all bits that tell of trains are 0. -/
theorem TrainFree.vacant :
    operation.layout.Vacant (operation.layout.panel operation.machine.memory) :=
  free.calm.vacant (free.undetected _ _ (List.prefix_refl _) operation.played)

end Operation

end Interlocking
