import Interlocking.Proofs.Custody
import Interlocking.Proofs.Measurement
import Mathlib.Data.List.GetD

/-!
# Filtered sensors

A filter makes the occupancy follow its sensor, but only values that have stayed for longer than
its window. It remembers one value of the sensor and counts with one timer. All the same it does
exactly what one would say of the whole history of its sensor: the occupancy takes a value when
the last samples have all had it, one more than the window, and stays as it is otherwise.
-/

namespace Interlocking

open Function (update)

theorem toNat_pos_of_ne_zero {timer : UInt8} (running : timer ≠ 0) : 0 < timer.toNat := by
  by_contra none
  exact running (UInt8.toNat_inj.mp (by simpa using none))

namespace View

variable {view : View} {rules : List Rule} {actions : List Action}

theorem toNat_timer_tick (view : View) : view.tick.timer.toNat = view.timer.toNat - 1 := by
  unfold tick
  split
  · rename_i stopped
    simp [stopped]
  · rename_i running
    exact UInt8.toNat_sub_of_le _ 1 (UInt8.le_iff_toNat_le.mpr (toNat_pos_of_ne_zero running))

/-- A timer that no action starts is left alone. -/
theorem timer_carry (untimed : ∀ cycles, .loadTimer cycles ∉ actions) :
    (view.carry actions).timer = view.timer := by
  induction actions generalizing view with
  | nil => rfl
  | cons action actions ih =>
      have rest : ∀ cycles, .loadTimer cycles ∉ actions :=
        fun cycles member => untimed cycles (List.mem_cons_of_mem _ member)
      rw [carry_cons, ih rest]
      cases action with
      | set | goto => rfl
      | loadTimer cycles => exact absurd List.mem_cons_self (untimed cycles)

theorem timer_pass (untimed : Layout.Untimed rules) : (view.pass rules).timer = view.timer := by
  refine pass_induct (motive := fun next => next.timer = view.timer) ?_ rfl
  intro rule member next same _
  exact (timer_carry (untimed rule member)).trans same

end View

section Rules

variable {view : View} {occupancy raw shadow : Var} {window : UInt8}

/-- First a filter takes note of its sensor. A change starts the timer. -/
theorem pass_noteRules (rawShadow : raw ≠ shadow) :
    view.pass [
      { conditions := [.on raw, .off shadow], actions := [.raise shadow, .loadTimer window] },
      { conditions := [.off raw, .on shadow], actions := [.clear shadow, .loadTimer window] }] =
    { view with
      bits := update view.bits shadow (view.bits raw)
      timer := if view.bits shadow = view.bits raw then view.timer else window } := by
  obtain ⟨bits, state, timer⟩ := view
  cases sensed : bits raw <;> cases noted : bits shadow <;>
    simp [View.pass, View.fire, View.Enables, View.Meets, sensed, noted, rawShadow]

/-- The noted value is let through if no timer runs. -/
theorem pass_followRules (shadowOccupancy : shadow ≠ occupancy) :
    view.pass [
      { conditions := [.on shadow, .off occupancy, .timerExpired], actions := [.raise occupancy] },
      { conditions := [.off shadow, .on occupancy, .timerExpired],
        actions := [.clear occupancy] }] =
    { view with
      bits := update view.bits occupancy
        (if view.timer = 0 then view.bits shadow else view.bits occupancy) } := by
  obtain ⟨bits, state, timer⟩ := view
  by_cases expired : timer = 0
  · cases noted : bits shadow <;> cases occupied : bits occupancy <;>
      simp [View.pass, View.fire, View.Enables, View.Meets, expired, noted, occupied,
        shadowOccupancy]
  · simp [View.pass, View.fire, View.Enables, View.Meets, expired]

variable {rest : List Rule} (rawShadow : raw ≠ shadow) (shadowOccupancy : shadow ≠ occupancy)
  (spared : ∀ rule ∈ rest, ∀ var ∈ rule.writes, var ≠ occupancy ∧ var ≠ shadow)
  (untimed : Layout.Untimed rest)

include rawShadow shadowOccupancy spared untimed

/-- What a turn does with the value of the sensor if nothing behind the filter concerns it. -/
theorem pass_filterRules {next : View}
    (passed : next = view.tick.pass (filterRules occupancy raw window shadow ++ rest)) :
    next.bits shadow = view.bits raw ∧
      next.timer = (if view.bits shadow = view.bits raw then view.tick.timer else window) ∧
      next.bits occupancy =
        if next.timer = 0 then view.bits raw else view.bits occupancy := by
  have kept : ∀ {view : View} {var}, var = occupancy ∨ var = shadow →
      (view.pass rest).bits var = view.bits var := by
    intro view var either
    refine View.bits_pass fun rule member written => ?_
    obtain ⟨notOccupancy, notShadow⟩ := spared rule member var written
    exact either.elim notOccupancy notShadow
  have split : filterRules occupancy raw window shadow = [_, _] ++ [_, _] := rfl
  rw [split, View.pass_append, View.pass_append, pass_noteRules rawShadow,
    pass_followRules shadowOccupancy] at passed
  subst passed
  rw [kept (.inl rfl), kept (.inr rfl), View.timer_pass untimed]
  simp [shadowOccupancy, shadowOccupancy.symm]

end Rules

/-- The last samples of a sensor, one more than the window, have the value. The latest sample
comes first, and before the first one the sensor counts as 0. -/
def Held (window : UInt8) (value : Bool) (samples : List Bool) : Prop :=
  ∀ age < window.toNat + 1, samples.getD age false = value

instance (window : UInt8) (value : Bool) : DecidablePred (Held window value) := fun samples =>
  inferInstanceAs (Decidable (∀ age < window.toNat + 1, samples.getD age false = value))

/-- What a filter should make of the samples: the latest value if it was held, and otherwise what
was made of the samples before. -/
def debounce (window : UInt8) : List Bool → Bool
  | [] => false
  | sample :: earlier =>
      if Held window sample (sample :: earlier) then sample else debounce window earlier

section Samples

variable {window : UInt8} {value : Bool} {samples : List Bool}

/-- A value that was held is seen. -/
theorem debounce_of_held (held : Held window value samples) : debounce window samples = value := by
  have latest := held 0 (Nat.succ_pos _)
  cases samples with
  | nil => exact latest
  | cons sample earlier =>
      obtain rfl : sample = value := latest
      exact if_pos held

/-- A pulse that does not last longer than the window is not seen. -/
theorem debounce_pulse {pulse earlier : List Bool} (steady : ∀ sample ∈ pulse, sample = value)
    (short : pulse.length ≤ window.toNat) (begins : earlier.headD false ≠ value) :
    debounce window (pulse ++ earlier) = debounce window earlier := by
  induction pulse with
  | nil => rfl
  | cons sample pulse ih =>
      obtain ⟨rfl, steady⟩ := List.forall_mem_cons.mp steady
      rw [List.length_cons] at short
      rw [List.cons_append, debounce, if_neg, ih steady (by omega)]
      intro held
      have changed := held (pulse.length + 1) (by omega)
      rw [List.getD_cons_succ, List.getD_append_right _ _ _ _ (Nat.le_refl _),
        Nat.sub_self] at changed
      cases earlier with
      | nil => exact begins changed
      | cons other earlier => exact begins changed

end Samples

/-- The noted value is the latest sample, and the timer tells for how long it has to stay: the
samples that have it so far and those to wait for are one more than the window. -/
structure Counts (shadow : Var) (window : UInt8) (samples : List Bool) (view : View) : Prop where
  bounded : view.timer.toNat ≤ window.toNat
  steady : ∀ age < window.toNat + 1 - view.timer.toNat, samples.getD age false = view.bits shadow
  changed : view.timer ≠ 0 →
    samples.getD (window.toNat + 1 - view.timer.toNat) false ≠ view.bits shadow

/-- A filter counts its samples and shows what it should make of them. -/
structure Filters (occupancy shadow : Var) (window : UInt8) (samples : List Bool) (view : View) :
    Prop where
  counts : Counts shadow window samples view
  occupied : view.bits occupancy = debounce window samples

section Turns

variable {view next : View} {occupancy raw shadow : Var} {window : UInt8} {samples : List Bool}

/-- The timer has expired exactly if the noted value was held. -/
theorem Counts.held_iff (counts : Counts shadow window samples view) :
    Held window (view.bits shadow) samples ↔ view.timer = 0 := by
  constructor
  · intro held
    by_contra running
    have waiting := toNat_pos_of_ne_zero running
    exact counts.changed running (held _ (by omega))
  · intro expired age young
    refine counts.steady age ?_
    rw [expired, UInt8.toNat_zero]
    exact young

theorem Counts.sample {value : Bool} (counts : Counts shadow window samples view)
    (noted : next.bits shadow = value)
    (timer : next.timer = if view.bits shadow = value then view.tick.timer else window) :
    Counts shadow window (value :: samples) next := by
  have bounded := counts.bounded
  by_cases same : view.bits shadow = value
  · -- One sample more has the value, and one less is to be waited for.
    have counted : next.timer.toNat = view.timer.toNat - 1 := by
      rw [timer, if_pos same, view.toNat_timer_tick]
    refine ⟨by omega, ?_, ?_⟩
    · intro age young
      rw [noted]
      cases age with
      | zero => rfl
      | succ age => exact same ▸ counts.steady age (by omega)
    · intro running
      have waiting := toNat_pos_of_ne_zero running
      have before : view.timer ≠ 0 := by
        intro expired
        rw [counted, expired] at waiting
        exact absurd waiting (by decide)
      rw [noted, counted, show window.toNat + 1 - (view.timer.toNat - 1) =
        window.toNat + 1 - view.timer.toNat + 1 by omega, List.getD_cons_succ]
      exact same ▸ counts.changed before
  · -- The waiting begins anew.
    have counted : next.timer.toNat = window.toNat := by rw [timer, if_neg same]
    refine ⟨by omega, ?_, ?_⟩
    · intro age young
      obtain rfl : age = 0 := by omega
      exact noted.symm
    · intro _
      rw [noted, counted, Nat.add_sub_cancel_left, List.getD_cons_succ]
      exact counts.steady 0 (by omega) ▸ same

/-- In its turn a filter takes a sample. -/
theorem Filters.turn (filters : Filters occupancy shadow window samples view)
    (rawShadow : raw ≠ shadow) (shadowOccupancy : shadow ≠ occupancy) {rest : List Rule}
    (spared : ∀ rule ∈ rest, ∀ var ∈ rule.writes, var ≠ occupancy ∧ var ≠ shadow)
    (untimed : Layout.Untimed rest) :
    Filters occupancy shadow window (view.bits raw :: samples)
      (view.tick.pass (filterRules occupancy raw window shadow ++ rest)) := by
  generalize passes : view.tick.pass (filterRules occupancy raw window shadow ++ rest) = passed
  obtain ⟨noted, timer, occupied⟩ :=
    pass_filterRules rawShadow shadowOccupancy spared untimed passes.symm
  have counts := filters.counts.sample noted timer
  have held := counts.held_iff
  rw [noted] at held
  refine ⟨counts, ?_⟩
  simp only [debounce, held, occupied, filters.occupied]

end Turns

namespace Machine

/-- The values that a variable has when the automaton at a place takes its turns in a run, the
latest first. -/
def samples (place : Nat) (var : Var) : List Event → Machine → List Bool
  | [], _ => []
  | event :: events, machine =>
      (match machine.react event with
        | .ok next => samples place var events next
        | .error _ => []) ++
      if event = .turn place then [machine.memory.value var] else []

variable {machine middle : Machine} {place : Nat} {var : Var}

theorem samples_concat {past : List Event} (event : Event)
    (played : machine.play past = .ok middle) :
    machine.samples place var (past ++ [event]) =
      (if event = .turn place then [middle.memory.value var] else []) ++
        machine.samples place var past := by
  induction past generalizing machine with
  | nil =>
      obtain rfl := Except.ok.inj played
      rw [List.nil_append, samples, samples, List.append_nil]
      cases machine.react event <;> rfl
  | cons first past ih =>
      obtain ⟨next, reacted, played⟩ := foldlM_cons_eq_ok.mp played
      rw [List.cons_append, samples, samples, reacted]
      simp only [ih played, List.append_assoc]

end Machine

/-- No automaton but the one of the piece itself concerns its occupancy and its helper. -/
theorem Operation.ignores (operation : Operation) {id : PieceId} {index : Nat}
    {automaton : Automaton} (listed : operation.program.automata[index]? = some automaton)
    (apart : index ≠ id.index) : operation.layout.Ignores id automaton.rules := by
  rcases operation.mem_automata (List.mem_of_getElem? listed) with member | ⟨_, writes, outside⟩
  · obtain ⟨piece, known, rfl⟩ := List.mem_map.mp member
    obtain ⟨other, found⟩ := Layout.mem_pieces.mp known
    obtain rfl := Automaton.index_eq_of_name (Program.names_nodup operation.compiled) listed
      (Program.getElem?_of_piece operation.compiled found) rfl
    refine operation.sound.layout.ignores_automaton found ?_
    rintro rfl
    exact apart rfl
  · intro rule member var written
    exact .of_outside (outside var (writes rule member written))

/-- The values that a variable has had in the turns of a piece, the latest first. -/
def Operation.samples (operation : Operation) (id : PieceId) (var : Var) : List Bool :=
  (Machine.powerOn operation.program operation.settings).samples id.index var operation.events

section Filter

variable {id : PieceId} {name : String} {occupancy raw shadow : Var} {window : UInt8}
  {straight : Straight}

/-- The filter has its occupancy and its helper for itself. -/
theorem Operation.entrusts_filter (operation : Operation)
    (found : operation.layout.piece? id = some { name, occupancy, body := .straight straight })
    (kind : straight.kind = .filtered raw window shadow) :
    operation.program.Entrusts id.index [occupancy, shadow] operation.events := by
  have sound : operation.layout.Sound := operation.sound.layout
  have spared : ∀ {var}, operation.layout.Spares id var → var ∉ [occupancy, shadow] := by
    intro var spares
    obtain ⟨notOccupancy, notShadow⟩ := sound.ne_of_spares found kind spares
    simp [notOccupancy, notShadow]
  constructor
  · intro ⟨automaton, index⟩ stands apart rule member var written
    have placed := List.mem_zipIdx_iff_getElem?.mp stands
    exact spared (operation.ignores placed apart rule member var written)
  · intro var listed value written
    exact spared (sound.spares_of_permits found (operation.permitted _ written)) listed

/-- In every operation a filter shows what it should make of its samples. -/
theorem Operation.filters (operation : Operation)
    (found : operation.layout.piece? id = some { name, occupancy, body := .straight straight })
    (kind : straight.kind = .filtered raw window shadow) :
    operation.program.Sees id.index
      (Filters occupancy shadow window (operation.samples id raw)) operation.machine := by
  have sound : operation.layout.Sound := operation.sound.layout
  obtain ⟨measured, shadowed, outside⟩ := sound.role_of_filtered found kind
  have rawShadow : raw ≠ shadow := by
    rintro rfl
    rw [Layout.role_of_outside outside] at shadowed
    cases shadowed
  have shadowOccupancy : shadow ≠ occupancy := by
    rintro rfl
    cases measured.symm.trans shadowed
  obtain ⟨rest, rules, ignores, untimed⟩ := sound.rules_of_filtered found kind
  have placed := Program.getElem?_of_piece operation.compiled found
  have looks : ∀ samples, View.LooksAt [occupancy, shadow]
      (Filters occupancy shadow window samples) := by
    intro samples view next _ timer bits ⟨counts, occupied⟩
    obtain ⟨bounded, steady, changed⟩ := counts
    have same : next.bits shadow = view.bits shadow := bits shadow (by simp)
    rw [← timer, ← same] at steady changed
    exact ⟨⟨timer ▸ bounded, steady, changed⟩, (bits occupancy (by simp)).trans occupied⟩
  refine Machine.play_induct (motive := fun past machine => operation.program.Sees id.index
    (Filters occupancy shadow window
      ((Machine.powerOn operation.program operation.settings).samples id.index raw past))
    machine) ?_ ?_ operation.played
  · refine .powerOn placed operation.settings ⟨⟨Nat.zero_le _, fun _ _ => rfl, ?_⟩, rfl⟩
    exact fun running => absurd rfl running
  · intro past event middle next inside played sees reacted
    rw [Machine.samples_concat event played]
    by_cases here : event = .turn id.index
    · subst here
      obtain ⟨changed, evaluated⟩ := Machine.react_turn_eq_ok reacted
      obtain ⟨cell, stands, filters⟩ := sees.sees
      rw [if_pos rfl]
      have turned := filters.turn rawShadow shadowOccupancy (fun rule member var written =>
        sound.ne_of_spares found kind (ignores rule member var written)) untimed
      rw [← rules] at turned
      have seesThis : operation.program.Sees id.index (· = cell.view middle.memory) middle :=
        ⟨sees.automata, sees.size, cell, stands, rfl⟩
      refine seesThis.evaluate placed ?_ evaluated
      rintro view rfl
      exact turned
    · rw [if_neg here]
      exact sees.react (operation.entrusts_filter found kind) (looks _) (inside.subset (by simp))
        here reacted

end Filter

section Halt

/-- A track `f` with a sensor and a window of one turn, between two endpoints. -/
def halt : List Order := [
  .external "s", .endpoint "w", .filtered "f" ⟨0⟩ 1, .endpoint "e", .join ⟨0⟩ ⟨1⟩, .join ⟨2⟩ ⟨3⟩]

/-- The track with the sensor. -/
def haltTrack : Straight where
  kind := .filtered ⟨0⟩ 1 ⟨35⟩
  a := ⟨1⟩
  b := ⟨2⟩
  seen := ⟨34⟩
  ab := { entry := ⟨1⟩, exit := ⟨2⟩, route := ⟨36⟩, pending := ⟨37⟩ }
  ba := { entry := ⟨2⟩, exit := ⟨1⟩, route := ⟨38⟩, pending := ⟨39⟩ }

/-- The sensor shows a train for one turn, then for two turns, and misses it for one. -/
def haltOperation : Operation :=
  (Operation.start? {} halt [] {} [
    .write ⟨0⟩ true, .turn 1, .write ⟨0⟩ false, .turn 1, .write ⟨0⟩ true, .turn 1, .turn 0, .turn 1,
    .write ⟨0⟩ false, .turn 1]).get (by decide +kernel)

theorem haltOperation_shows :
    haltOperation.layout.piece? ⟨1⟩ =
      some { name := "f", occupancy := ⟨33⟩, body := .straight haltTrack } ∧
    haltOperation.samples ⟨1⟩ ⟨0⟩ = [false, true, true, false, true] := by
  decide +kernel

end Halt

/-- The occupancy of a piece with a filtered sensor is what the filter should make of all values
that the sensor had in the turns of the piece. So it has every value that was held in the last
turns, one more than the window, and a pulse that is not longer than the window leaves it as it
was before. -/
theorem filter_is_exact (operation : Operation) {id : PieceId} {name : String}
    {occupancy raw shadow : Var} {window : UInt8} {straight : Straight}
    (found : operation.layout.piece? id = some { name, occupancy, body := .straight straight })
    (kind : straight.kind = .filtered raw window shadow) :
    operation.machine.get occupancy = .ok (debounce window (operation.samples id raw)) ∧
    (∀ value, Held window value (operation.samples id raw) →
      operation.machine.get occupancy = .ok value) ∧
    ∀ value pulse earlier, operation.samples id raw = pulse ++ earlier →
      (∀ sample ∈ pulse, sample = value) → pulse.length ≤ window.toNat →
      earlier.headD false ≠ value →
      operation.machine.get occupancy = .ok (debounce window earlier) := by
  have sound : operation.layout.Sound := operation.sound.layout
  obtain ⟨cell, _, filters⟩ := (operation.filters found kind).sees
  have shown : operation.machine.get occupancy =
      .ok (debounce window (operation.samples id raw)) := by
    refine Memory.read_eq_ok.mpr ⟨?_, filters.occupied⟩
    rw [operation.safe.size]
    exact sound.reserved _ (Layout.mem_roles_of_filtered found kind)
  refine ⟨shown, ?_, ?_⟩
  · intro value held
    rw [shown, debounce_of_held held]
  · intro value pulse earlier samples steady short begins
    rw [shown, samples, debounce_pulse steady short begins]

theorem filter_is_exact_at_halt :
    haltOperation.layout.piece? ⟨1⟩ =
      some { name := "f", occupancy := ⟨33⟩, body := .straight haltTrack } ∧
    haltOperation.samples ⟨1⟩ ⟨0⟩ = [false, true, true, false, true] ∧
    debounce 1 [true, true, false, true] = true ∧ haltOperation.machine.get ⟨33⟩ = .ok true := by
  obtain ⟨found, samples⟩ := haltOperation_shows
  obtain ⟨_, _, pulse⟩ := filter_is_exact haltOperation found rfl
  have seen : debounce 1 [true, true, false, true] = true := by decide
  refine ⟨found, samples, seen, ?_⟩
  rw [pulse false [false] [true, true, false, true] samples (by simp) (by decide) (by decide), seen]

end Interlocking
