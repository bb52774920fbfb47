import Interlocking.Proofs.Addresses
import Interlocking.Proofs.Distinctness
import Interlocking.Proofs.Views
import Mathlib.Data.List.Flatten

/-!
# Arbitration

The register of an arbiter tells who holds the permission, and the granted bits of its clients
say the same: at most one of them is 1. The clients may ask, drop their requests and report that
they are done whenever they like. What the rules of an arbiter can do is said once, as its
deeds, and what holds of a turn is shown deed by deed.
-/

namespace Interlocking

open Function (update)

@[simp] theorem Client.request_mem_vars (client : Client) : client.request ∈ client.vars := by
  simp [Client.vars]

@[simp] theorem Client.granted_mem_vars (client : Client) : client.granted ∈ client.vars := by
  simp [Client.vars]

@[simp] theorem Client.taken_mem_vars (client : Client) : client.taken ∈ client.vars := by
  simp [Client.vars]

theorem vars_nodup {clients : List Client} (nodup : (clients.flatMap Client.vars).Nodup)
    {client : Client} (member : client ∈ clients) : client.vars.Nodup :=
  (List.nodup_flatMap.mp nodup).1 client member

namespace Arbiter

section Register

variable {first second : Nat}

theorem held_inj (insideFirst : first < capacity) (insideSecond : second < capacity)
    (same : held first = held second) : first = second := by
  have codes := congrArg (·.code.toNat) same
  simp only [held, UInt8.toNat_ofNat', capacity_eq] at codes insideFirst insideSecond
  omega

theorem free_ne_held (first second : Nat) : free first ≠ held second := by
  intro same
  have codes := congrArg (·.code.toNat) same
  simp only [held, free, UInt8.toNat_ofNat'] at codes
  omega

theorem held_ne_initial (first : Nat) : held first ≠ .initial := by
  intro same
  have codes := congrArg (·.code.toNat) same
  simp only [held, State.initial, UInt8.toNat_ofNat', UInt8.toNat_ofNat] at codes
  omega

theorem held_ne_base (inside : first < capacity) : held first ≠ .base := by
  intro same
  have codes := congrArg (·.code.toNat) same
  simp only [held, State.base, UInt8.toNat_ofNat', capacity_eq, UInt8.toNat_ofNat] at codes inside
  omega

end Register

variable {arbiter : Arbiter} {automaton : Automaton}

/-- What a rule of an arbiter can do to a view. -/
inductive Deed (arbiter : Arbiter) (view : View) : View → Prop where
  /-- The arbiter leaves the power-on state. -/
  | wake (initial : view.state = .initial) : Deed arbiter view { view with state := .base }
  /-- The search for a holder begins. -/
  | begin (resting : view.state = .base) : Deed arbiter view { view with state := free 0 }
  /-- The holder has used the permission. -/
  | use {index : Nat} {client : Client} (placed : arbiter.clients[index]? = some client)
      (holds : view.state = held index) (used : view.bits client.taken = true) :
      Deed arbiter view { view with
        bits := update (update view.bits client.granted false) client.taken false
        state := free ((index + 1) % arbiter.clients.length) }
  /-- The holder has dropped its request. -/
  | drop {index : Nat} {client : Client} (placed : arbiter.clients[index]? = some client)
      (holds : view.state = held index) (dropped : view.bits client.request = false) :
      Deed arbiter view { view with
        bits := update view.bits client.granted false
        state := free ((index + 1) % arbiter.clients.length) }
  /-- A client that asks becomes the holder. -/
  | grant {start index : Nat} {client : Client} (searches : view.state = free start)
      (placed : arbiter.clients[index]? = some client) (asks : view.bits client.request = true) :
      Deed arbiter view { view with
        bits := update view.bits client.granted true
        state := held index }

theorem mem_granting {start : Nat} {skipped : List Client} {turns : List (Client × Nat)}
    {rule : Rule} (member : rule ∈ granting start skipped turns) :
    ∃ client index rest, (client, index) ∈ turns ∧ rule = {
      conditions := [.inState (free start), .on client.request] ++ rest
      actions := [.raise client.granted, .goto (held index)] } := by
  induction turns generalizing skipped with
  | nil => cases member
  | cons turn turns ih =>
      rcases List.mem_cons.mp member with rfl | member
      · exact ⟨turn.1, turn.2, _, List.mem_cons_self, rfl⟩
      · obtain ⟨client, index, rest, listed, made⟩ := ih member
        exact ⟨client, index, rest, List.mem_cons_of_mem _ listed, made⟩

theorem getElem?_of_mem_turns {start index : Nat} {client : Client}
    (member : (client, index) ∈ arbiter.turns start) : arbiter.clients[index]? = some client := by
  have listed : (client, index) ∈ arbiter.clients.zipIdx := by
    rcases List.mem_append.mp member with member | member
    · exact List.mem_of_mem_drop member
    · exact List.mem_of_mem_take member
  exact List.mem_zipIdx_iff_getElem?.mp listed

theorem deed_of_mem_returning {index : Nat} {client : Client}
    (placed : arbiter.clients[index]? = some client) {rule : Rule}
    (member : rule ∈ returning arbiter.clients.length index client) {view : View}
    (enabled : view.Enables rule) : arbiter.Deed view (view.carry rule.actions) := by
  simp only [returning, returnRules, List.mem_cons, List.not_mem_nil, or_false] at member
  rcases member with rfl | rfl
  · exact .use placed (enabled (.inState _) (by simp)) (enabled (.on client.taken) (by simp))
  · exact .drop placed (enabled (.inState _) (by simp)) (enabled (.off client.request) (by simp))

/-- Whatever rule of an arbiter fires, it does one of the deeds. -/
theorem deed_of_mem {rule : Rule} (member : rule ∈ arbiter.ruleList ++ [RuleBook.startRule])
    {view : View} (enabled : view.Enables rule) : arbiter.Deed view (view.carry rule.actions) := by
  simp only [ruleList, List.mem_append, List.mem_cons, List.mem_flatMap, List.not_mem_nil,
    or_false] at member
  rcases member with (rfl | ⟨⟨client, index⟩, listed, member⟩ | ⟨start, _, member⟩) | rfl
  · exact .begin (enabled (.inState .base) (by simp))
  · exact deed_of_mem_returning (List.mem_zipIdx_iff_getElem?.mp listed) member enabled
  · obtain ⟨client, index, rest, listed, rfl⟩ := mem_granting member
    exact .grant (enabled (.inState (free start)) (by simp)) (getElem?_of_mem_turns listed)
      (enabled (.on client.request) (by simp))
  · exact .wake (enabled (.inState .initial) (by simp [RuleBook.startRule]))

/-- What all deeds maintain, a turn maintains. -/
theorem pass_induct {motive : View → Prop} (built : arbiter.build = .ok automaton)
    (each : ∀ view next, motive view → arbiter.Deed view next → motive next) {view : View}
    (begins : motive view) : motive (view.pass automaton.rules) := by
  rw [(build_eq_ok built).2.1]
  refine View.pass_induct ?_ begins
  intro rule member view holds enabled
  exact each view _ holds (deed_of_mem member enabled)

/-- The register stands at a state of the arbiter. -/
def Placed (arbiter : Arbiter) (view : View) : Prop :=
  view.state = .initial ∨ view.state = .base ∨
    ∃ index < arbiter.clients.length, view.state = free index ∨ view.state = held index

/-- The grant of a client says whether the client is the holder. -/
def Tells (view : View) (index : Nat) (client : Client) : Prop :=
  view.bits client.granted = true ↔ view.state = held index

section Deeds

variable (nodup : (arbiter.clients.flatMap Client.vars).Nodup)

include nodup

/-- The bit of a grant is no bit of another client and no request and no report. -/
theorem granted_ne {first second : Nat} {left right : Client}
    (atFirst : arbiter.clients[first]? = some left)
    (atSecond : arbiter.clients[second]? = some right) :
    (left.granted = right.granted → first = second) ∧ left.granted ≠ right.taken ∧
      left.granted ≠ right.request := by
  have same : ∀ var ∈ right.vars, left.granted = var → first = second := by
    intro var listed equal
    exact index_eq_of_mem_parts nodup atFirst atSecond (by simp) (equal ▸ listed)
  have bits := vars_nodup nodup (List.mem_of_getElem? atSecond)
  simp only [Client.vars, List.nodup_cons, List.mem_cons, List.not_mem_nil, or_false,
    not_or] at bits
  refine ⟨same _ (by simp), ?_, ?_⟩
  · intro equal
    obtain rfl := same _ (by simp) equal
    obtain rfl := Option.some.inj (atFirst.symm.trans atSecond)
    exact bits.2.1 equal
  · intro equal
    obtain rfl := same _ (by simp) equal
    obtain rfl := Option.some.inj (atFirst.symm.trans atSecond)
    exact bits.1.1 equal.symm

variable (fits : 1 ≤ arbiter.clients.length ∧ arbiter.clients.length ≤ capacity)

include fits

omit nodup in
theorem held_eq_iff {first second : Nat} {left right : Client}
    (atFirst : arbiter.clients[first]? = some left)
    (atSecond : arbiter.clients[second]? = some right) :
    held first = held second ↔ first = second := by
  have insideFirst := (List.getElem?_eq_some_iff.mp atFirst).1
  have insideSecond := (List.getElem?_eq_some_iff.mp atSecond).1
  exact ⟨held_inj (by omega) (by omega), congrArg held⟩

omit nodup in
theorem Deed.placed {view next : View} (deed : arbiter.Deed view next) : arbiter.Placed next := by
  cases deed with
  | wake => exact .inr (.inl rfl)
  | begin => exact .inr (.inr ⟨0, fits.1, .inl rfl⟩)
  | use | drop => exact .inr (.inr ⟨_, Nat.mod_lt _ fits.1, .inl rfl⟩)
  | grant searches placed asks =>
      exact .inr (.inr ⟨_, (List.getElem?_eq_some_iff.mp placed).1, .inr rfl⟩)

section Client

variable {index : Nat} {client : Client} (placed : arbiter.clients[index]? = some client)
  {view next : View}

include placed

omit nodup in
/-- The one state in which the client is the holder is none of those at the start. -/
theorem started_of_held (holds : view.state = held index) :
    view.state ≠ .initial ∧ view.state ≠ .base := by
  have inside := (List.getElem?_eq_some_iff.mp placed).1
  rw [holds]
  exact ⟨held_ne_initial index, held_ne_base (by omega)⟩

/-- The permission is taken away from nobody but its holder, and given to nobody while somebody
holds it. -/
theorem Deed.tells (deed : arbiter.Deed view next) (tells : Tells view index client) :
    Tells next index client := by
  -- A deed that leaves the register at a free state finds or makes the grant 0.
  have released : ∀ {holder other}, arbiter.clients[holder]? = some other →
      view.state = held holder → client.granted ≠ other.granted →
      view.bits client.granted = false := by
    intro holder other found holds apart
    by_contra granted
    have same := (held_eq_iff fits placed found).mp
      ((tells.mp (by simpa using granted)).symm.trans holds)
    subst same
    exact apart (by rw [Option.some.inj (found.symm.trans placed)])
  cases deed with
  | wake initial =>
      have idle : view.bits client.granted ≠ true :=
        fun granted => (started_of_held fits placed (tells.mp granted)).1 initial
      have inside := (List.getElem?_eq_some_iff.mp placed).1
      exact iff_of_false idle (held_ne_base (by omega)).symm
  | begin resting =>
      have idle : view.bits client.granted ≠ true :=
        fun granted => (started_of_held fits placed (tells.mp granted)).2 resting
      exact iff_of_false idle (free_ne_held _ _)
  | @use holder other found holds used =>
      refine iff_of_false ?_ (free_ne_held _ _)
      have apart := (granted_ne nodup placed found).2.1
      by_cases same : client.granted = other.granted
      · simp [same, Function.update_apply]
      · simp [apart, same, released found holds same]
  | @drop holder other found holds dropped =>
      refine iff_of_false ?_ (free_ne_held _ _)
      by_cases same : client.granted = other.granted
      · simp [same]
      · simp [same, released found holds same]
  | @grant start holder other searches found asks =>
      by_cases same : index = holder
      · subst same
        simp [Tells, Option.some.inj (found.symm.trans placed)]
      · have apart : client.granted ≠ other.granted :=
          fun equal => same ((granted_ne nodup placed found).1 equal)
        have elsewhere : held holder ≠ held index :=
          fun equal => same ((held_eq_iff fits found placed).mp equal).symm
        have idle : view.bits client.granted ≠ true :=
          fun granted => free_ne_held start index (searches.symm.trans (tells.mp granted))
        exact iff_of_false (by simpa [apart] using idle) elsewhere

omit fits in
/-- The arbiter never says for a client that it is done. -/
theorem Deed.unused (deed : arbiter.Deed view next) (unused : view.bits client.taken = false) :
    next.bits client.taken = false := by
  cases deed with
  | wake | begin => exact unused
  | use | drop => simp [Function.update_apply, unused]
  | grant searches found asks =>
      have apart := (granted_ne nodup found placed).2.1.symm
      simp [apart, unused]

omit fits in
theorem unused_pass {rules : List Rule} (deeds : ∀ rule ∈ rules, ∀ view : View,
      view.Enables rule → arbiter.Deed view (view.carry rule.actions))
    (unused : view.bits client.taken = false) : (view.pass rules).bits client.taken = false := by
  refine View.pass_induct (motive := fun view => view.bits client.taken = false) ?_ unused
  intro rule member view unused enabled
  exact (deeds rule member view enabled).unused nodup placed unused

/-- The rules that take the permission back see that the holder is done. -/
theorem unused_returns (holds : view.state = held index) {entries : List (Client × Nat)}
    (known : ∀ entry ∈ entries, arbiter.clients[entry.2]? = some entry.1)
    (listed : (client, index) ∈ entries) :
    (view.pass (entries.flatMap fun (client, index) =>
      returning arbiter.clients.length index client)).bits client.taken = false := by
  induction entries with
  | nil => cases listed
  | cons entry entries ih =>
      have deeds : ∀ rule ∈ (entry :: entries).flatMap (fun (client, index) =>
          returning arbiter.clients.length index client), ∀ view : View, view.Enables rule →
          arbiter.Deed view (view.carry rule.actions) := by
        intro rule member view enabled
        obtain ⟨item, listed, member⟩ := List.mem_flatMap.mp member
        exact deed_of_mem_returning (known item listed) member enabled
      by_cases here : entry = (client, index)
      · -- The first rule of the client takes the permission back if the client is done.
        subst here
        simp only [List.flatMap_cons, returning, returnRules, List.cons_append, List.nil_append,
          List.forall_mem_cons] at deeds ⊢
        rw [View.pass_cons]
        refine unused_pass nodup placed (List.forall_mem_cons.mpr deeds.2) ?_
        rw [View.fire]
        split
        · simp
        · rename_i disabled
          by_contra used
          exact disabled (by simpa [View.Enables, View.Meets, holds] using used)
      · have blocked : view.pass (returning arbiter.clients.length entry.2 entry.1) = view := by
          apply View.pass_eq_self
          intro rule member enabled
          have there : view.state = held entry.2 := by
            simp only [returning, returnRules, List.mem_cons, List.not_mem_nil, or_false] at member
            rcases member with rfl | rfl <;> exact enabled (.inState (held entry.2)) (by simp)
          have found := known entry List.mem_cons_self
          have same := (held_eq_iff fits placed found).mp (holds.symm.trans there)
          rw [← same] at found
          exact here (Prod.ext (Option.some.inj (found.symm.trans placed)) same.symm)
        rw [List.flatMap_cons, View.pass_append, blocked]
        exact ih (fun item member => known item (List.mem_cons_of_mem _ member))
          ((List.mem_cons.mp listed).resolve_left (Ne.symm here))

/-- In its turn the arbiter takes note of a holder that is done. -/
theorem unused_turn (built : arbiter.build = .ok automaton)
    (holder : view.bits client.taken = true → view.state = held index) :
    (view.pass automaton.rules).bits client.taken = false := by
  have deeds : ∀ rule ∈ automaton.rules, ∀ view : View, view.Enables rule →
      arbiter.Deed view (view.carry rule.actions) := by
    rw [(build_eq_ok built).2.1]
    exact fun rule member view enabled => deed_of_mem member enabled
  by_cases used : view.bits client.taken = true
  · have holds := holder used
    -- The register is not at rest, so the first rule does not fire.
    have skipped : view.fire { conditions := [.inState .base], actions := [.goto (free 0)] } =
        view := by
      rw [View.fire, if_neg]
      intro enabled
      exact (started_of_held fits placed holds).2 (enabled (.inState .base) (by simp))
    have returned := unused_returns nodup fits placed holds
      (fun entry listed => List.mem_zipIdx_iff_getElem?.mp listed)
      (List.mem_zipIdx_iff_getElem?.mpr placed)
    rw [(build_eq_ok built).2.1, ruleList, List.cons_append, List.append_assoc] at deeds ⊢
    rw [View.pass_cons, skipped, View.pass_append]
    exact unused_pass nodup placed (fun rule later =>
      deeds rule (List.mem_cons_of_mem _ (List.mem_append_right _ later))) returned
  · exact unused_pass nodup placed deeds (by simpa using used)

omit nodup in
/-- A holder that still asks and is not done keeps the permission. -/
theorem pass_of_held (built : arbiter.build = .ok automaton) (holds : view.state = held index)
    (asks : view.bits client.request = true) (unused : view.bits client.taken = false) :
    view.pass automaton.rules = view := by
  refine pass_induct (motive := (· = view)) built ?_ rfl
  rintro _ next rfl deed
  cases deed with
  | wake initial => exact absurd initial (started_of_held fits placed holds).1
  | begin resting => exact absurd resting (started_of_held fits placed holds).2
  | use found there used =>
      obtain rfl := (held_eq_iff fits placed found).mp (holds.symm.trans there)
      obtain rfl := Option.some.inj (placed.symm.trans found)
      simp [unused] at used
  | drop found there dropped =>
      obtain rfl := (held_eq_iff fits placed found).mp (holds.symm.trans there)
      obtain rfl := Option.some.inj (placed.symm.trans found)
      simp [asks] at dropped
  | @grant start _ _ searches =>
      exact absurd (searches.symm.trans holds) (free_ne_held start index)

end Client

end Deeds

/-- What may happen to an arbiter that runs alone: its turns, and what its clients write. -/
def Hears (arbiter : Arbiter) : Event → Prop
  | .turn index => index = 0
  | .write var _ => ∃ client ∈ arbiter.clients, var = client.request ∨ var = client.taken

instance (arbiter : Arbiter) : DecidablePred arbiter.Hears
  | .turn _ => inferInstanceAs (Decidable (_ = _))
  | .write _ _ => inferInstanceAs (Decidable (∃ client ∈ arbiter.clients, _))

/-- The machine runs nothing but the arbiter, and register and grants agree. -/
structure Alone (arbiter : Arbiter) (automaton : Automaton) (layout : Layout) (machine : Machine)
    (cell : Cell) : Prop where
  cells : machine.cells = #[cell]
  automaton : cell.automaton = automaton
  size : machine.memory.bits.size = layout.table.span
  placed : arbiter.Placed (cell.view machine.memory)
  tells : ∀ {index client}, arbiter.clients[index]? = some client →
    Tells (cell.view machine.memory) index client

section Runs

variable {layout : Layout} {machine : Machine} {cell : Cell}
  (built : arbiter.build = .ok automaton)

theorem alone_powerOn (arbiter : Arbiter) (automaton : Automaton) (layout : Layout)
    (settings : SimConfig) :
    arbiter.Alone automaton layout
      (Machine.powerOn { table := layout.table, automata := [automaton] } settings)
      { automaton } where
  cells := rfl
  automaton := rfl
  size := by simp [Machine.powerOn, Memory.zeros]
  placed := .inl rfl
  tells := fun {index} _ _ =>
    iff_of_false (by simp [Cell.view, Machine.powerOn]) (held_ne_initial index).symm

theorem uses_granting {holds : Var → Prop} {start : Nat} {skipped : List Client}
    {turns : List (Client × Nat)} (skips : ∀ client ∈ skipped, holds client.request)
    (asks : ∀ turn ∈ turns, holds turn.1.request ∧ holds turn.1.granted) :
    Uses holds holds (granting start skipped turns) := by
  induction turns generalizing skipped with
  | nil => simp [granting, grantRules]
  | cons turn turns ih =>
      obtain ⟨⟨request, granted⟩, asks⟩ := List.forall_mem_cons.mp asks
      refine uses_cons.mpr ⟨⟨?_, by simp [granted]⟩, ih ?_ asks⟩
      · refine consults_append.mpr ⟨by simp [request], consults_map fun client member => ?_⟩
        simp [skips client member]
      · exact List.forall_mem_append.mpr ⟨skips, List.forall_mem_singleton.mpr request⟩

include built

/-- An arbiter mentions nothing but the bits of its clients. -/
theorem uses_build {holds : Var → Prop}
    (bits : ∀ client ∈ arbiter.clients, ∀ var ∈ client.vars, holds var) :
    Uses holds holds automaton.rules := by
  rw [(build_eq_ok built).2.1]
  refine uses_append.mpr ⟨uses_cons.mpr ⟨by simp, uses_append.mpr ⟨?_, ?_⟩⟩,
    by simp [RuleBook.startRule]⟩
  · intro rule member
    obtain ⟨⟨client, index⟩, listed, member⟩ := List.mem_flatMap.mp member
    have own := bits client (List.fst_mem_of_mem_zipIdx listed)
    have uses : Uses holds holds (returning arbiter.clients.length index client) := by
      simp [returning, returnRules, own]
    exact uses rule member
  · intro rule member
    obtain ⟨start, _, member⟩ := List.mem_flatMap.mp member
    refine uses_granting (by simp) ?_ rule member
    intro turn listed
    have own := bits turn.1 (mem_clients_of_mem_turns listed)
    exact ⟨own _ (by simp), own _ (by simp)⟩

variable (reserved : ∀ client ∈ arbiter.clients, ∀ var ∈ client.vars, layout.Holds var)

include reserved

theorem addresses_build : layout.Addresses automaton.rules :=
  Layout.addresses_iff_uses.mpr (uses_build built reserved)

variable (nodup : (arbiter.clients.flatMap Client.vars).Nodup)

include nodup

/-- A turn of the arbiter succeeds, and register and grants agree after it. -/
theorem Alone.turn (alone : arbiter.Alone automaton layout machine cell) :
    ∃ next after changed, machine.evaluate 0 = .ok (next, changed) ∧
      arbiter.Alone automaton layout next after ∧ after.state ≠ .initial := by
  have found : machine.cells[0]? = some cell := by simp [alone.cells]
  have addresses : layout.Addresses cell.automaton.rules :=
    alone.automaton ▸ addresses_build built reserved
  obtain ⟨next, changed, evaluated⟩ := addresses.evaluate_ok alone.size found
  obtain ⟨known, after, same, there, automata, view, -, size⟩ := Machine.view_evaluate evaluated
  obtain rfl := Option.some.inj (found.symm.trans same)
  rw [alone.automaton] at view automata
  have fits := (build_eq_ok built).2.2
  have placed : arbiter.Placed (after.view next.memory) := by
    rw [view]
    refine pass_induct built (fun _ _ _ deed => deed.placed fits) ?_
    rw [Placed, View.state_tick]
    exact alone.placed
  have tells : ∀ {index client}, arbiter.clients[index]? = some client →
      Tells (after.view next.memory) index client := by
    intro index client known
    rw [view]
    refine pass_induct (motive := fun view => Tells view index client) built
      (fun _ _ tells deed => deed.tells nodup fits known tells) ?_
    rw [Tells, View.state_tick, View.bits_tick]
    exact alone.tells known
  refine ⟨next, after, changed, evaluated,
    ⟨?_, automata, size.trans alone.size, placed, tells⟩, ?_⟩
  · obtain ⟨cell', turn, _, _, rfl, _⟩ := Machine.evaluate_eq_ok evaluated
    simp only [alone.cells] at there ⊢
    simpa using there
  · have state : after.state = ((cell.view machine.memory).tick.pass automaton.rules).state :=
      congrArg View.state view
    rw [state, (build_eq_ok built).2.1]
    exact View.state_pass_ne_initial

/-- Whatever happens to an arbiter that runs alone succeeds, and register and grants agree after it. -/
theorem Alone.react (alone : arbiter.Alone automaton layout machine cell) {event : Event}
    (heard : arbiter.Hears event) :
    ∃ next after, machine.react event = .ok next ∧ arbiter.Alone automaton layout next after := by
  cases event with
  | turn index =>
      obtain rfl : index = 0 := heard
      obtain ⟨next, after, changed, evaluated, aloneNext, _⟩ := alone.turn built reserved nodup
      exact ⟨next, after, Machine.react_turn evaluated, aloneNext⟩
  | write var value =>
      obtain ⟨client, member, written⟩ := heard
      have inside : var.index < machine.memory.bits.size := by
        rw [alone.size]
        rcases written with rfl | rfl <;> exact reserved client member _ (by simp)
      obtain ⟨memory, stored⟩ := Memory.write_ok inside value
      obtain ⟨size, values⟩ := Memory.write_eq_ok stored
      refine ⟨{ machine with memory }, cell, Machine.set_of_write stored, alone.cells,
        alone.automaton, size.trans alone.size, alone.placed, ?_⟩
      intro place other found
      obtain ⟨index, placed⟩ := List.mem_iff_getElem?.mp member
      obtain ⟨-, notTaken, notRequest⟩ := granted_ne nodup found placed
      have apart : other.granted ≠ var := by
        rcases written with rfl | rfl
        · exact notRequest
        · exact notTaken
      have tells := alone.tells found
      simp only [Tells, Cell.view, values, apart, if_false] at tells ⊢
      exact tells

theorem Alone.play (alone : arbiter.Alone automaton layout machine cell) {events : List Event}
    (heard : ∀ event ∈ events, arbiter.Hears event) :
    ∃ next after, machine.play events = .ok next ∧ arbiter.Alone automaton layout next after := by
  induction events generalizing machine cell with
  | nil => exact ⟨machine, cell, rfl, alone⟩
  | cons event events ih =>
      obtain ⟨head, rest⟩ := List.forall_mem_cons.mp heard
      obtain ⟨middle, between, reacted, aloneMiddle⟩ := alone.react built reserved nodup head
      obtain ⟨next, after, played, aloneNext⟩ := ih aloneMiddle rest
      exact ⟨next, after, (Machine.play_cons reacted events).trans played, aloneNext⟩

end Runs

end Arbiter

namespace Yard.Distinct

variable {yard : Yard} {arbiter : Arbiter} (distinct : yard.Distinct)
  (declared : arbiter ∈ yard.arbiters)

include distinct declared

theorem clients_nodup : (arbiter.clients.flatMap Client.vars).Nodup := by
  have all : (yard.clients.flatMap Client.vars).Nodup := (List.nodup_append.mp distinct.common).2.1
  exact all.sublist ((distinct.arbiters arbiter declared).flatMap _)

theorem clients_reserved : ∀ client ∈ arbiter.clients, ∀ var ∈ client.vars,
    yard.layout.Holds var := by
  intro client member var owned
  have known := (distinct.arbiters arbiter declared).subset member
  exact distinct.below var (List.mem_append_right _ (List.mem_flatMap.mpr ⟨client, known, owned⟩))

end Yard.Distinct

/-- An arbiter can be built exactly if it has 1 to 127 clients. Whatever its clients ask and
report between its turns, after every turn the register rests or tells which client holds the
permission or is next to be asked. The granted bit of a client is 1 exactly if the client is the
holder, so at most one granted bit is 1. -/
theorem arbiter_grants_one_client (config : Config) (orders : List Order) (arbiter : Arbiter)
    (declared : arbiter ∈ ((Yard.empty config).performAll orders).arbiters) :
    ((∃ automaton, arbiter.build = .ok automaton) ↔
      1 ≤ arbiter.clients.length ∧ arbiter.clients.length ≤ 127) ∧
    ∀ automaton settings events, arbiter.build = .ok automaton →
      (∀ event ∈ events, arbiter.Hears event) →
      ∃ machine state,
        (Machine.powerOn
          { table := ((Yard.empty config).performAll orders).layout.table
            automata := [automaton] } settings).play (events ++ [.turn 0]) = .ok machine ∧
        machine.state? arbiter.name = some state ∧
        (state = .base ∨ ∃ index < arbiter.clients.length,
          state = Arbiter.free index ∨ state = Arbiter.held index) ∧
        (∀ index client, arbiter.clients[index]? = some client →
          machine.get client.granted = .ok (decide (state = Arbiter.held index))) ∧
        ∀ (first second : Nat) (left right : Client), arbiter.clients[first]? = some left →
          arbiter.clients[second]? = some right → machine.get left.granted = .ok true →
          machine.get right.granted = .ok true → first = second := by
  refine ⟨Arbiter.exists_build_iff, ?_⟩
  intro automaton settings events built heard
  have distinct := Yard.performAll_distinct config orders
  have nodup := distinct.clients_nodup declared
  have reserved := distinct.clients_reserved declared
  obtain ⟨middle, cell, played, alone⟩ :=
    (Arbiter.alone_powerOn arbiter automaton _ settings).play built reserved nodup heard
  obtain ⟨machine, after, changed, evaluated, aloneAfter, started⟩ := alone.turn built reserved nodup
  have fits := (Arbiter.build_eq_ok built).2.2
  have shown : ∀ index client, arbiter.clients[index]? = some client →
      machine.get client.granted = .ok (decide (after.state = Arbiter.held index)) := by
    intro index client placed
    refine Memory.read_eq_ok.mpr ⟨?_, ?_⟩
    · rw [aloneAfter.size]
      exact reserved client (List.mem_of_getElem? placed) _ (by simp)
    · rw [Bool.eq_iff_iff, decide_eq_true_iff]
      exact aloneAfter.tells placed
  refine ⟨machine, after.state, ?_, ?_, ?_, shown, ?_⟩
  · simp only [Machine.play, List.foldlM_append] at played ⊢
    simp [played, Machine.react, evaluated, bind, Except.bind, pure, Except.pure]
  · simp [Machine.state?, aloneAfter.cells, aloneAfter.automaton, (Arbiter.build_eq_ok built).1]
  · exact aloneAfter.placed.resolve_left started
  · intro first second left right atFirst atSecond leftGranted rightGranted
    have ofFirst : after.state = Arbiter.held first := by
      simpa using Except.ok.inj ((shown first left atFirst).symm.trans leftGranted)
    have ofSecond : after.state = Arbiter.held second := by
      simpa using Except.ok.inj ((shown second right atSecond).symm.trans rightGranted)
    exact (Arbiter.held_eq_iff fits atFirst atSecond).mp (ofFirst.symm.trans ofSecond)

/-- An arbiter and two clients. -/
def pairOrders : List Order := [.arbiter "single", .client 0 "left", .client 1 "right"]

/-- What the orders declare in the end. -/
def pairArbiter : Arbiter where
  name := "single"
  clients := [⟨"left", ⟨0⟩, ⟨1⟩, ⟨2⟩⟩, ⟨"right", ⟨4⟩, ⟨5⟩, ⟨6⟩⟩]

/-- Both clients ask at once, the left one comes first, and it reports that it is done while it
still asks. -/
def pairHandover : List Event := [
  .turn 0, .turn 0, .write ⟨4⟩ true, .write ⟨0⟩ true, .turn 0, .write ⟨2⟩ true]

/-- The machine on which the arbiter of the two clients runs alone. -/
def pairMachine (automaton : Automaton) : Machine :=
  .powerOn { table := ((Yard.empty {}).performAll pairOrders).layout.table
             automata := [automaton] } {}

/-- In the next turn the permission goes to the right client. -/
theorem pairHandover_shows : ∀ automaton ∈ pairArbiter.build.toOption,
    ∀ machine ∈ ((pairMachine automaton).play (pairHandover ++ [.turn 0])).toOption,
      machine.state? "single" = some (Arbiter.held 1) := by
  decide +kernel

theorem arbiter_grants_one_client_of_pair :
    pairArbiter ∈ ((Yard.empty {}).performAll pairOrders).arbiters ∧
    (∀ event ∈ pairHandover, pairArbiter.Hears event) ∧
    ∃ automaton machine, pairArbiter.build = .ok automaton ∧
      (pairMachine automaton).play (pairHandover ++ [.turn 0]) = .ok machine ∧
      machine.state? "single" = some (Arbiter.held 1) ∧
      machine.get ⟨1⟩ = .ok false ∧ machine.get ⟨5⟩ = .ok true := by
  have declared : pairArbiter ∈ ((Yard.empty {}).performAll pairOrders).arbiters := by
    decide +kernel
  have heard : ∀ event ∈ pairHandover, pairArbiter.Hears event := by decide
  obtain ⟨builds, runs⟩ := arbiter_grants_one_client {} pairOrders pairArbiter declared
  obtain ⟨automaton, built⟩ := builds.mpr (by decide)
  obtain ⟨machine, state, played, shown, -, grants, -⟩ :=
    runs automaton {} pairHandover built heard
  have last : machine.state? "single" = some (Arbiter.held 1) :=
    pairHandover_shows automaton (by simp [built, Except.toOption]) machine
      (by simp [pairMachine, played, Except.toOption])
  obtain rfl := Option.some.inj (shown.symm.trans last)
  have left := grants 0 _ rfl
  have right := grants 1 _ rfl
  exact ⟨declared, heard, automaton, machine, built, played, last, left, right⟩

end Interlocking
