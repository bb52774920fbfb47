import Interlocking.Proofs.Arbitration
import Interlocking.Proofs.Cycles
import Mathlib.Algebra.Order.BigOperators.Group.List
import Mathlib.Algebra.Order.Ring.Nat
import Mathlib.Data.List.Rotate

/-!
# Fairness of arbiters

An arbiter asks its clients in the order of a ring and begins behind the last holder. How many
clients are asked before a waiting one is its distance from the place where the search begins.
Every grant to another client brings the search closer to the one that waits, and puts the new
holder behind it. So nobody is granted the permission twice while another client waits.
-/

namespace Interlocking

namespace Arbiter

theorem free_inj {first second : Nat} (insideFirst : first < capacity)
    (insideSecond : second < capacity) (same : free first = free second) : first = second := by
  have codes := congrArg (·.code.toNat) same
  simp only [free, UInt8.toNat_ofNat', capacity_eq] at codes insideFirst insideSecond
  omega

theorem free_ne_base (index : Nat) : free index ≠ .base := by
  intro same
  have codes := congrArg (·.code.toNat) same
  simp only [free, State.base, UInt8.toNat_ofNat', UInt8.toNat_ofNat] at codes
  omega

theorem free_ne_initial {index : Nat} (inside : index < capacity) : free index ≠ .initial := by
  intro same
  have codes := congrArg (·.code.toNat) same
  simp only [free, State.initial, UInt8.toNat_ofNat', capacity_eq, UInt8.toNat_ofNat] at codes inside
  omega

section Ring

/-- How many clients are asked before the one at `index` when the search begins at `start`. -/
def lead (count start index : Nat) : Nat := (index + (count - start)) % count

variable {count start index place : Nat}

theorem lead_lt (start : Nat) (atIndex : index < count) : lead count start index < count :=
  Nat.mod_lt _ (by omega)

theorem lead_add (atStart : start ≤ count) (atIndex : index < count) :
    (lead count start index + start) % count = index := by
  rw [lead, Nat.mod_add_mod, show index + (count - start) + start = index + count by omega,
    Nat.add_mod_right, Nat.mod_eq_of_lt atIndex]

/-- The lead is the one number of clients that takes the search to the client. -/
theorem lead_unique (atStart : start ≤ count) (inside : place < count)
    (reached : (place + start) % count = index) : lead count start index = place := by
  rw [← reached, lead, Nat.mod_add_mod,
    show place + start + (count - start) = place + count by omega, Nat.add_mod_right,
    Nat.mod_eq_of_lt inside]

/-- A grant brings the search closer to everybody who was not asked yet. -/
theorem lead_of_granted (atStart : start ≤ count) (atIndex : index < count)
    (asked : place < lead count start index) :
    lead count (((place + start) % count + 1) % count) index + place + 1 =
      lead count start index := by
  have inside : lead count start index < count := lead_lt _ atIndex
  have next : ((place + start) % count + 1) % count < count := Nat.mod_lt _ (by omega)
  have left : lead count (((place + start) % count + 1) % count) index =
      lead count start index - place - 1 := by
    refine lead_unique next.le (by omega) ?_
    rw [Nat.mod_add_mod, Nat.add_mod_mod,
      show lead count start index - place - 1 + (place + start + 1) =
        lead count start index + start by omega]
    exact lead_add atStart atIndex
  omega

/-- The last holder is asked last. -/
theorem lead_of_holder (atIndex : index < count) :
    lead count ((index + 1) % count) index + 1 = count := by
  have next : (index + 1) % count < count := Nat.mod_lt _ (by omega)
  have last : lead count ((index + 1) % count) index = count - 1 := by
    refine lead_unique next.le (by omega) ?_
    rw [Nat.add_mod_mod, show count - 1 + (index + 1) = index + count by omega, Nat.add_mod_right,
      Nat.mod_eq_of_lt atIndex]
  omega

end Ring

variable {arbiter : Arbiter} {automaton : Automaton} {start : Nat} {view : View}

/-- The search visits the clients in the order of the ring. -/
theorem getElem?_turns (inside : start ≤ arbiter.clients.length) {place : Nat}
    (within : place < arbiter.clients.length) :
    (arbiter.turns start)[place]? =
      (arbiter.clients[(place + start) % arbiter.clients.length]?).map
        (·, (place + start) % arbiter.clients.length) := by
  have rotated : arbiter.turns start = arbiter.clients.zipIdx.rotate start :=
    (List.rotate_eq_drop_append_take (by simpa using inside)).symm
  rw [rotated, List.getElem?_rotate (by simpa using within), List.length_zipIdx,
    List.getElem?_zipIdx]
  simp

theorem pass_granting_of_ne (elsewhere : view.state ≠ free start) (skipped : List Client)
    (turns : List (Client × Nat)) : view.pass (granting start skipped turns) = view := by
  apply View.pass_eq_self
  intro rule member enabled
  obtain ⟨client, index, rest, _, rfl⟩ := mem_granting member
  exact elsewhere (enabled (.inState (free start)) (by simp))

/-- Nobody is searched for while the register stands elsewhere. -/
theorem pass_search_of_ne {starts : List Nat} (elsewhere : ∀ start ∈ starts, view.state ≠ free start) :
    view.pass (starts.flatMap fun start => granting start [] (arbiter.turns start)) = view := by
  induction starts with
  | nil => rfl
  | cons start starts ih =>
      obtain ⟨here, others⟩ := List.forall_mem_cons.mp elsewhere
      rw [List.flatMap_cons, View.pass_append, pass_granting_of_ne here, ih others]

/-- The permission goes to the first client that asks. -/
theorem state_pass_granting (skipped : List Client) {turns : List (Client × Nat)}
    (searches : view.state = free start)
    (quiet : ∀ client ∈ skipped, view.bits client.request = false) {place : Nat}
    {turn : Client × Nat} (found : turns[place]? = some turn)
    (asks : view.bits turn.1.request = true) :
    ∃ first ≤ place, ∃ winner, turns[first]? = some winner ∧
      (view.pass (granting start skipped turns)).state = held winner.2 := by
  induction turns generalizing skipped place with
  | nil => simp at found
  | cons head rest ih =>
      obtain ⟨client, index⟩ := head
      rw [granting_cons, View.pass_cons, View.fire]
      by_cases wants : view.bits client.request = true
      · -- Nobody before the client asks, and those behind it find the permission held.
        refine ⟨0, Nat.zero_le _, (client, index), rfl, ?_⟩
        rw [if_pos, pass_granting_of_ne]
        · simp
        · simpa using (free_ne_held start index).symm
        · refine List.forall_mem_append.mpr ⟨by simp [View.Meets, searches, wants], ?_⟩
          exact List.forall_mem_map.mpr quiet
      · rw [if_neg fun enabled => wants (enabled (.on client.request) (by simp))]
        cases place with
        | zero =>
            obtain rfl := Option.some.inj found
            exact absurd asks wants
        | succ place =>
            have others : ∀ other ∈ skipped ++ [client], view.bits other.request = false :=
              List.forall_mem_append.mpr
                ⟨quiet, List.forall_mem_singleton.mpr (by simpa using wants)⟩
            obtain ⟨first, early, winner, listed, state⟩ := ih _ others found
            exact ⟨first + 1, Nat.succ_le_succ early, winner, listed, state⟩

/-- Only the rules for the place where the search begins take part in it. -/
theorem state_pass_search {starts : List Nat} (listed : start ∈ starts)
    (inside : ∀ other ∈ starts, other < capacity) (searches : view.state = free start)
    {place : Nat} {turn : Client × Nat} (found : (arbiter.turns start)[place]? = some turn)
    (asks : view.bits turn.1.request = true) :
    ∃ first ≤ place, ∃ winner, (arbiter.turns start)[first]? = some winner ∧
      (view.pass (starts.flatMap fun start => granting start [] (arbiter.turns start))).state =
        held winner.2 := by
  induction starts with
  | nil => cases listed
  | cons head rest ih =>
      rw [List.flatMap_cons, View.pass_append]
      by_cases here : head = start
      · subst here
        obtain ⟨first, early, winner, visited, state⟩ :=
          state_pass_granting [] searches (by simp) found asks
        refine ⟨first, early, winner, visited, ?_⟩
        rw [pass_search_of_ne fun other _ there => free_ne_held other winner.2
          (there.symm.trans state), state]
      · have elsewhere : view.state ≠ free head := by
          intro there
          exact here (free_inj (inside head List.mem_cons_self)
            (inside start listed) (there.symm.trans searches))
        rw [pass_granting_of_ne elsewhere]
        exact ih ((List.mem_cons.mp listed).resolve_left (Ne.symm here))
          fun other member => inside other (List.mem_cons_of_mem _ member)

/-- The search begins, or will begin, at `start`. -/
def Seeks (arbiter : Arbiter) (view : View) (start : Nat) : Prop :=
  view.state = free start ∨
    (∃ holder < arbiter.clients.length, start = (holder + 1) % arbiter.clients.length ∧
      view.state = held holder) ∨
    start = 0 ∧ (view.state = .initial ∨ view.state = .base)

theorem Placed.seeks (placed : arbiter.Placed view) (some : 1 ≤ arbiter.clients.length) :
    ∃ start < arbiter.clients.length, arbiter.Seeks view start := by
  rcases placed with initial | resting | ⟨index, inside, searches | holds⟩
  · exact ⟨0, some, .inr (.inr ⟨rfl, .inl initial⟩)⟩
  · exact ⟨0, some, .inr (.inr ⟨rfl, .inr resting⟩)⟩
  · exact ⟨index, inside, .inl searches⟩
  · exact ⟨_, Nat.mod_lt _ some, .inr (.inl ⟨index, inside, rfl, holds⟩)⟩

section Rounds

variable (fits : 1 ≤ arbiter.clients.length ∧ arbiter.clients.length ≤ capacity)

include fits

theorem Seeks.of_held {holder : Nat} (seeks : arbiter.Seeks view start)
    (inside : holder < arbiter.clients.length) (holds : view.state = held holder) :
    start = (holder + 1) % arbiter.clients.length := by
  rcases seeks with searches | ⟨other, within, next, there⟩ | ⟨_, initial | resting⟩
  · exact absurd (searches.symm.trans holds) (free_ne_held _ _)
  · have same := held_inj (by omega) (by omega) (there.symm.trans holds)
    rw [next, same]
  · exact absurd (holds.symm.trans initial) (held_ne_initial _)
  · exact absurd (holds.symm.trans resting) (held_ne_base (by omega))

/-- Coming from rest, the search begins at the first client. -/
theorem fire_begin (seeks : arbiter.Seeks view start) {opened : View}
    (opens : view.fire { conditions := [.inState .base], actions := [.goto (free 0)] } = opened) :
    opened.bits = view.bits ∧ arbiter.Seeks opened start ∧ opened.state ≠ .base ∧
      (opened.state = view.state ∨ opened.state = free start) := by
  rw [View.fire] at opens
  split at opens
  · rename_i enabled
    have resting : view.state = .base := enabled (.inState .base) (by simp)
    have zero : start = 0 := by
      rcases seeks with searches | ⟨holder, below, _, holds⟩ | ⟨zero, _⟩
      · exact absurd (searches.symm.trans resting) (free_ne_base start)
      · exact absurd (holds.symm.trans resting) (held_ne_base (by omega))
      · exact zero
    subst opens zero
    exact ⟨rfl, .inl rfl, free_ne_base 0, .inr rfl⟩
  · rename_i disabled
    subst opens
    refine ⟨rfl, seeks, ?_, .inl rfl⟩
    intro resting
    exact disabled (by simpa [View.Enables, View.Meets] using resting)

/-- Taking the permission back lets the search begin where it should. -/
theorem state_pass_returns (seeks : arbiter.Seeks view start) :
    (view.pass (arbiter.clients.zipIdx.flatMap fun (client, index) =>
      returning arbiter.clients.length index client)).state = view.state ∨
    (view.pass (arbiter.clients.zipIdx.flatMap fun (client, index) =>
      returning arbiter.clients.length index client)).state = free start := by
  refine View.pass_induct
    (motive := fun next => next.state = view.state ∨ next.state = free start) ?_ (.inl rfl)
  intro rule member next stands enabled
  obtain ⟨⟨client, index⟩, listed, member⟩ := List.mem_flatMap.mp member
  have inside : index < arbiter.clients.length :=
    (List.getElem?_eq_some_iff.mp (List.mem_zipIdx_iff_getElem?.mp listed)).1
  have holds : next.state = held index ∧
      (next.carry rule.actions).state = free ((index + 1) % arbiter.clients.length) := by
    simp only [returning, returnRules, List.mem_cons, List.not_mem_nil, or_false] at member
    rcases member with rfl | rfl <;> exact ⟨enabled (.inState (held index)) (by simp), rfl⟩
  have same : view.state = held index := by
    rcases stands with same | searches
    · exact same.symm.trans holds.1
    · exact absurd (searches.symm.trans holds.1) (free_ne_held _ _)
  exact .inr (holds.2.trans (congrArg free (seeks.of_held fits inside same).symm))

variable (nodup : (arbiter.clients.flatMap Client.vars).Nodup) {index : Nat} {client : Client}
  (placed : arbiter.clients[index]? = some client)

include nodup placed

omit fits in
/-- Nobody but the client itself writes its request. -/
theorem request_notMem_returns {rule : Rule}
    (member : rule ∈ arbiter.clients.zipIdx.flatMap fun (client, index) =>
      returning arbiter.clients.length index client) : client.request ∉ rule.writes := by
  obtain ⟨⟨other, place⟩, listed, member⟩ := List.mem_flatMap.mp member
  have found : arbiter.clients[place]? = some other := List.mem_zipIdx_iff_getElem?.mp listed
  have notGranted : client.request ≠ other.granted := (granted_ne nodup found placed).2.2.symm
  have notTaken : client.request ≠ other.taken := by
    intro same
    obtain rfl := index_eq_of_mem_parts nodup placed found (Client.request_mem_vars client)
      (same ▸ Client.taken_mem_vars other)
    obtain rfl := Option.some.inj (placed.symm.trans found)
    have bits := vars_nodup nodup (List.mem_of_getElem? placed)
    simp [Client.vars, same] at bits
  simp only [returning, returnRules, List.mem_cons, List.not_mem_nil, or_false] at member
  rcases member with rfl | rfl <;> simp [Rule.writes, Action.var?, notGranted, notTaken]

/-- What a turn makes of the register while a client asks. Either nothing is searched for, or
the permission goes to somebody who is asked no later than the client. -/
theorem state_turn (built : arbiter.build = .ok automaton) (inside : start < arbiter.clients.length)
    (seeks : arbiter.Seeks view start) (asks : view.bits client.request = true) :
    (view.state = .initial ∧ (view.pass automaton.rules).state = .base) ∨
    (∃ holder < arbiter.clients.length, view.state = held holder ∧
      (view.pass automaton.rules).state = held holder) ∨
    ∃ place ≤ lead arbiter.clients.length start index,
      (view.pass automaton.rules).state = held ((place + start) % arbiter.clients.length) := by
  have within := (List.getElem?_eq_some_iff.mp placed).1
  generalize opens : view.fire { conditions := [.inState .base], actions := [.goto (free 0)] } =
    opened
  obtain ⟨bits, seeks, started, stands⟩ := fire_begin fits seeks opens
  have returns := state_pass_returns fits seeks
  have kept : (opened.pass _).bits client.request = opened.bits client.request :=
    View.bits_pass fun rule => request_notMem_returns nodup placed
  generalize taken : opened.pass _ = returned at returns kept
  have turned : view.pass automaton.rules =
      (returned.pass ((List.range arbiter.clients.length).flatMap fun start =>
        granting start [] (arbiter.turns start))).fire RuleBook.startRule := by
    rw [(build_eq_ok built).2.1, ← taken, ← opens]
    simp only [ruleList, View.pass, List.foldl_append, List.foldl_cons, List.foldl_nil]
  rw [turned]
  by_cases searches : returned.state = free start
  · -- The client stands in the line of those who are asked, so somebody is found.
    have visited : (arbiter.turns start)[lead arbiter.clients.length start index]? =
        some (client, index) := by
      rw [getElem?_turns inside.le (lead_lt _ within), lead_add inside.le within, placed]
      rfl
    obtain ⟨place, early, winner, listed, state⟩ := state_pass_search (List.mem_range.mpr inside)
      (fun other member => (List.mem_range.mp member).trans_le fits.2) searches visited
      (by rw [kept, bits, asks])
    rw [getElem?_turns inside.le (early.trans_lt (lead_lt _ within)), Option.map_eq_some_iff]
      at listed
    obtain ⟨holder, _, rfl⟩ := listed
    refine .inr (.inr ⟨place, early, ?_⟩)
    rw [View.fire, if_neg, state]
    intro enabled
    have initial := enabled (.inState .initial) (by simp [RuleBook.startRule])
    exact held_ne_initial _ (state.symm.trans initial)
  · -- Without a search the register stays, but for the first turn.
    have unopened := returns.resolve_right searches
    have same : returned.state = view.state :=
      unopened.trans (stands.resolve_right fun free => searches (unopened.trans free))
    rw [View.fire]
    rcases seeks with free | ⟨holder, below, _, holds⟩ | ⟨_, initial | resting⟩
    · exact absurd (unopened.trans free) searches
    · have there := unopened.trans holds
      rw [pass_search_of_ne fun other _ free => free_ne_held other holder (free.symm.trans there),
        if_neg]
      · exact .inr (.inl ⟨holder, below, same ▸ there, there⟩)
      · intro enabled
        have initial := enabled (.inState .initial) (by simp [RuleBook.startRule])
        exact held_ne_initial holder (there.symm.trans initial)
    · have there := unopened.trans initial
      rw [pass_search_of_ne, if_pos]
      · exact .inl ⟨same ▸ there, rfl⟩
      · simp [View.Enables, View.Meets, RuleBook.startRule, there]
      · intro other member free
        exact free_ne_initial ((List.mem_range.mp member).trans_le fits.2)
          (free.symm.trans there)
    · exact absurd resting started

/-- How often the client at `place` can still come before the one at `index`. -/
def credit (arbiter : Arbiter) (start place index : Nat) : Nat :=
  if lead arbiter.clients.length start place < lead arbiter.clients.length start index then 1 else 0

/-- A turn that does not serve a client that asks lets another come before it only at the
expense of that other client's credit. -/
theorem credit_turn (built : arbiter.build = .ok automaton)
    (inside : start < arbiter.clients.length) (seeks : arbiter.Seeks view start)
    (asks : view.bits client.request = true)
    (waits : (view.pass automaton.rules).state ≠ held index) {place : Nat}
    (within : place < arbiter.clients.length) :
    ∃ next < arbiter.clients.length, arbiter.Seeks (view.pass automaton.rules) next ∧
      (if view.state ≠ held place ∧ (view.pass automaton.rules).state = held place then 1 else 0) +
        arbiter.credit next place index ≤ arbiter.credit start place index := by
  have client_lt := (List.getElem?_eq_some_iff.mp placed).1
  rcases state_turn fits nodup placed built inside seeks asks with
    ⟨initial, resting⟩ | ⟨holder, below, before, after⟩ | ⟨asked, early, state⟩
  · have zero : start = 0 := by
      rcases seeks with searches | ⟨holder, _, _, holds⟩ | ⟨zero, _⟩
      · exact absurd (searches.symm.trans initial) (free_ne_initial (inside.trans_le fits.2))
      · exact absurd (holds.symm.trans initial) (held_ne_initial holder)
      · exact zero
    refine ⟨start, inside, .inr (.inr ⟨zero, .inr resting⟩), ?_⟩
    rw [if_neg fun rises => held_ne_base (within.trans_le fits.2) (rises.2.symm.trans resting)]
    omega
  · refine ⟨start, inside, .inr (.inl ⟨holder, below, seeks.of_held fits below before, after⟩), ?_⟩
    rw [if_neg fun rises => rises.1 (before.trans (after.symm.trans rises.2))]
    omega
  · have holder_lt : (asked + start) % arbiter.clients.length < arbiter.clients.length :=
      Nat.mod_lt _ fits.1
    refine ⟨_, Nat.mod_lt _ fits.1, .inr (.inl ⟨_, holder_lt, rfl, state⟩), ?_⟩
    -- The new holder is not the client, so the client is asked later.
    have sooner : asked < lead arbiter.clients.length start index := by
      refine early.lt_of_ne fun last => waits ?_
      rw [state, last, lead_add inside.le client_lt]
    have closer := lead_of_granted inside.le client_lt sooner
    by_cases served : (asked + start) % arbiter.clients.length = place
    · have spent := lead_unique inside.le (sooner.trans (lead_lt _ client_lt)) served
      have behind := lead_of_holder within
      have below := lead_lt ((place + 1) % arbiter.clients.length) client_lt
      rw [served] at closer ⊢
      simp only [credit]
      split <;> split <;> split <;> omega
    · have quiet : (view.pass automaton.rules).state ≠ held place := by
        intro holds
        exact served (held_inj (holder_lt.trans_le fits.2) (within.trans_le fits.2)
          (state.symm.trans holds))
      rw [if_neg fun rises => quiet rises.2]
      by_cases ahead : lead arbiter.clients.length start place <
          lead arbiter.clients.length start index
      · simp only [credit, if_pos ahead]
        split <;> omega
      · have along := lead_of_granted inside.le within (sooner.trans_le (Nat.le_of_not_lt ahead))
        simp only [credit, if_neg ahead]
        rw [if_neg (by omega)]

end Rounds

end Arbiter

/-- How often a variable changes from 0 to 1 in a run. -/
def Machine.rises (machine : Machine) (var : Var) : List Event → Nat
  | [] => 0
  | event :: events =>
      match machine.react event with
      | .error _ => 0
      | .ok next =>
          (if machine.get var = .ok false ∧ next.get var = .ok true then 1 else 0) +
            next.rises var events

namespace Arbiter.Alone

variable {arbiter : Arbiter} {automaton : Automaton} {layout : Layout} {machine next : Machine}
  {cell after : Cell}

/-- A grant is read as what the register says. -/
theorem get_granted (alone : arbiter.Alone automaton layout machine cell) {index : Nat}
    {client : Client} (placed : arbiter.clients[index]? = some client)
    (reserved : layout.Holds client.granted) :
    machine.get client.granted = .ok (decide (cell.state = held index)) := by
  refine Memory.read_eq_ok.mpr ⟨alone.size ▸ reserved, ?_⟩
  rw [Bool.eq_iff_iff, decide_eq_true_iff]
  exact alone.tells placed

/-- What is written from outside leaves the register as it is. -/
theorem cell_write (alone : arbiter.Alone automaton layout machine cell)
    (aloneNext : arbiter.Alone automaton layout next after) {var : Var} {value : Bool}
    (reacted : machine.react (.write var value) = .ok next) : after = cell := by
  obtain ⟨memory, _, rfl⟩ := Machine.set_eq_ok reacted
  have same := aloneNext.cells.symm.trans alone.cells
  simpa using same

theorem view_turn (alone : arbiter.Alone automaton layout machine cell)
    (aloneNext : arbiter.Alone automaton layout next after)
    (reacted : machine.react (.turn 0) = .ok next) :
    after.view next.memory = (cell.view machine.memory).tick.pass automaton.rules := by
  obtain ⟨changed, evaluated⟩ := Machine.react_turn_eq_ok reacted
  obtain ⟨known, reached, there, here, -, view, -, -⟩ := Machine.view_evaluate evaluated
  obtain rfl : known = cell := by simpa [alone.cells] using there.symm
  obtain rfl : reached = after := by simpa [aloneNext.cells] using here.symm
  rw [view, alone.automaton]

variable (built : arbiter.build = .ok automaton)
  (reserved : ∀ client ∈ arbiter.clients, ∀ var ∈ client.vars, layout.Holds var)
  (nodup : (arbiter.clients.flatMap Client.vars).Nodup)

include built reserved nodup

/-- After its first turn the register never stands at its power-on state. -/
theorem started {before : List Event} {settings : SimConfig}
    (heard : ∀ event ∈ before, arbiter.Hears event)
    (played : (Machine.powerOn { table := layout.table, automata := [automaton] } settings).play
      before = .ok machine) :
    ∃ cell, arbiter.Alone automaton layout machine cell ∧
      (.turn 0 ∈ before → cell.state ≠ .initial) := by
  refine Machine.play_induct (motive := fun past machine => ∃ cell,
    arbiter.Alone automaton layout machine cell ∧ (.turn 0 ∈ past → cell.state ≠ .initial))
    ⟨_, alone_powerOn arbiter automaton layout settings, by simp⟩ ?_ played
  rintro past event middle next inside - ⟨cell, alone, known⟩ reacted
  have hears := heard event (inside.subset (by simp))
  cases event with
  | turn place =>
      obtain rfl : place = 0 := hears
      obtain ⟨reached, after, changed, evaluated, aloneNext, moved⟩ :=
        alone.turn built reserved nodup
      obtain ⟨flag, again⟩ := Machine.react_turn_eq_ok reacted
      obtain ⟨rfl, -⟩ := Prod.mk.inj (Except.ok.inj (evaluated.symm.trans again))
      exact ⟨after, aloneNext, fun _ => moved⟩
  | write var value =>
      obtain ⟨reached, after, again, aloneNext⟩ := alone.react built reserved nodup hears
      obtain rfl := Except.ok.inj (reacted.symm.trans again)
      obtain rfl := alone.cell_write aloneNext reacted
      exact ⟨after, aloneNext, fun turned => known (by simpa using turned)⟩

variable {index : Nat} {client : Client} (placed : arbiter.clients[index]? = some client)

include placed

/-- While a client asks and waits, another one is given the permission no more often than its
credit allows. -/
theorem rises_le_credit {place : Nat} {other : Client}
    (found : arbiter.clients[place]? = some other) {events : List Event}
    (alone : arbiter.Alone automaton layout machine cell)
    (heard : ∀ event ∈ events, arbiter.Hears event) {start : Nat}
    (inside : start < arbiter.clients.length)
    (seeks : arbiter.Seeks (cell.view machine.memory) start)
    (waits : ∀ past between, past <+: events → machine.play past = .ok between →
      between.get client.request = .ok true ∧ between.get client.granted = .ok false) :
    machine.rises other.granted events ≤ arbiter.credit start place index := by
  have fits := (build_eq_ok built).2.2
  have within := (List.getElem?_eq_some_iff.mp found).1
  have grants : ∀ {index : Nat} {client : Client}, arbiter.clients[index]? = some client →
      layout.Holds client.granted := fun known =>
    reserved _ (List.mem_of_getElem? known) _ (Client.granted_mem_vars _)
  induction events generalizing machine cell start with
  | nil => exact Nat.zero_le _
  | cons event events ih =>
      obtain ⟨hears, rest⟩ := List.forall_mem_cons.mp heard
      obtain ⟨next, after, reacted, aloneNext⟩ := alone.react built reserved nodup hears
      have later : ∀ past between, past <+: events → next.play past = .ok between →
          between.get client.request = .ok true ∧ between.get client.granted = .ok false :=
        fun past between part played => waits (event :: past) between
          (List.cons_prefix_cons.mpr ⟨rfl, part⟩) ((Machine.play_cons reacted past).trans played)
      simp only [Machine.rises, reacted, alone.get_granted found (grants found),
        aloneNext.get_granted found (grants found), Except.ok.injEq, decide_eq_false_iff_not,
        decide_eq_true_eq]
      cases event with
      | write var value =>
          obtain rfl := alone.cell_write aloneNext reacted
          rw [if_neg fun rises => rises.1 rises.2, Nat.zero_add]
          exact ih aloneNext rest inside seeks later
      | turn moved =>
          obtain rfl : moved = 0 := hears
          have view := alone.view_turn aloneNext reacted
          have asks : (cell.view machine.memory).tick.bits client.request = true := by
            rw [View.bits_tick]
            exact (Memory.read_eq_ok.mp (waits [] machine (List.nil_prefix) rfl).1).2
          have unserved : after.state ≠ held index := by
            have idle := (later [] next List.nil_prefix rfl).2
            simpa [aloneNext.get_granted placed (grants placed)] using idle
          have state : ((cell.view machine.memory).tick.pass automaton.rules).state = after.state :=
            congrArg View.state view.symm
          have ticked : arbiter.Seeks (cell.view machine.memory).tick start := by
            rwa [Seeks, View.state_tick]
          obtain ⟨fresh, below, seeks, spent⟩ := credit_turn fits nodup placed built inside ticked
            asks (state ▸ unserved) within
          rw [state, View.state_tick] at spent
          exact (Nat.add_le_add_left (ih aloneNext rest below (view ▸ seeks) later) _).trans spent

/-- From its second turn on the arbiter leaves the permission with somebody as long as a client
asks. -/
theorem held_of_asking (alone : arbiter.Alone automaton layout machine cell)
    (started : cell.state ≠ .initial) (asks : machine.get client.request = .ok true)
    (reacted : machine.react (.turn 0) = .ok next) :
    ∃ after holder, arbiter.Alone automaton layout next after ∧ holder < arbiter.clients.length ∧
      after.state = held holder := by
  have fits := (build_eq_ok built).2.2
  have heard : arbiter.Hears (.turn 0) := rfl
  obtain ⟨reached, after, again, aloneNext⟩ := alone.react built reserved nodup heard
  obtain rfl := Except.ok.inj (reacted.symm.trans again)
  have state := congrArg View.state (alone.view_turn aloneNext reacted)
  obtain ⟨start, inside, seeks⟩ := alone.placed.seeks fits.1
  have ticked : arbiter.Seeks (cell.view machine.memory).tick start := by
    rwa [Seeks, View.state_tick]
  have wants : (cell.view machine.memory).tick.bits client.request = true := by
    rw [View.bits_tick]
    exact (Memory.read_eq_ok.mp asks).2
  rcases state_turn fits nodup placed built inside ticked wants with
    ⟨initial, _⟩ | ⟨holder, below, _, holds⟩ | ⟨asked, _, holds⟩
  · exact absurd initial (by rwa [View.state_tick])
  · exact ⟨after, holder, aloneNext, below, state.trans holds⟩
  · exact ⟨after, _, aloneNext, Nat.mod_lt _ fits.1, state.trans holds⟩

end Arbiter.Alone

/-- Nobody overtakes a waiting client twice. Take any run of an arbiter from power-on, with
whatever its clients ask and report between its turns, and a part of the run throughout which
one client asks and is not granted the permission. In this part the grant of every other client
rises at most once, so there are at most as many grants to others as there are others. The
arbiter is not idle either: after each turn but the very first somebody else holds the
permission. -/
theorem waiting_client_is_not_overtaken (config : Config) (orders : List Order) (arbiter : Arbiter)
    (declared : arbiter ∈ ((Yard.empty config).performAll orders).arbiters) (automaton : Automaton)
    (built : arbiter.build = .ok automaton) (settings : SimConfig) (before events : List Event)
    (heard : ∀ event ∈ before ++ events, arbiter.Hears event) (index : Nat) (client : Client)
    (placed : arbiter.clients[index]? = some client) :
    ∃ begun ended,
      (Machine.powerOn
        { table := ((Yard.empty config).performAll orders).layout.table
          automata := [automaton] } settings).play before = .ok begun ∧
      begun.play events = .ok ended ∧
      ((∀ past between, past <+: events → begun.play past = .ok between →
          between.get client.request = .ok true ∧ between.get client.granted = .ok false) →
        (∀ place other, arbiter.clients[place]? = some other → place ≠ index →
          begun.rises other.granted events ≤ 1) ∧
        ((arbiter.clients.eraseIdx index).map (begun.rises ·.granted events)).sum ≤
          arbiter.clients.length - 1 ∧
        ∀ past between, past ++ [.turn 0] <+: events → .turn 0 ∈ before ++ past →
          begun.play (past ++ [.turn 0]) = .ok between →
          ∃ place other, arbiter.clients[place]? = some other ∧ place ≠ index ∧
            between.get other.granted = .ok true) := by
  have distinct := Yard.performAll_distinct config orders
  have nodup := distinct.clients_nodup declared
  have reserved := distinct.clients_reserved declared
  have fits := (Arbiter.build_eq_ok built).2.2
  obtain ⟨heardBefore, heardEvents⟩ := List.forall_mem_append.mp heard
  obtain ⟨begun, cell, reached, alone⟩ :=
    (Arbiter.alone_powerOn arbiter automaton _ settings).play built reserved nodup heardBefore
  obtain ⟨ended, _, played, -⟩ := alone.play built reserved nodup heardEvents
  refine ⟨begun, ended, reached, played, ?_⟩
  intro waits
  have once : ∀ (place : Nat) (other : Client), arbiter.clients[place]? = some other →
      begun.rises other.granted events ≤ 1 := by
    intro place other found
    obtain ⟨start, inside, seeks⟩ := alone.placed.seeks fits.1
    have bounded := alone.rises_le_credit built reserved nodup placed found heardEvents inside
      seeks waits
    refine bounded.trans ?_
    rw [Arbiter.credit]
    split <;> omega
  refine ⟨fun place other found _ => once place other found, ?_, ?_⟩
  · have bound := List.sum_le_card_nsmul
      ((arbiter.clients.eraseIdx index).map (begun.rises ·.granted events)) 1
      (by
        intro rises listed
        obtain ⟨other, member, rfl⟩ := List.mem_map.mp listed
        obtain ⟨place, found⟩ := List.mem_iff_getElem?.mp (List.eraseIdx_subset member)
        exact once place other found)
    have within := (List.getElem?_eq_some_iff.mp placed).1
    simpa [List.length_eraseIdx, within] using bound
  · intro past between inside turned evaluated
    have earlier : past <+: events := (List.prefix_append _ _).trans inside
    obtain ⟨middle, _, led, -⟩ := alone.play built reserved nodup
      fun event member => heardEvents event (earlier.subset member)
    have heardPast : ∀ event ∈ before ++ past, arbiter.Hears event :=
      List.forall_mem_append.mpr
        ⟨heardBefore, fun event member => heardEvents event (earlier.subset member)⟩
    obtain ⟨standing, aloneMiddle, started⟩ := Arbiter.Alone.started built reserved nodup heardPast
      ((Machine.play_append reached past).trans led)
    have reacted : middle.react (.turn 0) = .ok between := by
      rw [Machine.play_append led] at evaluated
      simpa [Machine.play] using evaluated
    obtain ⟨after, holder, aloneNext, below, holds⟩ := aloneMiddle.held_of_asking built reserved
      nodup placed (started turned) (waits past middle earlier led).1 reacted
    have known : arbiter.clients[holder]? = some arbiter.clients[holder] :=
      List.getElem?_eq_getElem below
    have grants := aloneNext.get_granted known
      (reserved _ (List.mem_of_getElem? known) _ (Client.granted_mem_vars _))
    refine ⟨holder, _, known, ?_, by simpa [holds] using grants⟩
    rintro rfl
    obtain rfl := Option.some.inj (placed.symm.trans known)
    have idle := (waits _ between inside evaluated).2
    simp [grants, holds] at idle

/-- An arbiter and three clients. -/
def trioOrders : List Order :=
  [.arbiter "single", .client 0 "left", .client 1 "middle", .client 2 "right"]

/-- What the orders declare in the end. -/
def trioArbiter : Arbiter where
  name := "single"
  clients := [⟨"left", ⟨0⟩, ⟨1⟩, ⟨2⟩⟩, ⟨"middle", ⟨4⟩, ⟨5⟩, ⟨6⟩⟩, ⟨"right", ⟨8⟩, ⟨9⟩, ⟨10⟩⟩]

/-- The arbiter is awake and all clients ask. -/
def trioAsking : List Event :=
  [.turn 0, .write ⟨0⟩ true, .write ⟨4⟩ true, .write ⟨8⟩ true]

/-- The left client is served and done, and it asks again at once; the middle client is served. -/
def trioService : List Event := [.turn 0, .write ⟨2⟩ true, .turn 0, .turn 0]

theorem trio_waits :
    ∀ automaton ∈ trioArbiter.build.toOption,
    ∀ begun ∈ ((Machine.powerOn
      { table := ((Yard.empty {}).performAll trioOrders).layout.table
        automata := [automaton] } {}).play trioAsking).toOption,
      (∀ past ∈ trioService.inits, ∀ between ∈ (begun.play past).toOption,
        between.get ⟨8⟩ = .ok true ∧ between.get ⟨9⟩ = .ok false) ∧
      begun.rises ⟨1⟩ trioService + begun.rises ⟨5⟩ trioService = 2 := by
  decide +kernel

theorem waiting_client_is_not_overtaken_in_trio :
    trioArbiter ∈ ((Yard.empty {}).performAll trioOrders).arbiters ∧
    (∀ event ∈ trioAsking ++ trioService, trioArbiter.Hears event) ∧
    ∃ automaton begun, trioArbiter.build = .ok automaton ∧
      (Machine.powerOn
        { table := ((Yard.empty {}).performAll trioOrders).layout.table
          automata := [automaton] } {}).play trioAsking = .ok begun ∧
      (∀ past between, past <+: trioService → begun.play past = .ok between →
        between.get ⟨8⟩ = .ok true ∧ between.get ⟨9⟩ = .ok false) ∧
      begun.rises ⟨1⟩ trioService ≤ 1 ∧ begun.rises ⟨5⟩ trioService ≤ 1 ∧
      begun.rises ⟨1⟩ trioService + begun.rises ⟨5⟩ trioService = 2 := by
  have declared : trioArbiter ∈ ((Yard.empty {}).performAll trioOrders).arbiters := by
    decide +kernel
  have heard : ∀ event ∈ trioAsking ++ trioService, trioArbiter.Hears event := by decide
  obtain ⟨automaton, built⟩ := Arbiter.exists_build_iff.mpr
    (by decide : 1 ≤ trioArbiter.clients.length ∧ trioArbiter.clients.length ≤ Arbiter.capacity)
  obtain ⟨begun, ended, reached, played, fair⟩ := waiting_client_is_not_overtaken {} trioOrders
    trioArbiter declared automaton built {} trioAsking trioService heard 2
    ⟨"right", ⟨8⟩, ⟨9⟩, ⟨10⟩⟩ rfl
  obtain ⟨waits, both⟩ := trio_waits automaton (Machine.mem_toOption_iff.mpr built) begun
    (Machine.mem_toOption_iff.mpr reached)
  have waiting : ∀ past between, past <+: trioService → begun.play past = .ok between →
      between.get ⟨8⟩ = .ok true ∧ between.get ⟨9⟩ = .ok false := fun past between inside led =>
    waits past (List.mem_inits _ _ |>.mpr inside) between (Machine.mem_toOption_iff.mpr led)
  obtain ⟨once, -, -⟩ := fair waiting
  have left := once 0 ⟨"left", ⟨0⟩, ⟨1⟩, ⟨2⟩⟩ rfl (by decide)
  have middle := once 1 ⟨"middle", ⟨4⟩, ⟨5⟩, ⟨6⟩⟩ rfl (by decide)
  exact ⟨declared, heard, automaton, begun, built, reached, waiting, left, middle, both⟩

end Interlocking
