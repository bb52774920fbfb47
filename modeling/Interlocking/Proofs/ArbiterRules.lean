import Interlocking.Arbiter
import Interlocking.Proofs.Monadic
import Interlocking.Proofs.RuleOrder

/-!
# The rules of an arbiter

An arbiter asks for each of its states whether the register has room for it. The register has
room for two states of 127 clients, so an arbiter with more is refused, and the rules of one with
fewer can be written down without asking.
-/

namespace Interlocking.Arbiter

/-- The number of clients for whose two states the register has room, next to the two states that
all automata have. -/
def capacity : Nat := (UInt8.size - 2) / 2

theorem capacity_eq : capacity = 127 := rfl

/-- Nobody holds the permission and the search starts at client `index`. -/
def free (index : Nat) : State := ⟨UInt8.ofNat (2 + 2 * index)⟩

/-- Client `index` holds the permission. -/
def held (index : Nat) : State := ⟨UInt8.ofNat (3 + 2 * index)⟩

/-- Takes the permission back from client `index`. -/
def returning (count index : Nat) (holder : Client) : List Rule :=
  returnRules (held index) (free ((index + 1) % count)) holder

/-- Gives the permission to the first client that asks; those in `skipped` come before
and must not ask. -/
def granting (start : Nat) (skipped : List Client) (turns : List (Client × Nat)) : List Rule :=
  grantRules (free start) skipped (turns.map fun (client, index) => (client, held index))

/-- All rules of an arbiter that has a state for each client. -/
def ruleList (arbiter : Arbiter) : List Rule :=
  let count := arbiter.clients.length
  { conditions := [.inState .base], actions := [.goto (free 0)] } ::
    (arbiter.clients.zipIdx.flatMap (fun (client, index) => returning count index client) ++
      (List.range count).flatMap (fun start => granting start [] (arbiter.turns start)))

theorem granting_cons (start : Nat) (skipped : List Client) (client : Client) (index : Nat)
    (turns : List (Client × Nat)) : granting start skipped ((client, index) :: turns) =
      { conditions := [.inState (free start), .on client.request] ++
          skipped.map (fun client => .off client.request)
        actions := [.raise client.granted, .goto (held index)] } ::
      granting start (skipped ++ [client]) turns := rfl

variable {arbiter : Arbiter} {automaton : Automaton} {index : Nat}

theorem freeState_eq (inside : index < capacity) : arbiter.freeState index = .ok (free index) := by
  rw [capacity_eq] at inside
  have fits : 2 + 2 * index < UInt8.size := by
    simp only [UInt8.size]
    omega
  exact if_pos fits

theorem heldState_eq (inside : index < capacity) : arbiter.heldState index = .ok (held index) := by
  rw [capacity_eq] at inside
  have fits : 3 + 2 * index < UInt8.size := by
    simp only [UInt8.size]
    omega
  exact if_pos fits

theorem heldState_of_le (outside : capacity ≤ index) :
    arbiter.heldState index = .error (.defect (.stateOverflow arbiter.name)) := by
  rw [capacity_eq] at outside
  have tooLarge : ¬3 + 2 * index < UInt8.size := by
    simp only [UInt8.size]
    omega
  exact if_neg tooLarge

theorem state_eq_error {number : Nat} {failure : Failure}
    (failed : arbiter.state number = .error failure) :
    failure = .defect (.stateOverflow arbiter.name) := by
  unfold state at failed
  split at failed
  · cases failed
  · exact (Except.error.inj failed).symm

theorem lt_length_of_mem_turns {start : Nat} {turn : Client × Nat}
    (member : turn ∈ arbiter.turns start) : turn.2 < arbiter.clients.length := by
  have listed : turn ∈ arbiter.clients.zipIdx := by
    rcases List.mem_append.mp member with member | member
    · exact List.mem_of_mem_drop member
    · exact List.mem_of_mem_take member
  exact List.snd_lt_of_mem_zipIdx listed

section Room

variable (enough : arbiter.clients.length ≤ capacity)

include enough

theorem returns_eq_ok {turn : Client × Nat} (listed : turn ∈ arbiter.clients.zipIdx) :
    arbiter.returns turn = .ok (returning arbiter.clients.length turn.2 turn.1) := by
  obtain ⟨holder, index⟩ := turn
  have below : index < arbiter.clients.length := List.snd_lt_of_mem_zipIdx listed
  have next : (index + 1) % arbiter.clients.length < capacity :=
    (Nat.mod_lt _ (Nat.zero_lt_of_lt below)).trans_le enough
  simp only [returns, freeState_eq next, heldState_eq (below.trans_le enough), bind, Except.bind]
  rfl

theorem grants_eq_ok {start : Nat} (inside : start < arbiter.clients.length) :
    arbiter.grants start = .ok (granting start [] (arbiter.turns start)) := by
  have turns : (arbiter.turns start).mapM (fun (client, index) => do
        return (client, ← arbiter.heldState index)) =
      .ok ((arbiter.turns start).map fun (client, index) => (client, held index)) := by
    apply mapM_eq_ok
    rintro ⟨client, index⟩ member
    have inside : index < capacity := (lt_length_of_mem_turns member).trans_le enough
    simp only [heldState_eq inside]
    rfl
  rw [grants, freeState_eq (inside.trans_le enough), turns]
  rfl

/-- With room for all clients the rules are those in the list. -/
theorem rules_eq_ok (some : 1 ≤ arbiter.clients.length) :
    arbiter.rules = .ok arbiter.ruleList := by
  have returned := mapM_eq_ok fun _ => returns_eq_ok enough
  have granted := mapM_eq_ok fun start listed =>
    grants_eq_ok enough (List.mem_range.mp listed : start < arbiter.clients.length)
  rw [rules, freeState_eq (some.trans enough), returned, granted]
  rfl

end Room

/-- Without room for all clients there are no rules, since the last client cannot be the holder. -/
theorem rules_eq_error (many : capacity < arbiter.clients.length) :
    arbiter.rules = .error (.defect (.stateOverflow arbiter.name)) := by
  have room : 0 < capacity := by decide
  have returned : arbiter.clients.zipIdx.mapM arbiter.returns =
      .error (.defect (.stateOverflow arbiter.name)) := by
    apply mapM_eq_error
    · have last : arbiter.clients.length - 1 < arbiter.clients.length := by omega
      refine ⟨(arbiter.clients[arbiter.clients.length - 1], arbiter.clients.length - 1), ?_, ?_⟩
      · exact List.mem_zipIdx_iff_getElem?.mpr (List.getElem?_eq_getElem last)
      · have first : (arbiter.clients.length - 1 + 1) % arbiter.clients.length = 0 := by
          rw [Nat.sub_add_cancel (by omega), Nat.mod_self]
        rw [returns, first, freeState_eq room, heldState_of_le (Nat.le_sub_one_of_lt many)]
        rfl
    · rintro ⟨holder, index⟩ - reason failed
      rcases bind_eq_error.mp failed with next | ⟨_, -, failed⟩
      · exact state_eq_error next
      · rcases bind_eq_error.mp failed with own | ⟨_, -, failed⟩
        · exact state_eq_error own
        · cases failed
  rw [rules, freeState_eq room, returned]
  rfl

theorem build_eq_ok (built : arbiter.build = .ok automaton) :
    automaton.name = arbiter.name ∧ automaton.rules = arbiter.ruleList ++ [RuleBook.startRule] ∧
      1 ≤ arbiter.clients.length ∧ arbiter.clients.length ≤ capacity := by
  unfold build at built
  split at built
  · cases built
  · rename_i some
    have some := List.length_pos_iff.mpr some
    rcases Nat.lt_or_ge capacity arbiter.clients.length with many | enough
    · simp [rules_eq_error many, bind, Except.bind] at built
    · simp only [rules_eq_ok enough some, bind, Except.bind] at built
      obtain rfl := Except.ok.inj built
      refine ⟨?_, ?_, some, enough⟩
      · unfold RuleBook.contribute
        split <;> rfl
      · rw [RuleBook.rules_build]
        simp [Phase.all]

/-- An arbiter can be built exactly if it has clients and the register has states for them. -/
theorem exists_build_iff : (∃ automaton, arbiter.build = .ok automaton) ↔
    1 ≤ arbiter.clients.length ∧ arbiter.clients.length ≤ capacity := by
  constructor
  · rintro ⟨automaton, built⟩
    exact (build_eq_ok built).2.2
  · rintro ⟨some, enough⟩
    unfold build
    rw [if_neg (List.length_pos_iff.mp some), rules_eq_ok enough some]
    exact ⟨_, rfl⟩

/-- Why an arbiter cannot be built. -/
theorem build_eq_error {failure : Failure} (failed : arbiter.build = .error failure) :
    arbiter.clients = [] ∧ failure = .defect (.noClients arbiter.name) ∨
      capacity < arbiter.clients.length ∧ failure = .defect (.stateOverflow arbiter.name) := by
  unfold build at failed
  split at failed
  · rename_i none
    exact .inl ⟨none, (Except.error.inj failed).symm⟩
  · rename_i some
    have some := List.length_pos_iff.mpr some
    rcases Nat.lt_or_ge capacity arbiter.clients.length with many | enough
    · rw [rules_eq_error many] at failed
      exact .inr ⟨many, (Except.error.inj failed).symm⟩
    · rw [rules_eq_ok enough some] at failed
      cases failed

end Interlocking.Arbiter
