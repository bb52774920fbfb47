import Interlocking.Automaton
import Interlocking.Layout.Pieces

/-!
# Arbiters

An arbiter hands one permission around a list of clients. A client asks with `request`;
the holder gives the permission back by raising `taken` or by dropping its request.
The search for the next holder starts behind the last one, so clients that keep asking
take turns.

The arbiter keeps its place in its state register. For each client there is a state in which
nobody holds the permission and the search starts at the client, and one in which the client
holds it. The register is one byte wide, so an arbiter can have too many clients.
-/

namespace Interlocking

/-- The bits of one client of an arbiter. -/
structure Client where
  name : String
  /-- Written by the client: it wants the permission. -/
  request : Var
  /-- Written by the arbiter: the client holds the permission. -/
  granted : Var
  /-- Written by the client: it has used the permission. -/
  taken : Var
  deriving DecidableEq, Repr

/-- A permission and those who share it, in the order of their turns. -/
structure Arbiter where
  name : String
  clients : List Client := []
  deriving DecidableEq, Repr

namespace Arbiter

/-- Addresses set aside for a client. -/
def clientBitCount : UInt32 := 4

/-- Names the bits of a new client in a table. -/
def clientBits (arbiter : Arbiter) (name : String) : EStateM Failure Table Client :=
  Table.within (qualify arbiter.name name) clientBitCount do
    let request ← Scope.allocate "request"
    let granted ← Scope.allocate "granted"
    let taken ← Scope.allocate "taken"
    return { name, request, granted, taken }

/-- Names the bits of a new client. -/
def allocateClient (arbiter : Arbiter) (name : String) : Build Client :=
  Layout.onTable (arbiter.clientBits name)

/-- The arbiter with one more client, whose turn comes last. -/
def addClient (arbiter : Arbiter) (client : Client) : Arbiter :=
  { arbiter with clients := arbiter.clients ++ [client] }

/-- The state with a number, for which the register must have room. -/
def state (arbiter : Arbiter) (number : Nat) : Except Failure State :=
  if number < UInt8.size then .ok ⟨UInt8.ofNat number⟩
  else .error (.defect (.stateOverflow arbiter.name))

/-- Nobody holds the permission and the search starts at client `index`. -/
def freeState (arbiter : Arbiter) (index : Nat) : Except Failure State :=
  arbiter.state (2 + 2 * index)

/-- Client `index` holds the permission. -/
def heldState (arbiter : Arbiter) (index : Nat) : Except Failure State :=
  arbiter.state (3 + 2 * index)

/-- Takes the permission back from its holder; the search goes on in the state `next`. -/
def returnRules (held next : State) (holder : Client) : List Rule := [
  { conditions := [.inState held, .on holder.taken]
    actions := [.clear holder.granted, .clear holder.taken, .goto next] },
  { conditions := [.inState held, .off holder.request]
    actions := [.clear holder.granted, .goto next] }]

/-- The clients with their indices, beginning with the one at `start`. -/
def turns (arbiter : Arbiter) (start : Nat) : List (Client × Nat) :=
  let numbered := arbiter.clients.zipIdx
  numbered.drop start ++ numbered.take start

/-- Gives the permission to the first client that asks, who then holds it in the state that
stands with it; those in `skipped` come before and must not ask. -/
def grantRules (free : State) (skipped : List Client) : List (Client × State) → List Rule
  | [] => []
  | (client, held) :: rest =>
      { conditions := [.inState free, .on client.request] ++
          skipped.map (fun client => .off client.request)
        actions := [.raise client.granted, .goto held] } ::
      grantRules free (skipped ++ [client]) rest

/-- The rules by which one client gives the permission back. -/
def returns (arbiter : Arbiter) : Client × Nat → Except Failure (List Rule)
  | (holder, index) => do
      let next ← arbiter.freeState ((index + 1) % arbiter.clients.length)
      return returnRules (← arbiter.heldState index) next holder

/-- The rules of a search that starts at client `start`. -/
def grants (arbiter : Arbiter) (start : Nat) : Except Failure (List Rule) := do
  let free ← arbiter.freeState start
  let turns ← (arbiter.turns start).mapM fun (client, index) => do
    return (client, ← arbiter.heldState index)
  return grantRules free [] turns

/-- All rules of an arbiter, which needs a state for each client. -/
def rules (arbiter : Arbiter) : Except Failure (List Rule) := do
  let start ← arbiter.freeState 0
  let returns ← arbiter.clients.zipIdx.mapM arbiter.returns
  let grants ← (List.range arbiter.clients.length).mapM arbiter.grants
  return { conditions := [.inState .base], actions := [.goto start] } ::
    (returns.flatten ++ grants.flatten)

/-- The automaton of an arbiter, which needs at least one client. -/
def build (arbiter : Arbiter) : Except Failure Automaton :=
  if arbiter.clients = [] then .error (.defect (.noClients arbiter.name))
  else do
    let rules ← arbiter.rules
    return (({ name := arbiter.name : RuleBook }.contribute .schedule rules).build)

end Arbiter

end Interlocking
