import Interlocking.Name
import Interlocking.Variable.Search

/-!
# The variable table

A variable is one bit on the bus. The table hands out its address, records its name and
derives the pair of events that announce its changes. Addresses are never given back,
and an address that was reserved for a request which then failed stays reserved.

The table keeps its records twice: in an array in the order of the addresses, which is
searched by halving, and in an index of the names.
-/

namespace Interlocking

/-- A variable, known by its address in the event block. -/
structure Var where
  address : UInt32
  deriving DecidableEq, Repr, Inhabited

/-- Position of a variable in storage with one slot for each address. -/
def Var.index (var : Var) : Nat := var.address.toNat

/-- What the table records of a named variable. -/
structure Variable where
  var : Var
  /-- The full dotted name. -/
  name : String
  /-- The event sent when the bit becomes 1. -/
  on : UInt64
  /-- The event sent when the bit becomes 0. -/
  off : UInt64
  deriving DecidableEq, Repr

/-- The address space of one event block and its named variables. -/
structure Table where
  /-- The name with which every variable's name starts. -/
  name : String
  /-- The first event of the block. -/
  eventBase : UInt64
  /-- The number of addresses. -/
  size : UInt32
  /-- The first address not yet reserved. -/
  next : UInt32 := 0
  /-- The named variables in ascending order of address. -/
  entries : Array Variable := #[]
  /-- The variable that each full name stands for. -/
  names : List (String × Var) := []
  deriving DecidableEq, Repr

namespace Table

/-- The number of addresses not yet reserved. -/
def remaining (table : Table) : UInt32 := table.size - table.next

/-- The number of addresses reserved so far, whether they were given to a variable or not. -/
def span (table : Table) : Nat := table.next.toNat

/-- The record of a variable, if it was named. -/
def info? (table : Table) (var : Var) : Option Variable :=
  match locate (fun entry => compare entry.var.address var.address) table.entries with
  | .ok place => table.entries[place]?
  | .error _ => none

/-- The record of a variable that is known to be named. -/
def info (table : Table) (var : Var) : Except Failure Variable :=
  match table.info? var with
  | some entry => .ok entry
  | none => .error (.breach .noSuchVariable)

/-- The name of a variable, or a question mark if it has none. -/
def nameOf (table : Table) (var : Var) : String :=
  ((table.info? var).map (·.name)).getD "?"

/-- The variable with a full name. -/
def find? (table : Table) (name : String) : Option Var := table.names.lookup name

/-- The two events of an address, if both are at most the last possible one. -/
def events? (base : UInt64) (address : UInt32) : Option (UInt64 × UInt64) :=
  let on := base.toNat + 2 * address.toNat
  if on + 1 < UInt64.size then some (UInt64.ofNat on, UInt64.ofNat (on + 1)) else none

/-- Adds a record behind all records of smaller addresses. -/
def insertEntry (entry : Variable) (entries : Array Variable) : Array Variable :=
  let place := partitionPoint (fun other => other.var.address < entry.var.address) entries
  entries.insertIdxIfInBounds place entry

/-- Sets `count` addresses aside and gives the first of them. -/
def reserve (count : UInt32) (caller : String) : EStateM Failure Table UInt32 := fun table =>
  if table.remaining < count then
    .error (.defect (.overrun table.name caller count table.remaining)) table
  else .ok table.next { table with next := table.next + count }

/-- Names the variable at a reserved address. -/
def register (address : UInt32) (name : String) : EStateM Failure Table Var := fun table =>
  if (table.find? name).isSome then .error (.defect (.duplicateName name)) table
  else
    match events? table.eventBase address with
    | none => .error (.breach .eventOverflow) table
    | some (on, off) =>
        .ok ⟨address⟩ { table with
          entries := insertEntry { var := ⟨address⟩, name, on, off } table.entries
          names := (name, ⟨address⟩) :: table.names }

/-- Reserves one address and names its variable. -/
def allocate (name : String) : EStateM Failure Table Var := do
  let address ← reserve 1 name
  let table ← get
  register address (qualify table.name name)

end Table

end Interlocking
