import Interlocking.Variable.Table

/-!
# Scopes

A scope is a range of addresses set aside in one go, for variables whose names start
with the scope's path. Scopes nest. While a scope is open its addresses are handed out
in ascending order, and an action runs in it through `Table.within` or `Scope.within`,
which also keeps what the action did to the table when the action fails.
-/

namespace Interlocking

/-- An open range of reserved addresses. -/
structure Scope where
  /-- The path with which the names in the scope start. -/
  path : String
  /-- The first address not yet handed out. -/
  next : UInt32
  /-- The first address behind the range. -/
  limit : UInt32
  deriving DecidableEq, Repr

/-- An action that works in the innermost open scope of a table. -/
abbrev Scoped := EStateM Failure (Scope × Table)

namespace Scope

/-- The number of addresses left in the scope. -/
def remaining (scope : Scope) : UInt32 := scope.limit - scope.next

/-- Sets `count` addresses of the scope aside and gives the first of them. The end of
the range is computed before it is compared with the limit, so it has to fit the width
of an address. -/
def reserve (count : UInt32) (caller : String) : Scoped UInt32 := fun (scope, table) =>
  if UInt32.size ≤ scope.next.toNat + count.toNat then
    .error (.breach .addressOverflow) (scope, table)
  else if scope.limit < scope.next + count then
    .error (.defect (.overrun scope.path caller count scope.remaining)) (scope, table)
  else .ok scope.next ({ scope with next := scope.next + count }, table)

/-- Runs an action on the table alone. -/
def onTable {α : Type} (action : EStateM Failure Table α) : Scoped α := fun (scope, table) =>
  match action table with
  | .ok result table => .ok result (scope, table)
  | .error failure table => .error failure (scope, table)

/-- Reserves one address of the scope and names its variable. -/
def allocate (name : String) : Scoped Var := do
  let address ← reserve 1 name
  let (scope, _) ← get
  onTable (Table.register address (qualify scope.path name))

/-- Runs an action in a nested scope of `count` addresses. -/
def within {α : Type} (name : String) (count : UInt32) (action : Scoped α) : Scoped α :=
  fun state =>
    match reserve count name state with
    | .error failure state => .error failure state
    | .ok first (scope, table) =>
        let inner := { path := qualify scope.path name, next := first, limit := first + count }
        match action (inner, table) with
        | .ok result (_, table) => .ok result (scope, table)
        | .error failure (_, table) => .error failure (scope, table)

end Scope

/-- Runs an action in a new scope of `count` addresses. -/
def Table.within {α : Type} (name : String) (count : UInt32) (action : Scoped α) :
    EStateM Failure Table α := fun table =>
  match Table.reserve count name table with
  | .error failure table => .error failure table
  | .ok first table =>
      let scope := { path := qualify table.name name, next := first, limit := first + count }
      match action (scope, table) with
      | .ok result (_, table) => .ok result table
      | .error failure (_, table) => .error failure table

end Interlocking
