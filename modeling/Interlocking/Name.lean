import Interlocking.Failure

/-!
# Names

Variables and scopes are known by dotted paths. The board's own name, with which every
path of a layout starts, has a fixed capacity so that it fits the boards' tables.
-/

namespace Interlocking

/-- Joins a path and a component with a dot, leaving the dot out when either is empty. -/
def qualify (path component : String) : String :=
  if component = "" then path
  else if path = "" then component
  else path ++ "." ++ component

/-- A name of at most 64 bytes. -/
structure ShortName where
  text : String
  fits : text.utf8ByteSize ≤ 64
  deriving DecidableEq, Repr

namespace ShortName

/-- The capacity of a short name in bytes. -/
def capacity : Nat := 64

/-- Accepts exactly the texts that fit, measured in bytes and not in characters. -/
def ofString (text : String) : Except Failure ShortName :=
  if fits : text.utf8ByteSize ≤ capacity then .ok ⟨text, fits⟩
  else .error (.defect (.nameTooLong text capacity))

end ShortName

end Interlocking
