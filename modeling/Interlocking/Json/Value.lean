/-!
# JSON values

The data that a JSON text stands for, as far as the formats of this library need it:
numbers are natural numbers, and everything else that a text may hold is kept only as
`foreign`, so that a reader can step over it but never mistake it for a value.

A *record* is a value with named fields. It is written as an object, in which unknown
names are passed over and a known name stands at most once, or as an array of its
leading fields in order.
-/

namespace Interlocking.Json

/-- A JSON value. -/
inductive Value where
  | null
  | bool (value : Bool)
  /-- A number written with digits alone. -/
  | natural (value : Nat)
  | string (text : String)
  | array (items : List Value)
  /-- The members stand in the order of the text, repeated names included. -/
  | object (members : List (String × Value))
  /-- Well-formed text that no format here gives a meaning: a number with a sign, a
  fraction or an exponent, a string holding half of a surrogate pair, or an object
  with such a string as a name. -/
  | foreign
  deriving Repr, Inhabited

namespace Value

/-- The text of a string. -/
def text? : Value → Option String
  | .string text => some text
  | _ => none

/-- The truth value of `true` or `false`. -/
def bool? : Value → Option Bool
  | .bool value => some value
  | _ => none

/-- A number below `bound`. -/
def below? (bound : Nat) : Value → Option Nat
  | .natural value => if value < bound then some value else none
  | _ => none

/-- A number of eight bits. -/
def byte? (value : Value) : Option UInt8 := (value.below? UInt8.size).map UInt8.ofNat

/-- A number of thirty-two bits. -/
def word? (value : Value) : Option UInt32 := (value.below? UInt32.size).map UInt32.ofNat

/-- A number of sixty-four bits. -/
def long? (value : Value) : Option UInt64 := (value.below? UInt64.size).map UInt64.ofNat

@[simp] theorem byte?_natural (number : UInt8) :
    (Value.natural number.toNat).byte? = some number := by
  have bounded : number.toNat < UInt8.size := number.toNat_lt
  simp [byte?, below?, bounded]

@[simp] theorem word?_natural (number : UInt32) :
    (Value.natural number.toNat).word? = some number := by
  have bounded : number.toNat < UInt32.size := number.toNat_lt
  simp [word?, below?, bounded]

@[simp] theorem long?_natural (number : UInt64) :
    (Value.natural number.toNat).long? = some number := by
  have bounded : number.toNat < UInt64.size := number.toNat_lt
  simp [long?, below?, bounded]

/-- The items of an array. -/
def items? : Value → Option (List Value)
  | .array items => some items
  | _ => none

/-- The one value that goes with `name`, or `some none` when there is none; a repeated
name has no answer. -/
def member? (name : String) (members : List (String × Value)) : Option (Option Value) :=
  match members.filter (fun member => member.1 = name) with
  | [] => some none
  | [member] => some (some member.2)
  | _ => none

/-- The fields of a record in the order of `names`, each absent if it was not written. -/
def record? (names : List String) : Value → Option (List (Option Value))
  | .object members => names.mapM (fun name => member? name members)
  | .array items =>
      if items.length ≤ names.length then
        some (items.map some ++ List.replicate (names.length - items.length) none)
      else none
  | _ => none

end Value

end Interlocking.Json
