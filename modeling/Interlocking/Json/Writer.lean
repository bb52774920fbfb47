import Interlocking.Json.Value

/-!
# Writing JSON

Two ways to write a value: `compact` puts no blanks anywhere, `pretty` puts every item
of a list and every member of an object on a line of its own, indented by two blanks
for each level. Both quote strings in the same way: a quote, a backslash and the
control characters are escaped, and every other character stands for itself.
-/

namespace Interlocking.Json

/-- The lower-case hexadecimal digit of a number below sixteen. -/
def hexDigit (value : Nat) : Char :=
  if value < 10 then Char.ofNat ('0'.toNat + value) else Char.ofNat ('a'.toNat + (value - 10))

/-- One character as it is written inside a string. -/
def escape (c : Char) : List Char :=
  if c = '"' then ['\\', '"']
  else if c = '\\' then ['\\', '\\']
  else if c = '\x08' then ['\\', 'b']
  else if c = '\t' then ['\\', 't']
  else if c = '\n' then ['\\', 'n']
  else if c = '\x0c' then ['\\', 'f']
  else if c = '\r' then ['\\', 'r']
  else if c.toNat < 0x20 then
    ['\\', 'u', '0', '0', hexDigit (c.toNat / 16), hexDigit (c.toNat % 16)]
  else [c]

/-- A string between quotes. -/
def quote (text : String) : List Char :=
  '"' :: (text.toList.flatMap escape ++ ['"'])

/-- The decimal digits of a number. -/
def decimal (value : Nat) : List Char := Nat.toDigits 10 value

/-- The parts one after another, with `separator` between two of them. -/
def separated (separator : List Char) : List (List Char) → List Char
  | [] => []
  | [part] => part
  | part :: next :: parts => part ++ separator ++ separated separator (next :: parts)

namespace Value

mutual

/-- The characters of a value written without blanks. -/
def compact : Value → List Char
  | .null => "null".toList
  | .bool true => "true".toList
  | .bool false => "false".toList
  | .natural value => decimal value
  | .string text => quote text
  | .array items => '[' :: (separated [','] (compactItems items) ++ [']'])
  | .object members => '\x7b' :: (separated [','] (compactMembers members) ++ ['\x7d'])
  | .foreign => "null".toList

/-- Each item of a list written without blanks. -/
def compactItems : List Value → List (List Char)
  | [] => []
  | item :: items => compact item :: compactItems items

/-- Each member of an object written without blanks. -/
def compactMembers : List (String × Value) → List (List Char)
  | [] => []
  | (name, value) :: members =>
      (quote name ++ ':' :: compact value) :: compactMembers members

end

/-- A line break followed by the indentation of `level`. -/
def lineBreak (level : Nat) : List Char := '\n' :: List.replicate (2 * level) ' '

/-- Wraps parts in brackets, each on a line one level deeper; brackets without parts
stay together. -/
def block (opening closing : Char) (level : Nat) : List (List Char) → List Char
  | [] => [opening, closing]
  | parts =>
      opening :: (lineBreak (level + 1)
        ++ separated (',' :: lineBreak (level + 1)) parts
        ++ lineBreak level ++ [closing])

mutual

/-- The characters of a value that starts on a line of the given level. -/
def prettyAt (level : Nat) : Value → List Char
  | .array items => block '[' ']' level (prettyItems (level + 1) items)
  | .object members => block '\x7b' '\x7d' level (prettyMembers (level + 1) members)
  | .null => "null".toList
  | .bool true => "true".toList
  | .bool false => "false".toList
  | .natural value => decimal value
  | .string text => quote text
  | .foreign => "null".toList

/-- Each item of a list at the given level. -/
def prettyItems (level : Nat) : List Value → List (List Char)
  | [] => []
  | item :: items => prettyAt level item :: prettyItems level items

/-- Each member of an object at the given level. -/
def prettyMembers (level : Nat) : List (String × Value) → List (List Char)
  | [] => []
  | (name, value) :: members =>
      (quote name ++ ':' :: ' ' :: prettyAt level value) :: prettyMembers level members

end

/-- A value on one line. -/
def toText (value : Value) : String := String.ofList value.compact

/-- A value over many lines, one item a line. -/
def toPrettyText (value : Value) : String := String.ofList (value.prettyAt 0)

end Value

end Interlocking.Json
