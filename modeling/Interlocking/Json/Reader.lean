import Interlocking.Json.Value

/-!
# Reading JSON

A strict reader over the characters of a text. Blanks may stand around every token,
nothing may follow the value, numbers have no leading zeros, and strings hold no bare
control characters.

Escapes are read in two steps. `readPieces` only checks their form, which is all that a
string in an ignored place has to satisfy; `assemble` then pairs the surrogates, and a
string in which that fails stands for no text.

The functions that call each other take a budget that every call decreases. `parse?`
grants twice the length of the text, which a text cannot use up: between two calls on
the same characters at least one bracket or comma is consumed.
-/

namespace Interlocking.Json

/-- The four characters that may stand between tokens. -/
def isBlank (c : Char) : Bool := c = ' ' || c = '\t' || c = '\n' || c = '\r'

/-- The text from its first character that is not a blank. -/
def skipBlanks (text : List Char) : List Char := text.dropWhile isBlank

/-- The value of a hexadecimal digit of either case. -/
def hexValue? (c : Char) : Option Nat :=
  if c.isDigit then some (c.toNat - '0'.toNat)
  else if 'a' ≤ c ∧ c ≤ 'f' then some (c.toNat - 'a'.toNat + 10)
  else if 'A' ≤ c ∧ c ≤ 'F' then some (c.toNat - 'A'.toNat + 10)
  else none

/-- The sixteen-bit unit written by four hexadecimal digits. -/
def hexUnit? (a b c d : Char) : Option Nat := do
  let a ← hexValue? a
  let b ← hexValue? b
  let c ← hexValue? c
  let d ← hexValue? d
  return ((a * 16 + b) * 16 + c) * 16 + d

/-- The character that a one-letter escape stands for. -/
def unescape? (c : Char) : Option Char :=
  if c = '"' then some '"'
  else if c = '\\' then some '\\'
  else if c = '/' then some '/'
  else if c = 'b' then some '\x08'
  else if c = 'f' then some '\x0c'
  else if c = 'n' then some '\n'
  else if c = 'r' then some '\r'
  else if c = 't' then some '\t'
  else none

/-- What one character or escape of a string contributes: a character, or half of a
surrogate pair, which is a character only together with its other half. -/
inductive StringPiece where
  | char (c : Char)
  | high (unit : Nat)
  | low (unit : Nat)
  deriving DecidableEq, Repr

/-- The piece that a sixteen-bit unit contributes. -/
def StringPiece.ofUnit (unit : Nat) : StringPiece :=
  if 0xD800 ≤ unit ∧ unit < 0xDC00 then .high unit
  else if 0xDC00 ≤ unit ∧ unit < 0xE000 then .low unit
  else .char (Char.ofNat unit)

/-- The pieces of a string whose opening quote has been read, and what follows the
closing one. -/
def readPieces : List Char → Option (List StringPiece × List Char)
  | [] => none
  | c :: rest =>
    if c = '"' then some ([], rest)
    else if c = '\\' then
      match rest with
      | 'u' :: h₁ :: h₂ :: h₃ :: h₄ :: rest => do
          let unit ← hexUnit? h₁ h₂ h₃ h₄
          let (pieces, tail) ← readPieces rest
          return (.ofUnit unit :: pieces, tail)
      | letter :: rest => do
          let c ← unescape? letter
          let (pieces, tail) ← readPieces rest
          return (.char c :: pieces, tail)
      | [] => none
    else if c.toNat < 0x20 then none
    else do
      let (pieces, tail) ← readPieces rest
      return (.char c :: pieces, tail)

/-- The characters of the pieces, if every surrogate half stands beside its other half. -/
def assemble : List StringPiece → Option (List Char)
  | [] => some []
  | .char c :: pieces => (assemble pieces).map (c :: ·)
  | .high high :: .low low :: pieces =>
      (assemble pieces).map
        (Char.ofNat (0x10000 + (high - 0xD800) * 0x400 + (low - 0xDC00)) :: ·)
  | .high _ :: _ => none
  | .low _ :: _ => none

/-- A string whose opening quote has been read; its text is absent if it has none. -/
def readString (text : List Char) : Option (Option String × List Char) :=
  (readPieces text).map fun (pieces, tail) => ((assemble pieces).map String.ofList, tail)

/-- The number that decimal digits stand for. -/
def decimalValue (digits : List Char) : Nat :=
  digits.foldl (fun value digit => value * 10 + (digit.toNat - '0'.toNat)) 0

/-- The text after one digit or more. -/
def skipDigits? (text : List Char) : Option (List Char) :=
  match text.takeWhile Char.isDigit with
  | [] => none
  | _ => some (text.dropWhile Char.isDigit)

/-- The text after a fraction, if there is one. -/
def skipFraction? : List Char → Option (List Char)
  | '.' :: rest => skipDigits? rest
  | text => some text

/-- The text after an exponent, if there is one. -/
def skipExponent? : List Char → Option (List Char)
  | c :: rest =>
    if c = 'e' ∨ c = 'E' then
      match rest with
      | '+' :: rest => skipDigits? rest
      | '-' :: rest => skipDigits? rest
      | rest => skipDigits? rest
    else some (c :: rest)
  | [] => some []

/-- Whether a number ends with the digits that stand before `text`. -/
def endsNumber : List Char → Bool
  | c :: _ => c ≠ '.' ∧ c ≠ 'e' ∧ c ≠ 'E'
  | [] => true

/-- A number without its sign: a natural number if it is digits alone. -/
def readUnsigned (text : List Char) : Option (Value × List Char) :=
  match text.takeWhile Char.isDigit with
  | [] => none
  | '0' :: _ :: _ => none
  | digits =>
      let rest := text.dropWhile Char.isDigit
      if endsNumber rest then some (.natural (decimalValue digits), rest)
      else (skipFraction? rest >>= skipExponent?).map fun tail => (.foreign, tail)

/-- A number, which stands for a natural number only if it has no sign. -/
def readNumber : List Char → Option (Value × List Char)
  | '-' :: rest => (readUnsigned rest).map fun (_, tail) => (.foreign, tail)
  | text => readUnsigned text

/-- The text after `word`, if it starts with that. -/
def expect (word text : List Char) : Option (List Char) :=
  if word.isPrefixOf text then some (text.drop word.length) else none

/-- An object from members whose names may have no text. -/
def objectOf (members : List (Option String × Value)) : Value :=
  match members.mapM (fun (name, value) => name.map (·, value)) with
  | some members => .object members
  | none => .foreign

mutual

/-- The value at the start of a text, blanks before it included. -/
def readValue : Nat → List Char → Option (Value × List Char)
  | 0, _ => none
  | fuel + 1, text =>
    match skipBlanks text with
    | [] => none
    | c :: rest =>
      if c = '"' then
        (readString rest).map fun (text, tail) => (text.elim .foreign .string, tail)
      else if c = '[' then
        match skipBlanks rest with
        | ']' :: tail => some (.array [], tail)
        | rest => (readItems fuel rest).map fun (items, tail) => (.array items, tail)
      else if c = '\x7b' then
        match skipBlanks rest with
        | '\x7d' :: tail => some (.object [], tail)
        | rest => (readMembers fuel rest).map fun (members, tail) => (objectOf members, tail)
      else if c = 'n' then (expect "ull".toList rest).map fun tail => (.null, tail)
      else if c = 't' then (expect "rue".toList rest).map fun tail => (.bool true, tail)
      else if c = 'f' then (expect "alse".toList rest).map fun tail => (.bool false, tail)
      else readNumber (c :: rest)

/-- The items of a list up to and including its closing bracket. -/
def readItems : Nat → List Char → Option (List Value × List Char)
  | 0, _ => none
  | fuel + 1, text => do
    let (item, tail) ← readValue fuel text
    match skipBlanks tail with
    | ',' :: rest => do
        let (items, tail) ← readItems fuel rest
        return (item :: items, tail)
    | ']' :: tail => return ([item], tail)
    | _ => none

/-- The members of an object up to and including its closing brace. -/
def readMembers : Nat → List Char → Option (List (Option String × Value) × List Char)
  | 0, _ => none
  | fuel + 1, text => do
    let rest ← expect ['"'] (skipBlanks text)
    let (name, tail) ← readString rest
    let rest ← expect [':'] (skipBlanks tail)
    let (value, tail) ← readValue fuel rest
    match skipBlanks tail with
    | ',' :: rest => do
        let (members, tail) ← readMembers fuel rest
        return ((name, value) :: members, tail)
    | '\x7d' :: tail => return ([(name, value)], tail)
    | _ => none

end

/-- The value that a whole text stands for. -/
def parse? (text : String) : Option Value :=
  match readValue (2 * text.length + 2) text.toList with
  | some (value, tail) => if skipBlanks tail = [] then some value else none
  | none => none

end Interlocking.Json
