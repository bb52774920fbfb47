import Interlocking.Json.Reader
import Interlocking.Program.Format
import Mathlib.Data.List.Forall2

/-!
# Export

What is exported can be read back. The reader gives back every value that was written, on one line
or over many lines: strings with all their characters, numbers with all their digits, and lists and
objects whatever blanks stand between their parts. So no automaton is changed by being written down
and read again, and neither are those of a program.
-/

namespace Interlocking.Json

section Strings

theorem hexValue?_hexDigit : ∀ value < 16, hexValue? (hexDigit value) = some value := by decide

/-- A control character is read back from its code. -/
theorem hexUnit?_hexDigit {code : Nat} (small : code < 0x20) :
    hexUnit? '0' '0' (hexDigit (code / 16)) (hexDigit (code % 16)) = some code := by
  have zero : hexValue? '0' = some 0 := by decide
  rw [hexUnit?, zero, hexValue?_hexDigit _ (by omega), hexValue?_hexDigit _ (by omega)]
  simp only [Option.bind_eq_bind, Option.bind_some, Option.pure_def, Option.some.injEq]
  omega

/-- A character that was escaped is read back. -/
theorem readPieces_escape (c : Char) (rest : List Char) : readPieces (escape c ++ rest) =
    (readPieces rest).map fun (pieces, tail) => (.char c :: pieces, tail) := by
  have letter {letter : Char} (known : unescape? letter = some c) (other : letter ≠ 'u') :
      readPieces ('\\' :: letter :: rest) =
        (readPieces rest).map fun (pieces, tail) => (.char c :: pieces, tail) := by
    rw [readPieces.eq_def]
    simp only [Char.reduceEq, if_false, if_true]
    split
    · rename_i code
      exact absurd (List.cons.inj code).1 other
    · rename_i same
      obtain ⟨rfl, rfl⟩ := List.cons.inj same
      rw [known]
      cases readPieces rest <;> rfl
    · rename_i none
      cases none
  unfold escape
  repeat' split
  any_goals
    subst c
    exact letter rfl (by decide)
  · rename_i small
    have unit : StringPiece.ofUnit c.toNat = .char c := by
      rw [StringPiece.ofUnit, if_neg (by omega), if_neg (by omega), Char.ofNat_toNat]
    simp only [List.cons_append, List.nil_append]
    rw [readPieces.eq_def]
    simp only [Char.reduceEq, if_false, if_true, hexUnit?_hexDigit small]
    cases readPieces rest with
    | none => rfl
    | some read => simp [unit]
  · rename_i notQuote notSlash _ _ _ _ _ large
    rw [List.singleton_append, readPieces.eq_def]
    simp only [notQuote, notSlash, large, if_false]
    cases readPieces rest <;> rfl

theorem readPieces_flatMap_escape (text rest : List Char) :
    readPieces (text.flatMap escape ++ '"' :: rest) = some (text.map .char, rest) := by
  induction text with
  | nil => rw [List.flatMap_nil, List.nil_append, readPieces.eq_def]; rfl
  | cons c text ih => rw [List.flatMap_cons, List.append_assoc, readPieces_escape, ih]; rfl

theorem assemble_map_char (text : List Char) : assemble (text.map .char) = some text := by
  induction text with
  | nil => rfl
  | cons c text ih => rw [List.map_cons, assemble, ih]; rfl

/-- A string is read back up to its closing quote. -/
theorem readString_escape (text : String) (rest : List Char) :
    readString (text.toList.flatMap escape ++ '"' :: rest) = some (some text, rest) := by
  rw [readString, readPieces_flatMap_escape]
  simp [assemble_map_char]

end Strings

section Numbers

/-- The text does not go on with anything that belongs to a number. -/
def Ends (text : List Char) : Prop :=
  ∀ c ∈ text.head?, c.isDigit = false ∧ c ≠ '.' ∧ c ≠ 'e' ∧ c ≠ 'E'

theorem decimalValue_decimal (value : Nat) : decimalValue (decimal value) = value := by
  have back : Nat.ofDigitChars 10 (Nat.toDigits 10 value) 0 = value := Nat.ofDigitChars_ten_toDigits
  rw [Nat.ofDigitChars_eq_foldl] at back
  simpa only [decimalValue, decimal, Nat.mul_comm 10] using back

/-- No number but zero begins with a zero. -/
theorem eq_zero_of_decimal {value : Nat} {tail : List Char} (zero : decimal value = '0' :: tail) :
    value = 0 := by
  induction value using Nat.strongRecOn generalizing tail with
  | _ value ih =>
      rw [decimal, Nat.toDigits_eq_if (by decide)] at zero
      split at zero
      · rename_i digit
        have only : ∀ value < 10, Nat.digitChar value = '0' → value = 0 := by decide
        exact only value digit (List.cons.inj zero).1
      · rename_i large
        cases digits : Nat.toDigits 10 (value / 10) with
        | nil => exact absurd digits Nat.toDigits_ne_nil
        | cons first others =>
            rw [digits] at zero
            have early := ih (value / 10) (by omega) ((List.cons.inj zero).1 ▸ digits)
            omega

theorem isDigit_of_mem_decimal {value : Nat} {c : Char} (member : c ∈ decimal value) :
    c.isDigit = true :=
  Nat.isDigit_of_mem_toDigits (by decide) (by decide) member

/-- A number is read back up to what does not belong to it. -/
theorem readUnsigned_decimal (value : Nat) {rest : List Char} (ends : Ends rest) :
    readUnsigned (decimal value ++ rest) = some (.natural value, rest) := by
  obtain ⟨taken, dropped, complete⟩ : rest.takeWhile Char.isDigit = [] ∧
      rest.dropWhile Char.isDigit = rest ∧ endsNumber rest = true := by
    cases rest with
    | nil => exact ⟨rfl, rfl, rfl⟩
    | cons c rest =>
        obtain ⟨other, notPoint, notLower, notUpper⟩ := ends c rfl
        simp [other, endsNumber, notPoint, notLower, notUpper]
  rw [readUnsigned, List.takeWhile_append_of_pos fun _ => isDigit_of_mem_decimal,
    List.dropWhile_append_of_pos fun _ => isDigit_of_mem_decimal, taken, dropped, List.append_nil]
  split
  · rename_i none
    exact absurd none Nat.toDigits_ne_nil
  · rename_i first others zero
    obtain rfl := eq_zero_of_decimal zero
    cases zero
  · rw [if_pos complete, decimalValue_decimal]

end Numbers

section Blanks

/-- The text consists of blanks. -/
def Blank (gap : List Char) : Prop := ∀ c ∈ gap, isBlank c = true

variable {gap text : List Char}

theorem blank_nil : Blank [] := nofun

theorem skipBlanks_append (blank : Blank gap) : skipBlanks (gap ++ text) = skipBlanks text :=
  List.dropWhile_append_of_pos blank

theorem skipBlanks_cons {c : Char} (token : isBlank c = false) :
    skipBlanks (c :: text) = c :: text := by
  simp [skipBlanks, token]

/-- A comma or a closing bracket. -/
def marks : List Char := [',', ']', '\x7d']

theorem isBlank_of_mem_marks : ∀ mark ∈ marks, isBlank mark = false := by simp [marks, isBlank]

theorem ends_cons {mark : Char} (member : mark ∈ marks) : Ends (mark :: text) := by
  intro c head
  obtain rfl := Option.some.inj head
  have all : ∀ c ∈ marks, c.isDigit = false ∧ c ≠ '.' ∧ c ≠ 'e' ∧ c ≠ 'E' := by
    simp [marks]
  exact all mark member

/-- Neither marks nor blanks belong to a number. -/
theorem ends_append (blank : Blank gap) {mark : Char} (member : mark ∈ marks) :
    Ends (gap ++ mark :: text) := by
  cases gap with
  | nil => exact ends_cons member
  | cons space gap =>
      intro c head
      obtain rfl := Option.some.inj head
      have listed : space ∈ [' ', '\t', '\n', '\r'] := by
        simpa [isBlank, or_assoc] using blank space List.mem_cons_self
      have all : ∀ c ∈ [' ', '\t', '\n', '\r'],
          c.isDigit = false ∧ c ≠ '.' ∧ c ≠ 'e' ∧ c ≠ 'E' := by
        simp
      exact all space listed

theorem readValue_append (blank : Blank gap) (fuel : Nat) :
    readValue fuel (gap ++ text) = readValue fuel text := by
  cases fuel with
  | zero => rw [readValue, readValue]
  | succ fuel => rw [readValue, readValue, skipBlanks_append blank]

end Blanks

section Lists

variable {α : Type} {opening closing : Char} {wrap : List α → Value}
  {one : Nat → List Char → Option (α × List Char)}
  {many : Nat → List Char → Option (List α × List Char)}
  {gap inner outer part rest : List Char} {parts : List (List Char)} {item : α} {items : List α}

/-- The function reads the item from this text, whatever follows, with twice the length of the text
as its budget. -/
structure Reads (one : Nat → List Char → Option (α × List Char)) (text : List Char) (item : α) :
    Prop where
  begins : ∃ c tail, text = c :: tail ∧ isBlank c = false ∧ c ∉ marks
  parses : ∀ {fuel rest}, 2 * text.length ≤ fuel → Ends rest →
    one fuel (text ++ rest) = some (item, rest)

theorem Reads.of_succ {text : List Char}
    (begins : ∃ c tail, text = c :: tail ∧ isBlank c = false ∧ c ∉ marks)
    (parses : ∀ {fuel rest}, 2 * text.length ≤ fuel + 1 → Ends rest →
      one (fuel + 1) (text ++ rest) = some (item, rest)) : Reads one text item := by
  refine ⟨begins, ?_⟩
  intro fuel rest enough ends
  obtain ⟨c, tail, rfl, _⟩ := begins
  obtain ⟨budget, rfl⟩ : ∃ budget, fuel = budget + 1 :=
    ⟨fuel - 1, by rw [List.length_cons] at enough; omega⟩
  exact parses enough ends

/-- Values of this form have any number of parts between two brackets. One function reads a part,
and another one the parts up to the closing bracket. -/
structure Lists (opening closing : Char) (wrap : List α → Value)
    (one : Nat → List Char → Option (α × List Char))
    (many : Nat → List Char → Option (List α × List Char)) : Prop where
  begins : isBlank opening = false ∧ opening ∉ marks
  closes : closing ∈ marks
  skips : ∀ {fuel gap text}, Blank gap → one fuel (gap ++ text) = one fuel text
  ends : ∀ {fuel text item tail rest}, one fuel text = some (item, tail) →
    skipBlanks tail = closing :: rest → many (fuel + 1) text = some ([item], rest)
  goes : ∀ {fuel text item tail rest items last}, one fuel text = some (item, tail) →
    skipBlanks tail = ',' :: rest → many fuel rest = some (items, last) →
    many (fuel + 1) text = some (item :: items, last)
  empty : ∀ {fuel rest}, readValue (fuel + 1) (opening :: closing :: rest) = some (wrap [], rest)
  filled : ∀ {fuel text c tail items last}, skipBlanks text = c :: tail → c ∉ marks →
    many fuel (c :: tail) = some (items, last) →
    readValue (fuel + 1) (opening :: text) = some (wrap items, last)

/-- Parts between brackets, with blanks before each part and before the closing bracket. -/
def enclosed (opening closing : Char) (inner outer : List Char) : List (List Char) → List Char
  | [] => [opening, closing]
  | parts => opening :: (inner ++ separated (',' :: inner) parts ++ outer ++ [closing])

theorem begins_separated (first : ∃ c tail, part = c :: tail ∧ isBlank c = false ∧ c ∉ marks) :
    ∃ c tail, separated (',' :: inner) (part :: parts) = c :: tail ∧ isBlank c = false ∧
      c ∉ marks := by
  obtain ⟨c, tail, rfl, token, unmarked⟩ := first
  cases parts with
  | nil => exact ⟨c, tail, rfl, token, unmarked⟩
  | cons next parts => exact ⟨c, _, rfl, token, unmarked⟩

/-- Parts with commas in between are read back if each part is. -/
theorem Lists.many_separated (lists : Lists opening closing wrap one many) (before : Blank gap)
    (inside : Blank inner) (after : Blank outer) (first : Reads one part item)
    (others : List.Forall₂ (Reads one) parts items) {fuel : Nat}
    (enough : 2 * (separated (',' :: inner) (part :: parts)).length < fuel) :
    many fuel (gap ++ (separated (',' :: inner) (part :: parts) ++ (outer ++ closing :: rest))) =
      some (item :: items, rest) := by
  obtain ⟨fuel, rfl⟩ := Nat.exists_eq_add_one_of_ne_zero (Nat.ne_zero_of_lt enough)
  induction others generalizing part item gap fuel with
  | nil =>
      have token := isBlank_of_mem_marks closing lists.closes
      refine lists.ends ?_ ((skipBlanks_append after).trans (skipBlanks_cons token))
      rw [lists.skips before]
      exact first.parses (Nat.le_of_lt_succ enough) (ends_append after lists.closes)
  | @cons next nextItem parts items second others ih =>
      simp only [separated, List.length_append, List.length_cons] at enough
      obtain ⟨budget, rfl⟩ : ∃ budget, fuel = budget + 1 := ⟨fuel - 1, by omega⟩
      refine lists.goes ?_ (skipBlanks_cons (by decide)) (ih inside second budget (by omega))
      rw [lists.skips before, separated]
      simp only [List.append_assoc, List.cons_append]
      exact first.parses (by omega) (ends_cons (by decide))

/-- A value is read back if its parts are. -/
theorem Lists.reads_enclosed (lists : Lists opening closing wrap one many) (inside : Blank inner)
    (after : Blank outer) (each : List.Forall₂ (Reads one) parts items) :
    Reads readValue (enclosed opening closing inner outer parts) (wrap items) := by
  apply Reads.of_succ
  · cases parts <;> exact ⟨opening, _, rfl, lists.begins⟩
  · intro fuel rest enough _
    cases each with
    | nil => exact lists.empty
    | @cons part item parts items first others =>
        simp only [enclosed, List.length_cons, List.length_append] at enough
        have read : many fuel ([] ++ (separated (',' :: inner) (part :: parts) ++
            (outer ++ closing :: rest))) = some (item :: items, rest) :=
          lists.many_separated blank_nil inside after first others (by omega)
        obtain ⟨c, tail, text, token, unmarked⟩ := begins_separated first.begins
        rw [List.nil_append, text, List.cons_append] at read
        simp only [enclosed, text, List.cons_append, List.append_assoc, List.nil_append]
        exact lists.filled ((skipBlanks_append inside).trans (skipBlanks_cons token)) unmarked read

end Lists

section Values

theorem lists_items : Lists '[' ']' .array readValue readItems where
  begins := by decide
  closes := by decide
  skips blank := readValue_append blank _
  ends read stops := by
    rw [readItems, read]
    simp [stops]
  goes read stops more := by
    rw [readItems, read]
    simp [stops, more]
  empty := by
    intro fuel rest
    rw [readValue, skipBlanks_cons (by decide)]
    simp [skipBlanks_cons (by decide : isBlank ']' = false)]
  filled text unmarked more := by
    rw [readValue, skipBlanks_cons (by decide)]
    simp only [Char.reduceEq, if_false, if_true, text]
    split
    · rename_i closes
      exact absurd ((List.cons.inj closes).1 ▸ by decide) unmarked
    · rw [more]
      rfl

/-- A member of an object. -/
def readMember (fuel : Nat) (text : List Char) : Option ((Option String × Value) × List Char) := do
  let rest ← expect ['"'] (skipBlanks text)
  let (name, tail) ← readString rest
  let rest ← expect [':'] (skipBlanks tail)
  let (value, tail) ← readValue fuel rest
  return ((name, value), tail)

theorem readMembers_succ (fuel : Nat) (text : List Char) : readMembers (fuel + 1) text = (do
    let (member, tail) ← readMember fuel text
    match skipBlanks tail with
    | ',' :: rest => do
        let (members, tail) ← readMembers fuel rest
        return (member :: members, tail)
    | '\x7d' :: tail => return ([member], tail)
    | _ => none) := by
  simp only [readMember, bind_assoc, pure_bind]
  rfl

theorem lists_members : Lists '\x7b' '\x7d' objectOf readMember readMembers where
  begins := by decide
  closes := by decide
  skips blank := by rw [readMember, readMember, skipBlanks_append blank]
  ends read stops := by
    rw [readMembers_succ, read]
    simp [stops]
  goes read stops more := by
    rw [readMembers_succ, read]
    simp [stops, more]
  empty := by
    intro fuel rest
    rw [readValue, skipBlanks_cons (by decide)]
    simp [skipBlanks_cons (by decide : isBlank '\x7d' = false), objectOf]
  filled text unmarked more := by
    rw [readValue, skipBlanks_cons (by decide)]
    simp only [Char.reduceEq, if_false, if_true, text]
    split
    · rename_i closes
      exact absurd ((List.cons.inj closes).1 ▸ by decide) unmarked
    · rw [more]
      rfl

theorem reads_word {word : String} {value : Value}
    (listed : (word, value) ∈ [("null", .null), ("true", .bool true), ("false", .bool false)]) :
    Reads readValue word.toList value := by
  simp only [List.mem_cons, List.not_mem_nil, or_false, Prod.mk.injEq] at listed
  rcases listed with ⟨rfl, rfl⟩ | ⟨rfl, rfl⟩ | ⟨rfl, rfl⟩ <;>
  · refine .of_succ ⟨_, _, rfl, by decide, by decide⟩ fun _ _ => ?_
    simp [readValue, skipBlanks, isBlank, expect]

theorem reads_natural (value : Nat) : Reads readValue (decimal value) (.natural value) := by
  obtain ⟨first, others, digits⟩ : ∃ first others, decimal value = first :: others :=
    List.exists_cons_of_ne_nil Nat.toDigits_ne_nil
  have digit : first.isDigit = true := isDigit_of_mem_decimal (digits ▸ List.mem_cons_self)
  -- A digit is none of the characters with which anything else begins.
  have other : ∀ c, c.isDigit = false → first ≠ c := by
    rintro c notDigit rfl
    rw [notDigit] at digit
    cases digit
  have token : isBlank first = false := by
    simp [isBlank, other ' ' (by decide), other '\t' (by decide), other '\n' (by decide),
      other '\r' (by decide)]
  have unmarked : first ∉ marks := by
    simp [marks, other ',' (by decide), other ']' (by decide), other '\x7d' (by decide)]
  refine .of_succ ⟨first, others, digits, token, unmarked⟩ fun {_ rest} _ ends => ?_
  have read := readUnsigned_decimal value ends
  rw [digits, List.cons_append] at read ⊢
  rw [readValue, skipBlanks_cons token]
  simp only [other '"' (by decide), other '[' (by decide), other '\x7b' (by decide),
    other 'n' (by decide), other 't' (by decide), other 'f' (by decide), if_false]
  rw [readNumber]
  · exact read
  · intro rest negative
    exact other '-' (by decide) (List.cons.inj negative).1

theorem reads_string (text : String) : Reads readValue (quote text) (.string text) := by
  refine .of_succ ⟨'"', _, rfl, by decide, by decide⟩ fun _ _ => ?_
  simp only [quote, List.cons_append, List.append_assoc, List.nil_append]
  rw [readValue, skipBlanks_cons (by decide)]
  simp [readString_escape]

theorem reads_member {space text : List Char} {value : Value} (name : String) (blank : Blank space)
    (reads : Reads readValue text value) :
    Reads readMember (quote name ++ ':' :: (space ++ text)) (some name, value) := by
  refine ⟨⟨'"', _, rfl, by decide, by decide⟩, fun {fuel rest} enough ends => ?_⟩
  simp only [quote, List.cons_append, List.length_cons, List.length_append] at enough
  have read := reads.parses (show 2 * text.length ≤ fuel by omega) ends
  simp only [quote, List.cons_append, List.append_assoc, List.nil_append]
  rw [readMember, skipBlanks_cons (by decide)]
  simp [expect, readString_escape, skipBlanks_cons (by decide : isBlank ':' = false),
    readValue_append blank, read]

theorem mapM_named (members : List (String × Value)) :
    (members.map fun (name, value) => (some name, value)).mapM
      (fun (name, value) => name.map (·, value)) = some members := by
  induction members with
  | nil => rfl
  | cons member members ih => simp [ih]

theorem objectOf_map (members : List (String × Value)) :
    objectOf (members.map fun (name, value) => (some name, value)) = .object members := by
  rw [objectOf, mapM_named]

end Values

namespace Value

/-- The value has a meaning in all its parts. -/
inductive Plain : Value → Prop where
  | null : Plain .null
  | bool (value : Bool) : Plain (.bool value)
  | natural (value : Nat) : Plain (.natural value)
  | string (text : String) : Plain (.string text)
  | array {items : List Value} (each : ∀ item ∈ items, Plain item) : Plain (.array items)
  | object {members : List (String × Value)} (each : ∀ member ∈ members, Plain member.2) :
      Plain (.object members)

section Layouts

variable {value : Value} {inner outer space : List Char} {write : Value → List Char}

/-- An array is read back in any layout in which its items are. -/
theorem reads_array {items : List Value} (inside : Blank inner) (after : Blank outer)
    (each : ∀ item ∈ items, Reads readValue (write item) item) :
    Reads readValue (enclosed '[' ']' inner outer (items.map write)) (.array items) := by
  refine lists_items.reads_enclosed inside after ?_
  rw [List.forall₂_map_left_iff, List.forall₂_same]
  exact each

/-- An object is read in any layout in which its values are. -/
theorem reads_object {members : List (String × Value)} (inside : Blank inner) (after : Blank outer)
    (blank : Blank space) (each : ∀ member ∈ members, Reads readValue (write member.2) member.2) :
    Reads readValue (enclosed '\x7b' '\x7d' inner outer
      (members.map fun (name, value) => quote name ++ ':' :: (space ++ write value)))
      (.object members) := by
  rw [← objectOf_map members]
  refine lists_members.reads_enclosed inside after ?_
  rw [List.forall₂_map_left_iff, List.forall₂_map_right_iff, List.forall₂_same]
  exact fun member listed => reads_member member.1 blank (each member listed)

theorem compactItems_eq (items : List Value) : compactItems items = items.map compact := by
  induction items with
  | nil => rfl
  | cons item items ih => exact congrArg (compact item :: ·) ih

theorem compactMembers_eq (members : List (String × Value)) : compactMembers members =
    members.map fun (name, value) => quote name ++ ':' :: ([] ++ compact value) := by
  induction members with
  | nil => rfl
  | cons member members ih =>
      exact congrArg ((quote member.1 ++ ':' :: compact member.2) :: ·) ih

theorem prettyItems_eq (level : Nat) (items : List Value) :
    prettyItems level items = items.map (prettyAt level) := by
  induction items with
  | nil => rfl
  | cons item items ih => exact congrArg (prettyAt level item :: ·) ih

theorem prettyMembers_eq (level : Nat) (members : List (String × Value)) :
    prettyMembers level members =
      members.map fun (name, value) => quote name ++ ':' :: ([' '] ++ prettyAt level value) := by
  induction members with
  | nil => rfl
  | cons member members ih =>
      exact congrArg ((quote member.1 ++ ':' :: ' ' :: prettyAt level member.2) :: ·) ih

theorem enclosed_compact (opening closing : Char) (parts : List (List Char)) :
    opening :: (separated [','] parts ++ [closing]) = enclosed opening closing [] [] parts := by
  cases parts <;> simp [enclosed, separated]

theorem block_eq_enclosed (opening closing : Char) (level : Nat) (parts : List (List Char)) :
    block opening closing level parts =
      enclosed opening closing (lineBreak (level + 1)) (lineBreak level) parts := by
  cases parts <;> rfl

theorem compact_array (items : List Value) :
    compact (.array items) = enclosed '[' ']' [] [] (items.map compact) := by
  rw [← enclosed_compact, ← compactItems_eq]
  rfl

theorem compact_object (members : List (String × Value)) : compact (.object members) =
    enclosed '\x7b' '\x7d' [] []
      (members.map fun (name, value) => quote name ++ ':' :: ([] ++ compact value)) := by
  rw [← enclosed_compact, ← compactMembers_eq]
  rfl

theorem prettyAt_array (level : Nat) (items : List Value) : prettyAt level (.array items) =
    enclosed '[' ']' (lineBreak (level + 1)) (lineBreak level)
      (items.map (prettyAt (level + 1))) := by
  rw [← block_eq_enclosed, ← prettyItems_eq]
  rfl

theorem prettyAt_object (level : Nat) (members : List (String × Value)) :
    prettyAt level (.object members) =
      enclosed '\x7b' '\x7d' (lineBreak (level + 1)) (lineBreak level)
        (members.map fun (name, value) =>
          quote name ++ ':' :: ([' '] ++ prettyAt (level + 1) value)) := by
  rw [← block_eq_enclosed, ← prettyMembers_eq]
  rfl

theorem blank_lineBreak (level : Nat) : Blank (lineBreak level) := by
  intro c member
  rcases List.mem_cons.mp member with rfl | member
  · decide
  · rw [List.eq_of_mem_replicate member]
    decide

/-- What was written on one line is read back. -/
theorem Plain.reads_compact (plain : Plain value) : Reads readValue value.compact value := by
  induction plain with
  | null => exact reads_word (by simp)
  | bool value => cases value <;> exact reads_word (by simp)
  | natural value => exact reads_natural value
  | string text => exact reads_string text
  | array _ each =>
      rw [compact_array]
      exact reads_array blank_nil blank_nil each
  | object _ each =>
      rw [compact_object]
      exact reads_object blank_nil blank_nil blank_nil each

/-- A value written on many lines is read back. -/
theorem Plain.reads_pretty (plain : Plain value) (level : Nat) :
    Reads readValue (value.prettyAt level) value := by
  induction plain generalizing level with
  | null => exact reads_word (by simp)
  | bool value => cases value <;> exact reads_word (by simp)
  | natural value => exact reads_natural value
  | string text => exact reads_string text
  | array _ each =>
      rw [prettyAt_array]
      exact reads_array (blank_lineBreak _) (blank_lineBreak _) fun item member =>
        each item member (level + 1)
  | object _ each =>
      rw [prettyAt_object]
      exact reads_object (blank_lineBreak _) (blank_lineBreak _) (by simp [Blank, isBlank])
        fun member listed => each member listed (level + 1)

/-- The budget of the reader is enough for every text that it can read. -/
theorem parse?_ofList {text : List Char} (reads : Reads readValue text value) :
    parse? (String.ofList text) = some value := by
  have ends : Ends [] := nofun
  have read := reads.parses (Nat.le_add_right (2 * text.length) 2) ends
  rw [List.append_nil] at read
  simp [parse?, read, skipBlanks]

theorem Plain.parse?_toText (plain : Plain value) : parse? value.toText = some value :=
  parse?_ofList plain.reads_compact

theorem Plain.parse?_toPrettyText (plain : Plain value) : parse? value.toPrettyText = some value :=
  parse?_ofList (plain.reads_pretty 0)

end Layouts

/-- A list of plain values. -/
theorem plain_map {α : Type} {write : α → Value} (each : ∀ item, Plain (write item))
    (items : List α) : Plain (.array (items.map write)) :=
  .array (List.forall_mem_map.mpr fun item _ => each item)

/-- An object with plain values. -/
theorem plain_object {members : List (String × Value)}
    (each : ∀ value ∈ members.map (·.2), Plain value) : Plain (.object members) :=
  .object (List.forall_mem_map.mp each)

end Value

end Interlocking.Json

namespace Interlocking

open Json (Value)

theorem plain_bitToJson (var : Var) (value : Bool) : Value.Plain (bitToJson var value) :=
  .array (by simp [Var.toJson, Value.Plain.natural, Value.Plain.bool])

theorem Condition.plain_toJson (condition : Condition) : Value.Plain condition.toJson := by
  cases condition with
  | bit var value => exact Value.plain_object (by simpa using plain_bitToJson var value)
  | inState state => exact Value.plain_object (by simpa using .natural _)
  | notInState state => exact Value.plain_object (by simpa using .natural _)
  | timerExpired => exact .string _

theorem Action.plain_toJson (action : Action) : Value.Plain action.toJson := by
  cases action with
  | set var value => exact Value.plain_object (by simpa using plain_bitToJson var value)
  | goto state => exact Value.plain_object (by simpa using .natural _)
  | loadTimer cycles => exact Value.plain_object (by simpa using .natural _)

theorem Rule.plain_toJson (rule : Rule) : Value.Plain rule.toJson :=
  Value.plain_object (by
    simpa using ⟨Value.plain_map Condition.plain_toJson _, Value.plain_map Action.plain_toJson _⟩)

theorem Automaton.plain_toJson (automaton : Automaton) : Value.Plain automaton.toJson :=
  Value.plain_object (by simpa using ⟨.string _, Value.plain_map Rule.plain_toJson _⟩)

theorem Variable.plain_toJson (entry : Variable) : Value.Plain entry.toJson :=
  Value.plain_object (by simpa using ⟨.natural _, .string _, .natural _, .natural _⟩)

theorem Program.plain_toJson (program : Program) : Value.Plain program.toJson :=
  Value.plain_object (by
    simpa using ⟨Value.plain_map Variable.plain_toJson _, Value.plain_map Automaton.plain_toJson _⟩)

/-- Every automaton is read back from its text, be it on one line or on many, and the automata of
every program from the text in which the program is exported. -/
theorem json_export_loses_nothing :
    (∀ automaton : Automaton,
      (Json.parse? automaton.toJson.toText).bind Automaton.ofJson? = some automaton ∧
      (Json.parse? automaton.toJson.toPrettyText).bind Automaton.ofJson? = some automaton) ∧
    ∀ program : Program, ∃ members items,
      Json.parse? program.toJsonText = some (.object members) ∧
      Value.member? "automata" members = some (some (.array items)) ∧
      items.mapM Automaton.ofJson? = some program.automata := by
  constructor
  · intro automaton
    rw [automaton.plain_toJson.parse?_toText, automaton.plain_toJson.parse?_toPrettyText]
    simp
  · intro program
    refine ⟨_, program.automata.map Automaton.toJson,
      program.plain_toJson.parse?_toPrettyText, ?_, ?_⟩
    · simp [Value.member?]
    · exact mapM_map_eq_some Automaton.ofJson?_toJson program.automata

end Interlocking
