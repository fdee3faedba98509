import AuditTrail.Json.Value
import AuditTrail.Text.Bytes

/-!
# JSON texts as they are written

A tree holds what a JSON text says before any of it is given a value: numbers are numerals, the
members of an object stand in the order and number they were written in. Reading a text is done in
two steps, text to tree (`Tree.read?`, the grammar alone) and tree to value
(`Tree.value?`, which knows the limits). So a part of a text that nobody asks for has to follow the
grammar and nothing else. Printing takes the same two steps backwards.
-/

namespace AuditTrail.Json

/-- A JSON text after reading its grammar. A string is `none` if its escapes leave half of a
surrogate pair: such a string can be written but is no text. -/
inductive Tree
  | null
  | bool (value : Bool)
  | number (numeral : Number.Numeral)
  | string (value : Option String)
  | array (items : List Tree)
  | object (members : List (Option String × Tree))

/-! ## Printing -/

/-- A character inside a string literal. -/
def escaped (c : Char) : List Char :=
  match c with
  | '"' => ['\\', '"']
  | '\\' => ['\\', '\\']
  | '\x08' => ['\\', 'b']
  | '\x0c' => ['\\', 'f']
  | '\n' => ['\\', 'n']
  | '\r' => ['\\', 'r']
  | '\t' => ['\\', 't']
  | c =>
    if c.toNat < 0x20 then
      ['\\', 'u', '0', '0', Bytes.hexDigit (c.toNat / 16), Bytes.hexDigit (c.toNat % 16)]
    else [c]

/-- A string literal; half a surrogate pair stands for every string that is no text. -/
def quoted : Option String → List Char
  | some text => '"' :: (text.toList.flatMap escaped ++ ['"'])
  | none => "\"\\ud800\"".toList

namespace Tree

mutual

/-- The text of a tree, without white space. -/
def chars : Tree → List Char
  | .null => "null".toList
  | .bool true => "true".toList
  | .bool false => "false".toList
  | .number n => n.chars
  | .string s => quoted s
  | .array [] => ['[', ']']
  | .array (t :: rest) => '[' :: (chars t ++ itemChars rest)
  | .object [] => ['\x7b', '\x7d']
  | .object ((name, t) :: rest) => '\x7b' :: (quoted name ++ ':' :: (chars t ++ memberChars rest))
termination_by structural t => t

/-- The items after the first, with the closing bracket. -/
def itemChars : List Tree → List Char
  | [] => [']']
  | t :: rest => ',' :: (chars t ++ itemChars rest)
termination_by structural t => t

/-- The members after the first, with the closing brace. -/
def memberChars : List (Option String × Tree) → List Char
  | [] => ['\x7d']
  | (name, t) :: rest => ',' :: (quoted name ++ ':' :: (chars t ++ memberChars rest))
termination_by structural t => t

end

/-! ## Reading -/

/-- White space between tokens. -/
def isSpace (c : Char) : Bool := c == ' ' || c == '\t' || c == '\n' || c == '\r'

/-- The four hexadecimal digits of an escape, as a code unit. -/
def unit? (a b c d : Char) : Option Nat := do
  let a ← Bytes.hexValue? a
  let b ← Bytes.hexValue? b
  let c ← Bytes.hexValue? c
  let d ← Bytes.hexValue? d
  some (a * 4096 + b * 256 + c * 16 + d)

/-- The character of a one-letter escape. -/
def shortEscape? : Char → Option Char
  | '"' => some '"'
  | '\\' => some '\\'
  | '/' => some '/'
  | 'b' => some '\x08'
  | 'f' => some '\x0c'
  | 'n' => some '\n'
  | 'r' => some '\r'
  | 't' => some '\t'
  | _ => none

/-- Puts a character in front of what a string literal holds. -/
def consChar (c : Char) : Option (Option (List Char) × List Char) → Option (Option (List Char) × List Char) :=
  Option.map fun (held, rest) => (held.map (c :: ·), rest)

/-- Marks a string literal as no text. -/
def unpaired : Option (Option (List Char) × List Char) → Option (Option (List Char) × List Char) :=
  Option.map fun (_, rest) => (none, rest)

/-- Reads a string literal after its opening quote: what it holds, and the rest of the text. The
first half of a surrogate pair is carried along until the next character shows whether its other
half follows. -/
def readString? (high : Option Nat) : List Char → Option (Option (List Char) × List Char)
  | [] => none
  | '"' :: rest => if high.isSome then some (none, rest) else some (some [], rest)
  | '\\' :: 'u' :: a :: b :: c :: d :: rest =>
    match unit? a b c d with
    | none => none
    | some u =>
      match high with
      | some h =>
        if 0xDC00 ≤ u ∧ u ≤ 0xDFFF then
          consChar (Char.ofNat (0x10000 + (h - 0xD800) * 0x400 + (u - 0xDC00)))
            (readString? none rest)
        else if 0xD800 ≤ u ∧ u ≤ 0xDBFF then unpaired (readString? (some u) rest)
        else unpaired (readString? none rest)
      | none =>
        if 0xD800 ≤ u ∧ u ≤ 0xDBFF then readString? (some u) rest
        else if 0xDC00 ≤ u ∧ u ≤ 0xDFFF then unpaired (readString? none rest)
        else consChar (Char.ofNat u) (readString? none rest)
  | '\\' :: e :: rest =>
    match shortEscape? e with
    | none => none
    | some c =>
      let held := consChar c (readString? none rest)
      if high.isSome then unpaired held else held
  | c :: rest =>
    if c = '\\' ∨ c.toNat < 0x20 then none
    else
      let held := consChar c (readString? none rest)
      if high.isSome then unpaired held else held

/-- Reads a string literal. -/
def readQuoted? : List Char → Option (Option String × List Char)
  | '"' :: rest => (readString? none rest).map fun (held, rest) => (held.map String.ofList, rest)
  | _ => none

/-- Reads a word and gives the tree it stands for. -/
def readWord? (word : String) (tree : Tree) (text : List Char) : Option (Tree × List Char) :=
  let length := word.toList.length
  if text.take length = word.toList then some (tree, text.drop length) else none

mutual

/-- Reads the value at the start of a text that has no white space there. Every step of the
recursion takes at least one character, so `steps` above the length of the text is enough. -/
def readValue? : (steps : Nat) → List Char → Option (Tree × List Char)
  | 0, _ => none
  | steps + 1, text =>
    match text with
    | [] => none
    | c :: rest =>
      if c = '"' then (readQuoted? text).map fun (s, rest) => (.string s, rest)
      else if c = '[' then
        match rest.dropWhile isSpace with
        | ']' :: rest => some (.array [], rest)
        | rest => (readItems? steps rest).map fun (items, rest) => (.array items, rest)
      else if c = '\x7b' then
        match rest.dropWhile isSpace with
        | '\x7d' :: rest => some (.object [], rest)
        | rest => (readMembers? steps rest).map fun (members, rest) => (.object members, rest)
      else if c = 'n' then readWord? "null" .null text
      else if c = 't' then readWord? "true" (.bool true) text
      else if c = 'f' then readWord? "false" (.bool false) text
      else (Number.Numeral.read? text).map fun (n, rest) => (.number n, rest)

/-- Reads the items of an array from the first one on, with the closing bracket. -/
def readItems? : (steps : Nat) → List Char → Option (List Tree × List Char)
  | 0, _ => none
  | steps + 1, text => do
    let (item, rest) ← readValue? steps text
    match rest.dropWhile isSpace with
    | ']' :: rest => some ([item], rest)
    | ',' :: rest =>
      let (items, rest) ← readItems? steps (rest.dropWhile isSpace)
      some (item :: items, rest)
    | _ => none

/-- Reads the members of an object from the first one on, with the closing brace. -/
def readMembers? : (steps : Nat) → List Char → Option (List (Option String × Tree) × List Char)
  | 0, _ => none
  | steps + 1, text => do
    let (name, rest) ← readQuoted? text
    match rest.dropWhile isSpace with
    | ':' :: rest =>
      let (value, rest) ← readValue? steps (rest.dropWhile isSpace)
      match rest.dropWhile isSpace with
      | '\x7d' :: rest => some ([(name, value)], rest)
      | ',' :: rest =>
        let (members, rest) ← readMembers? steps (rest.dropWhile isSpace)
        some ((name, value) :: members, rest)
      | _ => none
    | _ => none

end

/-- Reads a whole text, which may have white space around its value and nothing else. -/
def read? (text : String) : Option Tree := do
  let chars := text.toList
  let (tree, rest) ← readValue? (chars.length + 1) (chars.dropWhile isSpace)
  if (rest.dropWhile isSpace).isEmpty then some tree else none

/-! ## Values -/

/-- How many containers may stand inside each other in a value. -/
def maxDepth : Nat := 127

/-- The number of a numeral: an integer if it is written as one and fits, else the nearest double.
A zero with a minus sign is a double, and a number beyond the finite range is none. -/
def number? (n : Number.Numeral) : Option Json.Number :=
  let value : Int := if n.negative then -(n.coefficient : Int) else n.coefficient
  if n.isWhole && intInRange value && !(n.negative && n.coefficient == 0) then some (.int value)
  else (Number.Double.ofDecimal? n.negative n.coefficient n.scale).map .double

mutual

/-- The value of a tree with at most `room` containers inside each other. Of several members of one
name the last counts. -/
def value? (room : Nat) : Tree → Option Json
  | .null => some .null
  | .bool b => some (.bool b)
  | .number n => (number? n).map .number
  | .string s => s.map .string
  | .array items =>
    match room with
    | 0 => none
    | room + 1 => (valueItems? room items).map .array
  | .object members =>
    match room with
    | 0 => none
    | room + 1 => (valueMembers? room members).map ofMembers
termination_by structural t => t

/-- The values of items. -/
def valueItems? (room : Nat) : List Tree → Option (List Json)
  | [] => some []
  | t :: rest => do
    let value ← value? room t
    let more ← valueItems? room rest
    some (value :: more)
termination_by structural t => t

/-- The names and values of members. -/
def valueMembers? (room : Nat) : List (Option String × Tree) → Option (List (String × Json))
  | [] => some []
  | (name, t) :: rest => do
    let name ← name
    let value ← value? room t
    let more ← valueMembers? room rest
    some ((name, value) :: more)
termination_by structural t => t

end

end Tree

/-- Reads a JSON text. -/
def read? (text : String) : Option Json := do (← Tree.read? text).value? Tree.maxDepth

end AuditTrail.Json
