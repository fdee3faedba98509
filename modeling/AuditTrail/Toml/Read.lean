import AuditTrail.Number.Double
import AuditTrail.Text.Bytes
import AuditTrail.Toml.Value

/-!
# Reading TOML

The grammar of TOML 1.0. Every reader takes the text from where it stands and returns what it read
with the rest; `none` is a fault. A document is read line by line, each line either opening a table
or giving a key of the current table a value.
-/

namespace AuditTrail.Toml

/-! ## Space, line ends and comments -/

/-- White space inside a line. -/
def isSpace (c : Char) : Bool := c == ' ' || c == '\t'

/-- A text without the white space in front. -/
def dropSpace (text : List Char) : List Char := text.dropWhile isSpace

/-- What follows a line end. -/
def afterNewline? : List Char → Option (List Char)
  | '\n' :: rest => some rest
  | '\r' :: '\n' :: rest => some rest
  | _ => none

/-- A character that may stand in comments: no control character but the tab. -/
def isCommentChar (c : Char) : Bool := c == '\t' || (0x20 ≤ c.toNat && c != '\x7f')

/-- Passes over white space and a comment to the end of the line, or of the text. -/
def endLine? (text : List Char) : Option (List Char) :=
  let rest := match dropSpace text with
    | '#' :: rest => rest.dropWhile isCommentChar
    | rest => rest
  if rest.isEmpty then some [] else afterNewline? rest

/-- Passes over white space, comments and line ends; each of the `steps` passes over a line. -/
def skipLines : (steps : Nat) → List Char → List Char
  | 0, text => text
  | steps + 1, text =>
    let rest := dropSpace text
    if rest.isEmpty then [] else
    match endLine? rest with
    | some rest => skipLines steps rest
    | none => rest

/-! ## Strings -/

/-- The character with a number, if there is one. -/
def charOf? (n : Nat) : Option Char :=
  if n < 0xD800 ∨ (0xDFFF < n ∧ n < 0x110000) then some (Char.ofNat n) else none

/-- Reads the character that a number of hexadecimal digits give. -/
def readCode? (digits : Nat) (text : List Char) : Option (Char × List Char) := do
  let values ← (text.take digits).mapM Bytes.hexValue?
  if values.length = digits then
    let c ← charOf? (values.foldl (fun n v => 16 * n + v) 0)
    some (c, text.drop digits)
  else none

/-- Reads an escape after its backslash. -/
def readEscape? : List Char → Option (Char × List Char)
  | 'b' :: rest => some ('\x08', rest)
  | 't' :: rest => some ('\t', rest)
  | 'n' :: rest => some ('\n', rest)
  | 'f' :: rest => some ('\x0c', rest)
  | 'r' :: rest => some ('\r', rest)
  | '"' :: rest => some ('"', rest)
  | '\\' :: rest => some ('\\', rest)
  | 'u' :: rest => readCode? 4 rest
  | 'U' :: rest => readCode? 8 rest
  | _ => none

/-- Reads a string on one line after its opening quote. -/
def readBasic? : (steps : Nat) → List Char → Option (List Char × List Char)
  | 0, _ => none
  | steps + 1, text =>
    match text with
    | '"' :: rest => some ([], rest)
    | '\\' :: rest => do
      let (c, rest) ← readEscape? rest
      let (more, rest) ← readBasic? steps rest
      some (c :: more, rest)
    | c :: rest => do
      if !isCommentChar c then none
      else
        let (more, rest) ← readBasic? steps rest
        some (c :: more, rest)
    | [] => none

/-- Reads a literal string on one line after its opening quote. -/
def readLiteral? (text : List Char) : Option (List Char × List Char) :=
  let held := text.takeWhile fun c => isCommentChar c && c != '\''
  match text.drop held.length with
  | '\'' :: rest => some (held, rest)
  | _ => none

/-- The end of a string over several lines, at a run of its quotes: up to two of them belong to the
string when three more follow. The result is the quotes that belong to it, whether it ends, and the
rest. -/
def quoteRun (quote : Char) (text : List Char) : List Char × Bool × List Char :=
  let run := (text.takeWhile (· == quote)).length
  if run < 3 then (List.replicate run quote, false, text.drop run)
  else
    let kept := min (run - 3) 2
    (List.replicate kept quote, true, text.drop (kept + 3))

/-- Passes over a line end after a backslash, with the white space and empty lines that follow. -/
def afterEscapedNewline? (text : List Char) : Option (List Char) := do
  let rest ← afterNewline? (dropSpace text)
  some (rest.dropWhile fun c => isSpace c || c == '\n' || c == '\r')

/-- Reads a string over several lines after its opening quotes. -/
def readMultiline? (quote : Char) : (steps : Nat) → List Char → Option (List Char × List Char)
  | 0, _ => none
  | steps + 1, text =>
    match text with
    | [] => none
    | c :: rest =>
      if c = quote then
        let (held, ends, rest) := quoteRun quote text
        if ends then some (held, rest)
        else (readMultiline? quote steps rest).map fun (more, rest) => (held ++ more, rest)
      else
        match afterNewline? text with
        | some rest =>
          (readMultiline? quote steps rest).map fun (more, rest) => ('\n' :: more, rest)
        | none =>
          if c = '\\' ∧ quote = '"' then
            match afterEscapedNewline? rest with
            | some rest => readMultiline? quote steps rest
            | none => do
              let (e, rest) ← readEscape? rest
              let (more, rest) ← readMultiline? quote steps rest
              some (e :: more, rest)
          else if !isCommentChar c then none
          else (readMultiline? quote steps rest).map fun (more, rest) => (c :: more, rest)

/-- A text without a line end in front. -/
def dropNewline (text : List Char) : List Char := (afterNewline? text).getD text

/-- Reads a string in any of its four forms. -/
def readString? (text : List Char) : Option (String × List Char) :=
  let steps := text.length + 1
  let held := match text with
    | '"' :: '"' :: '"' :: rest => readMultiline? '"' steps (dropNewline rest)
    | '\'' :: '\'' :: '\'' :: rest => readMultiline? '\'' steps (dropNewline rest)
    | '"' :: rest => readBasic? steps rest
    | '\'' :: rest => readLiteral? rest
    | _ => none
  held.map fun (chars, rest) => (String.ofList chars, rest)

/-! ## Keys -/

/-- A character of a key without quotes. -/
def isBareChar (c : Char) : Bool :=
  ('a' ≤ c && c ≤ 'z') || ('A' ≤ c && c ≤ 'Z') || ('0' ≤ c && c ≤ '9') || c == '-' || c == '_'

/-- Reads one part of a key. -/
def readPart? (text : List Char) : Option (String × List Char) :=
  match text with
  | '"' :: rest =>
    (readBasic? (rest.length + 1) rest).map fun (chars, rest) => (String.ofList chars, rest)
  | '\'' :: rest => (readLiteral? rest).map fun (chars, rest) => (String.ofList chars, rest)
  | _ =>
    let name := text.takeWhile isBareChar
    if name.isEmpty then none else some (String.ofList name, text.drop name.length)

/-- Reads a key: parts with points between them. White space around the parts is passed over. -/
def readKey? : (steps : Nat) → List Char → Option (List String × List Char)
  | 0, _ => none
  | steps + 1, text => do
    let (part, rest) ← readPart? (dropSpace text)
    match dropSpace rest with
    | '.' :: rest =>
      let (more, rest) ← readKey? steps rest
      some (part :: more, rest)
    | rest => some ([part], rest)

/-! ## Numbers and moments -/

/-- Reads digits with single underscores between them. -/
def readDigits? (isDigit : Char → Bool) : List Char → Option (List Char × List Char)
  | [] => none
  | c :: rest =>
    if !isDigit c then none
    else
      match rest with
      | '_' :: after => (readDigits? isDigit after).map fun (more, rest) => (c :: more, rest)
      | after =>
        match readDigits? isDigit after with
        | some (more, rest) => some (c :: more, rest)
        | none => some ([c], after)

/-- Whether a character is a decimal digit. -/
def isDecimal (c : Char) : Bool := '0' ≤ c && c ≤ '9'

/-- Whether a character is a hexadecimal digit. -/
def isHexadecimal (c : Char) : Bool := (Bytes.hexValue? c).isSome

/-- Reads a sign. -/
def readSign : List Char → Bool × List Char
  | '-' :: rest => (true, rest)
  | '+' :: rest => (false, rest)
  | text => (false, text)

/-- Reads the digits of a decimal integer, which do not start with a superfluous zero. -/
def readWhole? (text : List Char) : Option (List Char × List Char) :=
  match text with
  | '0' :: rest => some (['0'], rest)
  | _ => readDigits? isDecimal text

/-- The number that digits write in a base. -/
def valueIn (base : Nat) (digits : List Char) : Nat :=
  digits.foldl (fun n c => base * n + (Bytes.hexValue? c).getD 0) 0

/-- The value of an integer in the range of 64 bits. -/
def integer? (i : Int) : Option Value :=
  if -9223372036854775808 ≤ i ∧ i ≤ 9223372036854775807 then some (.integer i) else none

/-- Reads an integer without sign in another base. -/
def readBased? (base : Nat) (isDigit : Char → Bool) (text : List Char) : Option (Value × List Char) := do
  let (digits, rest) ← readDigits? isDigit text
  some (← integer? (valueIn base digits), rest)

/-- Reads an integer. -/
def readInteger? (text : List Char) : Option (Value × List Char) :=
  match text with
  | '0' :: 'x' :: rest => readBased? 16 isHexadecimal rest
  | '0' :: 'o' :: rest => readBased? 8 (fun c => '0' ≤ c && c ≤ '7') rest
  | '0' :: 'b' :: rest => readBased? 2 (fun c => c == '0' || c == '1') rest
  | _ => do
    let (negative, rest) := readSign text
    let (digits, rest) ← readWhole? rest
    let n : Int := valueIn 10 digits
    some (← integer? (if negative then -n else n), rest)

/-- Reads the exponent of a float after its mark. -/
def readExponent? (text : List Char) : Option (Int × List Char) := do
  let (negative, rest) := readSign text
  let (digits, rest) ← readDigits? isDecimal rest
  let n : Int := valueIn 10 digits
  some (if negative then -n else n, rest)

/-- Reads a float: an integer with a fraction, an exponent, or both, or one of the words for what is
not finite. A positive one must not be beyond the finite range. -/
def readFloat? (text : List Char) : Option (Value × List Char) :=
  let (negative, start) := readSign text
  match start with
  | 'i' :: 'n' :: 'f' :: rest => some (.float, rest)
  | 'n' :: 'a' :: 'n' :: rest => some (.float, rest)
  | _ => do
    let (whole, rest) ← readWhole? start
    let (fraction, rest) ← match rest with
      | '.' :: rest => readDigits? isDecimal rest
      | _ => some ([], rest)
    let (exponent, after) ← match rest with
      | 'e' :: rest => readExponent? rest
      | 'E' :: rest => readExponent? rest
      | _ => if fraction.isEmpty then none else some (0, rest)
    let coefficient := valueIn 10 (whole ++ fraction)
    let double? := Number.Double.ofDecimal? negative coefficient (exponent - fraction.length)
    if negative || double?.isSome then some (.float, after) else none

/-- Reads a number of a fixed count of digits within bounds. -/
def readField? (digits low high : Nat) (text : List Char) : Option (Nat × List Char) :=
  let held := text.take digits
  let n := valueIn 10 held
  if held.length = digits ∧ held.all isDecimal ∧ low ≤ n ∧ n ≤ high then some (n, text.drop digits)
  else none

/-- The number of days in a month. -/
def daysIn (year month : Nat) : Nat :=
  if month = 2 then if year % 4 = 0 ∧ (year % 100 ≠ 0 ∨ year % 400 = 0) then 29 else 28
  else if month = 4 ∨ month = 6 ∨ month = 9 ∨ month = 11 then 30
  else 31

/-- Reads a given character. -/
def readChar? (c : Char) : List Char → Option (List Char)
  | d :: rest => if d = c then some rest else none
  | [] => none

/-- Passes over a date. -/
def afterDate? (text : List Char) : Option (List Char) := do
  let (year, rest) ← readField? 4 0 9999 text
  let rest ← readChar? '-' rest
  let (month, rest) ← readField? 2 1 12 rest
  let rest ← readChar? '-' rest
  let (_, rest) ← readField? 2 1 (daysIn year month) rest
  some rest

/-- Passes over a time of day. -/
def afterTime? (text : List Char) : Option (List Char) := do
  let (_, rest) ← readField? 2 0 23 text
  let rest ← readChar? ':' rest
  let (_, rest) ← readField? 2 0 59 rest
  let rest ← readChar? ':' rest
  let (_, rest) ← readField? 2 0 60 rest
  match rest with
  | '.' :: after =>
    let fraction := after.takeWhile isDecimal
    if fraction.isEmpty then some rest else some (after.drop fraction.length)
  | _ => some rest

/-- Passes over the offset of a time, if there is one. -/
def afterOffset (text : List Char) : List Char :=
  let signed (rest : List Char) : Option (List Char) := do
    let (_, rest) ← readField? 2 0 23 rest
    let rest ← readChar? ':' rest
    let (_, rest) ← readField? 2 0 59 rest
    some rest
  match text with
  | 'Z' :: rest => rest
  | 'z' :: rest => rest
  | '+' :: rest => (signed rest).getD text
  | '-' :: rest => (signed rest).getD text
  | _ => text

/-- Reads a date, a time of day, or both. -/
def readMoment? (text : List Char) : Option (Value × List Char) :=
  match afterDate? text with
  | some rest =>
    let withTime := match rest with
      | c :: after => if c = 'T' ∨ c = 't' ∨ c = ' ' then afterTime? after else none
      | [] => none
    match withTime with
    | some after => some (.moment, afterOffset after)
    | none => some (.moment, rest)
  | none => (afterTime? text).map fun rest => (.moment, rest)

/-! ## Values -/

/-- Reads a value that holds no others. -/
def readScalar? (text : List Char) : Option (Value × List Char) :=
  match text with
  | '"' :: _ => (readString? text).map fun (s, rest) => (.string s, rest)
  | '\'' :: _ => (readString? text).map fun (s, rest) => (.string s, rest)
  | 't' :: 'r' :: 'u' :: 'e' :: rest => some (.boolean true, rest)
  | 'f' :: 'a' :: 'l' :: 's' :: 'e' :: rest => some (.boolean false, rest)
  | _ => (readMoment? text).orElse fun _ => (readFloat? text).orElse fun _ => readInteger? text

/-- Reads the items of an array after its opening bracket. -/
def readItems? (read : List Char → Option (Value × List Char)) : (steps : Nat) → List Char → Option (List Value × List Char)
  | 0, _ => none
  | steps + 1, text =>
    match skipLines steps text with
    | ']' :: rest => some ([], rest)
    | text => do
      let (item, rest) ← read text
      match skipLines steps rest with
      | ']' :: rest => some ([item], rest)
      | ',' :: rest =>
        let (items, rest) ← readItems? read steps rest
        some (item :: items, rest)
      | _ => none

/-- The keys of an inline table on one line, from the first one on, added to the entries before. -/
def readPairs? (read : List Char → Option (Value × List Char)) :
    (steps : Nat) → Entries → List Char → Option (Entries × List Char)
  | 0, _, _ => none
  | steps + 1, entries, text => do
    let (key, rest) ← readKey? steps text
    match rest with
    | '=' :: rest =>
      let (v, rest) ← read (dropSpace rest)
      let entries ← entries.define key.dropLast (key.getLast?.getD "") v
      match dropSpace rest with
      | '\x7d' :: rest => some (entries, rest)
      | ',' :: rest => readPairs? read steps entries rest
      | _ => none
    | _ => none

/-- How many arrays and inline tables may stand inside each other. -/
def maxDepth : Nat := 79

/-- Reads a value with at most `room` arrays and inline tables inside each other. -/
def readValue? : (room : Nat) → List Char → Option (Value × List Char)
  | room, '[' :: rest =>
    match room with
    | 0 => none
    | room + 1 =>
      (readItems? (readValue? room) (rest.length + 1) rest).map fun (items, rest) =>
        (.array items, rest)
  | room, '\x7b' :: rest =>
    match room with
    | 0 => none
    | room + 1 =>
      match dropSpace rest with
      | '\x7d' :: rest => some (.table [], rest)
      | rest =>
        (readPairs? (readValue? room) (rest.length + 1) [] rest).map fun (entries, rest) =>
          (.table (finishEntries entries), rest)
  | _, text => readScalar? text

/-! ## Documents -/

/-- A document as far as it is read: its tables, and the path of the current one. -/
structure Draft where
  root : Entries
  current : List String

/-- Reads a header after its opening brackets, up to the closing ones. -/
def readHeader? (closing : List Char) (text : List Char) : Option (List String × List Char) := do
  let (key, rest) ← readKey? (text.length + 1) text
  if rest.take closing.length = closing then some (key, rest.drop closing.length) else none

/-- Reads one line. -/
def Draft.readLine? (d : Draft) (text : List Char) : Option (Draft × List Char) :=
  match text with
  | '[' :: '[' :: rest => do
    let (key, rest) ← readHeader? [']', ']'] rest
    let root ← d.root.openElement key.dropLast (key.getLast?.getD "")
    some (⟨root, key⟩, rest)
  | '[' :: rest => do
    let (key, rest) ← readHeader? [']'] rest
    let root ← d.root.openTable key.dropLast (key.getLast?.getD "")
    some (⟨root, key⟩, rest)
  | _ => do
    let (key, rest) ← readKey? (text.length + 1) text
    match rest with
    | '=' :: rest =>
      let (v, rest) ← readValue? maxDepth (dropSpace rest)
      let root ← d.root.modifyAt (Entries.define key.dropLast (key.getLast?.getD "") v) d.current
      some (⟨root, d.current⟩, rest)
    | _ => none

/-- Reads the lines of a text; each of the `steps` reads one. -/
def Draft.readLines? : (steps : Nat) → Draft → List Char → Option Draft
  | 0, _, _ => none
  | steps + 1, d, text =>
    match dropSpace text with
    | [] => some d
    | text =>
      match endLine? text with
      | some rest => d.readLines? steps rest
      | none => do
        let (d, rest) ← d.readLine? text
        d.readLines? steps (← endLine? rest)

/-- Reads a document, which may start with a byte order mark. -/
def read? (text : String) : Option (List (String × Value)) := do
  let chars := match text.toList with
    | '\ufeff' :: rest => rest
    | chars => chars
  let d ← Draft.readLines? (chars.length + 1) ⟨[], []⟩ chars
  some (finishEntries d.root)

end AuditTrail.Toml
