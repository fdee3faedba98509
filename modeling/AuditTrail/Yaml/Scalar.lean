import AuditTrail.Text.Bytes
import AuditTrail.Yaml.Cursor

/-!
# Scalars

The texts in a document: plain, in quotes, or as an indented block. All three fold line breaks, and a
break between two lines of text becomes a space unless empty lines follow it (`folded`).
-/

namespace AuditTrail.Yaml

/-- What stands for the line breaks between two pieces of a folded text: the first break, and the ones
of the empty lines after it. -/
def folded (first more : List Char) : List Char :=
  if first = ['\n'] then if more.isEmpty then [' '] else more else first ++ more

/-- The white space between two pieces of a scalar: blanks within a line, or line breaks. -/
structure Gap where
  blanks : List Char
  /-- Whether a line break has been passed. -/
  broken : Bool
  first : List Char
  more : List Char

/-- No white space. -/
def Gap.none : Gap := ⟨[], false, [], []⟩

/-- The text that a gap stands for. -/
def Gap.text (g : Gap) : List Char := if g.broken then folded g.first g.more else g.blanks

/-- Passes over blanks and line breaks. Where lines must be indented, a tab before that column is a
fault. -/
def takeGap? (indent : Int) : (steps : Nat) → Gap → Cursor → Option (Gap × Cursor)
  | 0, g, c => some (g, c)
  | steps + 1, g, c =>
    if c.seesIn isBlank then
      if g.broken && decide ((c.column : Int) < indent) && c.sees '\t' then Option.none
      else
        let blanks := if g.broken then g.blanks else g.blanks ++ c.rest.take 1
        takeGap? indent steps { g with blanks := blanks } (c.skip 1)
    else if c.seesIn isBreak then
      let (found, c) := c.takeBreak
      if g.broken then takeGap? indent steps { g with more := g.more ++ found } c
      else takeGap? indent steps ⟨[], true, found, g.more⟩ c
    else some (g, c)

/-! ## Plain scalars -/

/-- The length of the plain text in front of a text, up to white space or an indicator; `none` if an
indicator is in the wrong place. -/
def plainLength? (inFlow : Bool) : List Char → Option Nat
  | [] => some 0
  | c :: rest =>
    if isBlank c || isBreak c then some 0
    else
      let isEnclosing (x : Char) := x == ',' || x == '[' || x == ']' || x == '\x7b' || x == '\x7d'
      if inFlow && c == ':' && rest.head?.any (fun x => isEnclosing x || x == '?') then none
      else if c == ':' && blankOrEnd rest then some 0
      else if inFlow && isEnclosing c then some 0
      else (plainLength? inFlow rest).map (· + 1)

/-- Reads a plain scalar whose lines are indented to a column. Returns its text and whether it ended
after a line break. -/
def readPlain? (inFlow : Bool) (indent : Int) :
    (steps : Nat) → (text : List Char) → Gap → Cursor → Option (List Char × Bool × Cursor)
  | 0, text, g, c => some (text, g.broken, c)
  | steps + 1, text, g, c =>
    if c.atDocumentMark || c.sees '#' then some (text, g.broken, c)
    else do
      let length ← plainLength? inFlow c.rest
      let (text, g) :=
        if length = 0 then (text, g) else (text ++ g.text ++ c.rest.take length, Gap.none)
      let c := c.skip length
      if !c.seesIn fun x => isBlank x || isBreak x then some (text, g.broken, c)
      else
        let (g, c) ← takeGap? indent (c.rest.length + 1) g c
        if !inFlow && decide ((c.column : Int) < indent) then some (text, g.broken, c)
        else readPlain? inFlow indent steps text g c

/-! ## Scalars in quotes -/

/-- The character that a number of hexadecimal digits give. -/
def readCode? (digits : Nat) (text : List Char) : Option Char := do
  let values ← (text.take digits).mapM Bytes.hexValue?
  if values.length = digits then
    let n := values.foldl (fun n v => 16 * n + v) 0
    if n < 0xD800 ∨ (0xDFFF < n ∧ n < 0x110000) then some (Char.ofNat n) else none
  else none

/-- The character of an escape, and the number of characters the escape has after its backslash. -/
def escape? : List Char → Option (Char × Nat)
  | '0' :: _ => some ('\x00', 1)
  | 'a' :: _ => some ('\x07', 1)
  | 'b' :: _ => some ('\x08', 1)
  | 't' :: _ => some ('\t', 1)
  | '\t' :: _ => some ('\t', 1)
  | 'n' :: _ => some ('\n', 1)
  | 'v' :: _ => some ('\x0b', 1)
  | 'f' :: _ => some ('\x0c', 1)
  | 'r' :: _ => some ('\r', 1)
  | 'e' :: _ => some ('\x1b', 1)
  | ' ' :: _ => some (' ', 1)
  | '"' :: _ => some ('"', 1)
  | '/' :: _ => some ('/', 1)
  | '\\' :: _ => some ('\\', 1)
  | 'N' :: _ => some ('\u0085', 1)
  | '_' :: _ => some ('\u00a0', 1)
  | 'L' :: _ => some ('\u2028', 1)
  | 'P' :: _ => some ('\u2029', 1)
  | 'x' :: rest => (readCode? 2 rest).map fun c => (c, 3)
  | 'u' :: rest => (readCode? 4 rest).map fun c => (c, 5)
  | 'U' :: rest => (readCode? 8 rest).map fun c => (c, 9)
  | _ => none

/-- Reads the text in quotes up to white space or the closing quote. Returns the text and whether an
escaped line break was passed. -/
def readPiece? (double : Bool) : (steps : Nat) → (text : List Char) → Cursor →
    Option (List Char × Bool × Cursor)
  | 0, text, c => some (text, false, c)
  | steps + 1, text, c =>
    match c.rest with
    | [] => some (text, false, c)
    | x :: rest =>
      if isBlank x || isBreak x then some (text, false, c)
      else if !double && x == '\'' && rest.head? == some '\'' then
        readPiece? double steps (text ++ ['\'']) (c.skip 2)
      else if x == (if double then '"' else '\'') then some (text, false, c)
      else if double && x == '\\' then
        if rest.head?.any isBreak then some (text, true, ((c.skip 1).takeBreak).2)
        else do
          let (e, length) ← escape? rest
          readPiece? double steps (text ++ [e]) (c.skip (length + 1))
      else readPiece? double steps (text ++ [x]) (c.skip 1)

/-- Reads a scalar in quotes after its opening quote. -/
def readQuoted? (double : Bool) : (steps : Nat) → (text : List Char) → Cursor →
    Option (List Char × Cursor)
  | 0, _, _ => none
  | steps + 1, text, c =>
    if c.atDocumentMark || c.rest.isEmpty then none
    else do
      let (text, escaped, c) ← readPiece? double (c.rest.length + 1) text c
      if c.sees (if double then '"' else '\'') then some (text, c.skip 1)
      else
        let (g, c) ← takeGap? (-1) (c.rest.length + 1) { Gap.none with broken := escaped } c
        readQuoted? double steps (text ++ g.text) c

/-! ## Block scalars -/

/-- What becomes of the line breaks at the end of a block. -/
inductive Chomping
  | strip
  | clip
  | keep
  deriving DecidableEq, Repr

/-- The header of a block: how its end is treated, and its indentation where that is given. -/
structure BlockHeader where
  chomping : Chomping
  increment : Nat

/-- Reads the sign of a header. -/
def readChomping (c : Cursor) : Chomping × Cursor :=
  if c.sees '+' then (.keep, c.skip 1)
  else if c.sees '-' then (.strip, c.skip 1)
  else (.clip, c)

/-- Reads the digit of a header, which is not zero. -/
def readIncrement? (c : Cursor) : Option (Nat × Cursor) :=
  match c.rest with
  | x :: _ =>
    if '1' ≤ x ∧ x ≤ '9' then some (x.toNat - 48, c.skip 1)
    else if x = '0' then none
    else some (0, c)
  | [] => some (0, c)

/-- Reads a header, the comment after it and the line break. -/
def readHeader? (c : Cursor) : Option (BlockHeader × Cursor) := do
  let (sign, afterSign) := readChomping c
  let (increment, c) ← readIncrement? afterSign
  let (chomping, c) := if sign = .clip ∧ increment ≠ 0 then readChomping c else (sign, c)
  let c := c.skipWhile isBlank
  let c := if c.sees '#' then c.skipWhile (fun x => !isBreak x) else c
  if breakOrEnd c.rest then some (⟨chomping, increment⟩, c.takeBreak.2) else none

/-- Passes over the empty lines of a block and the indentation of its next line. An `indent` of zero
is not known yet. Returns the line breaks and the greatest column reached. -/
def takeEmptyLines? (indent : Nat) : (steps : Nat) → (breaks : List Char) → (widest : Nat) →
    Cursor → Option (List Char × Nat × Cursor)
  | 0, breaks, widest, c => some (breaks, widest, c)
  | steps + 1, breaks, widest, c =>
    let spaces := (c.rest.takeWhile (· == ' ')).length
    let c := c.skip (if indent = 0 then spaces else min spaces (indent - c.column))
    let widest := max widest c.column
    if (indent = 0 ∨ c.column < indent) ∧ c.sees '\t' then none
    else if c.seesIn isBreak then
      let (found, c) := c.takeBreak
      takeEmptyLines? indent steps (breaks ++ found) widest c
    else some (breaks, widest, c)

/-- The lines of a block as read so far: the text, the break after its last line, the breaks of the
empty lines after that, and whether the last line started with a blank. -/
structure BlockLines where
  text : List Char
  first : List Char
  more : List Char
  indented : Bool

/-- Reads the lines of a block that are indented to a column. -/
def readLines? (literal : Bool) (indent : Nat) : (steps : Nat) → BlockLines → Cursor →
    Option (BlockLines × Cursor)
  | 0, b, c => some (b, c)
  | steps + 1, b, c =>
    if c.column ≠ indent ∨ c.rest.isEmpty then some (b, c)
    else do
      let indented := c.seesIn isBlank
      let joins := !literal && b.first == ['\n'] && !b.indented && !indented
      let gap :=
        if joins then (if b.more.isEmpty then [' '] else []) ++ b.more else b.first ++ b.more
      let line := c.rest.takeWhile fun x => !isBreak x
      let (first, c) := (c.skip line.length).takeBreak
      let (more, _, c) ← takeEmptyLines? indent (c.rest.length + 1) [] 0 c
      readLines? literal indent steps ⟨b.text ++ gap ++ line, first, more, indented⟩ c

/-- Reads a block after its indicator, inside a collection with the given indentation. -/
def readBlock? (literal : Bool) (outer : Int) (c : Cursor) : Option (List Char × Cursor) := do
  let (header, c) ← readHeader? c
  let given : Nat := if header.increment = 0 then 0 else header.increment + outer.toNat
  let (more, widest, c) ← takeEmptyLines? given (c.rest.length + 1) [] 0 c
  let indent := if given = 0 then max (max widest (outer + 1).toNat) 1 else given
  let (b, c) ← readLines? literal indent (c.rest.length + 1) ⟨[], [], more, false⟩ c
  let tail := match header.chomping with
    | .strip => []
    | .clip => b.first
    | .keep => b.first ++ b.more
  some (b.text ++ tail, c)

end AuditTrail.Yaml
