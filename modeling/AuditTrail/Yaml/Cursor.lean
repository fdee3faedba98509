/-!
# Walking through YAML text

A cursor is a place in a text: what is left of it, and the line and column reached. Indentation is
structure in YAML, so every reader takes and returns cursors rather than bare texts. The characters
that a document may hold, and its five kinds of line breaks, are fixed here.
-/

namespace AuditTrail.Yaml

/-- A place in a text. -/
structure Cursor where
  rest : List Char
  index : Nat
  line : Nat
  column : Nat

/-- A character that may occur in a document. -/
def isPermitted (c : Char) : Bool :=
  let n := c.toNat
  n == 0x09 || n == 0x0A || n == 0x0D || (0x20 ≤ n && n ≤ 0x7E) || n == 0x85
    || (0xA0 ≤ n && n ≤ 0xD7FF) || (0xE000 ≤ n && n ≤ 0xFFFD) || 0x10000 ≤ n

/-- A line break. -/
def isBreak (c : Char) : Bool :=
  c == '\n' || c == '\r' || c == '\u0085' || c == '\u2028' || c == '\u2029'

/-- A space or a tab. -/
def isBlank (c : Char) : Bool := c == ' ' || c == '\t'

/-- A character of a name: a letter, a digit, a hyphen or an underscore. -/
def isNameChar (c : Char) : Bool :=
  ('a' ≤ c && c ≤ 'z') || ('A' ≤ c && c ≤ 'Z') || ('0' ≤ c && c ≤ '9') || c == '-' || c == '_'

/-- Whether a text has a blank or a line break in front, or nothing at all. -/
def blankOrEnd (text : List Char) : Bool :=
  match text with
  | c :: _ => isBlank c || isBreak c
  | [] => true

/-- Whether a text has a line break in front, or nothing at all. -/
def breakOrEnd (text : List Char) : Bool :=
  match text with
  | c :: _ => isBreak c
  | [] => true

namespace Cursor

/-- The start of a text, after the byte order mark that it may have. -/
def start (text : List Char) : Cursor :=
  match text with
  | '\ufeff' :: rest => ⟨rest, 0, 0, 0⟩
  | _ => ⟨text, 0, 0, 0⟩

/-- The next character. -/
def peek? (c : Cursor) : Option Char := c.rest.head?

/-- Whether the next character is the given one. -/
def sees (c : Cursor) (x : Char) : Bool := c.peek? == some x

/-- Whether the next character is in a class. -/
def seesIn (c : Cursor) (p : Char → Bool) : Bool := c.rest.head?.any p

/-- The place a number of characters further in the line. -/
def skip (c : Cursor) (count : Nat) : Cursor :=
  ⟨c.rest.drop count, c.index + count, c.line, c.column + count⟩

/-- The place after the characters of a class. -/
def skipWhile (c : Cursor) (p : Char → Bool) : Cursor := c.skip (c.rest.takeWhile p).length

/-- The place after a line break, and the text the break stands for: the breaks of Unicode stand for
themselves, all others for a line feed. A cursor that sees no line break stays. -/
def takeBreak (c : Cursor) : List Char × Cursor :=
  match c.rest with
  | '\r' :: '\n' :: rest => (['\n'], ⟨rest, c.index + 2, c.line + 1, 0⟩)
  | x :: rest =>
    if x = '\u2028' ∨ x = '\u2029' then ([x], ⟨rest, c.index + 1, c.line + 1, 0⟩)
    else if isBreak x then (['\n'], ⟨rest, c.index + 1, c.line + 1, 0⟩)
    else ([], c)
  | [] => ([], c)

/-- Whether a line starts here with one of the two marks between documents. -/
def atDocumentMark (c : Cursor) : Bool :=
  c.column == 0
    && (c.rest.take 3 == ['-', '-', '-'] || c.rest.take 3 == ['.', '.', '.'])
    && blankOrEnd (c.rest.drop 3)

end Cursor

end AuditTrail.Yaml
