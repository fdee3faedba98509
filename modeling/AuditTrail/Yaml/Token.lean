import AuditTrail.Yaml.Scalar

/-!
# Tokens

A document as a list of tokens, in which indentation has become explicit: a token opens each block
collection and another one closes it. That something is a key only shows at the colon after it. So a
scanner remembers where a key may have begun, and puts the tokens that belong in front of it there as
soon as the colon comes (`Scanner.readValue?`).
-/

namespace AuditTrail.Yaml

/-- A token. The end of the list ends the stream. -/
inductive Token
  | version (major minor : Nat)
  | tagPrefix (handle start : List Char)
  | documentStart
  | documentEnd
  | blockSequence
  | blockMapping
  | blockEnd
  | flowSequence
  | flowSequenceEnd
  | flowMapping
  | flowMappingEnd
  | blockEntry
  | flowEntry
  | key
  | value
  | alias (name : List Char)
  | anchor (name : List Char)
  | tag (handle suffix : List Char)
  | scalar (plain : Bool) (text : List Char)
  deriving DecidableEq, Repr

/-- A place where a key may have begun. -/
structure PossibleKey where
  /-- Whether anything but a key would be a fault there. -/
  required : Bool
  /-- The number of tokens before it. -/
  number : Nat
  index : Nat
  line : Nat
  column : Nat

/-- How far the scanning of a text has come. -/
structure Scanner where
  cursor : Cursor
  /-- The column of the innermost block collection, -1 outside of all. -/
  indent : Int
  /-- The columns of the block collections around it. -/
  outer : List Int
  /-- Whether a key may begin here. -/
  keyAllowed : Bool
  /-- The possible key of the innermost flow collection, or of the block. -/
  possible : Option PossibleKey
  /-- The possible keys around the open flow collections, the innermost first. -/
  enclosing : List (Option PossibleKey)
  /-- The tokens so far, the latest first. -/
  tokens : List Token

namespace Scanner

/-- The start of a text. -/
def start (text : List Char) : Scanner :=
  ⟨Cursor.start text, -1, [], true, none, [], []⟩

/-- Whether a flow collection is open. -/
def inFlow (s : Scanner) : Bool := !s.enclosing.isEmpty

/-- Adds a token. -/
def emit (s : Scanner) (t : Token) : Scanner := { s with tokens := t :: s.tokens }

/-- Adds a token after the first `number` ones. -/
def emitAt (s : Scanner) (number : Nat) (t : Token) : Scanner :=
  let later := s.tokens.length - number
  { s with tokens := s.tokens.take later ++ t :: s.tokens.drop later }

/-- Adds a token for the next characters. -/
def take (s : Scanner) (length : Nat) (t : Token) : Scanner :=
  { s.emit t with cursor := s.cursor.skip length }

/-- Gives up the possible key, which must not be a required one. -/
def dropKey? (s : Scanner) : Option Scanner :=
  match s.possible with
  | some k => if k.required then none else some { s with possible := none }
  | none => some s

/-- Remembers that a key may begin here. -/
def saveKey? (s : Scanner) : Option Scanner :=
  if s.keyAllowed then do
    let s ← s.dropKey?
    let c := s.cursor
    let required := !s.inFlow && s.indent == (c.column : Int)
    some { s with possible := some ⟨required, s.tokens.length, c.index, c.line, c.column⟩ }
  else some s

/-- How many characters a key may have before its colon. -/
def maxKeyLength : Nat := 1024

/-- Gives up a possible key that is on an earlier line or too far back. -/
def freshKey? (c : Cursor) : Option PossibleKey → Option (Option PossibleKey)
  | none => some none
  | some k =>
    if k.line < c.line ∨ k.index + maxKeyLength < c.index then
      if k.required then none else some none
    else some (some k)

/-- Gives up all possible keys that are on an earlier line or too far back. -/
def freshKeys? (s : Scanner) : Option Scanner := do
  let possible ← freshKey? s.cursor s.possible
  let enclosing ← s.enclosing.mapM (freshKey? s.cursor)
  some { s with possible := possible, enclosing := enclosing }

/-- Closes the block collections that are indented further than a column. -/
def unroll (column : Int) : (outer : List Int) → Scanner → Scanner
  | [], s => s
  | next :: rest, s =>
    if !s.inFlow && decide (column < s.indent) then
      unroll column rest { s.emit .blockEnd with indent := next, outer := rest }
    else s

/-- Opens a block collection at a column, unless it is open; its token goes after the first `number`
ones. -/
def roll (s : Scanner) (column number : Nat) (t : Token) : Scanner :=
  if !s.inFlow && decide (s.indent < column) then
    { s.emitAt number t with indent := column, outer := s.indent :: s.outer }
  else s

/-- Ends everything that is open in the block context. -/
def leaveBlocks? (s : Scanner) : Option Scanner := do
  let s ← (unroll (-1) s.outer s).dropKey?
  some { s with keyAllowed := false }

/-- Passes over white space, comments and line breaks. In the block context a tab does not indent, and
a new line may begin with a key. -/
def toNextToken : (steps : Nat) → Scanner → Scanner
  | 0, s => s
  | steps + 1, s =>
    let tabs := s.inFlow || !s.keyAllowed
    let c := s.cursor.skipWhile fun x => x == ' ' || (tabs && x == '\t')
    let c := if c.sees '#' then c.skipWhile (fun x => !isBreak x) else c
    if c.seesIn isBreak then
      toNextToken steps
        { s with cursor := c.takeBreak.2, keyAllowed := s.keyAllowed || !s.inFlow }
    else { s with cursor := c }

/-! ## Directives -/

/-- Reads a version number of one to nine digits. -/
def readNumber? (c : Cursor) : Option (Nat × Cursor) :=
  let digits := c.rest.takeWhile fun x => '0' ≤ x && x ≤ '9'
  if digits.isEmpty || 9 < digits.length then none
  else some (digits.foldl (fun n x => 10 * n + (x.toNat - 48)) 0, c.skip digits.length)

/-- Reads the handle of a tag: exclamation marks around a name. In a directive a handle without the
second mark has no name either. -/
def readHandle? (directive : Bool) (c : Cursor) : Option (List Char × Cursor) :=
  if !c.sees '!' then none
  else
    let name := (c.rest.drop 1).takeWhile isNameChar
    let after := c.skip (1 + name.length)
    if after.sees '!' then some ('!' :: name ++ ['!'], after.skip 1)
    else if directive && !name.isEmpty then none
    else some ('!' :: name, after)

/-- A character of a tag; some may occur only where the tag is written out. -/
def isTagChar (verbatim : Bool) (c : Char) : Bool :=
  isNameChar c || ";/?:@&=+$.!~*'()".toList.contains c
    || (verbatim && (c == ',' || c == '[' || c == ']'))

/-- The octets of a run of percent escapes, with the number of escapes. -/
def percentOctets : List Char → Bytes
  | '%' :: a :: b :: rest =>
    match Bytes.hexValue? a, Bytes.hexValue? b with
    | some h, some l => UInt8.ofNat (16 * h + l) :: percentOctets rest
    | _, _ => []
  | _ => []

/-- Reads the text of a tag; percent escapes must encode characters. -/
def readTagText? (verbatim : Bool) : (steps : Nat) → Cursor → Option (List Char × Cursor)
  | 0, c => some ([], c)
  | steps + 1, c =>
    match c.rest with
    | [] => some ([], c)
    | x :: _ =>
      if x = '%' then do
        let octets := percentOctets c.rest
        let text ← Bytes.toString? octets
        if text.isEmpty then none
        else
          let (more, c) ← readTagText? verbatim steps (c.skip (3 * octets.length))
          some (text.toList ++ more, c)
      else if isTagChar verbatim x then
        (readTagText? verbatim steps (c.skip 1)).map fun (more, c) => (x :: more, c)
      else some ([], c)

/-- Reads the text of a tag, which is not empty. -/
def readTag? (verbatim : Bool) (c : Cursor) : Option (List Char × Cursor) := do
  let (text, c) ← readTagText? verbatim (c.rest.length + 1) c
  if text.isEmpty then none else some (text, c)

/-- Reads the name and the arguments of a directive. -/
def readDirective? (c : Cursor) : Option (Token × Cursor) := do
  let name := c.rest.takeWhile isNameChar
  let c := c.skip name.length
  if name = "YAML".toList ∧ blankOrEnd c.rest then
    let (major, c) ← readNumber? (c.skipWhile isBlank)
    if !c.sees '.' then none
    else
      let (minor, c) ← readNumber? (c.skip 1)
      some (.version major minor, c)
  else if name = "TAG".toList ∧ blankOrEnd c.rest then
    let (handle, c) ← readHandle? true (c.skipWhile isBlank)
    if !c.seesIn isBlank then none
    else
      let (start, c) ← readTag? true (c.skipWhile isBlank)
      if blankOrEnd c.rest then some (.tagPrefix handle start, c) else none
  else none

/-- Adds the token of a directive and passes over the rest of its line. -/
def directive? (s : Scanner) : Option Scanner := do
  let s ← s.leaveBlocks?
  let (t, c) ← readDirective? (s.cursor.skip 1)
  let c := c.skipWhile isBlank
  let c := if c.sees '#' then c.skipWhile (fun x => !isBreak x) else c
  if breakOrEnd c.rest then some { s.emit t with cursor := c.takeBreak.2 } else none

/-! ## Collections -/

/-- Opens a flow collection. -/
def openFlow? (s : Scanner) (t : Token) : Option Scanner := do
  let s ← s.saveKey?
  some { s.take 1 t with
    enclosing := s.possible :: s.enclosing, possible := none, keyAllowed := true }

/-- Closes a flow collection. -/
def closeFlow? (s : Scanner) (t : Token) : Option Scanner := do
  let s ← s.dropKey?
  let s := match s.enclosing with
    | next :: rest => { s with possible := next, enclosing := rest }
    | [] => s
  some { s.take 1 t with keyAllowed := false }

/-- Adds the token between the entries of a flow collection. -/
def flowEntry? (s : Scanner) : Option Scanner := do
  let s ← s.dropKey?
  some { s.take 1 .flowEntry with keyAllowed := true }

/-- Adds the token of a block entry, opening a block sequence if none is open there. -/
def blockEntry? (s : Scanner) : Option Scanner := do
  if !s.inFlow && !s.keyAllowed then none
  else
    let s ← (s.roll s.cursor.column s.tokens.length .blockSequence).dropKey?
    some { s.take 1 .blockEntry with keyAllowed := true }

/-- Adds the token of an explicit key. -/
def readKey? (s : Scanner) : Option Scanner := do
  if !s.inFlow && !s.keyAllowed then none
  else
    let s ← (s.roll s.cursor.column s.tokens.length .blockMapping).dropKey?
    some { s.take 1 .key with keyAllowed := !s.inFlow }

/-- Adds the token of a value. If a key may have begun before, it has, and its tokens are put in front
of it. -/
def readValue? (s : Scanner) : Option Scanner :=
  match s.possible with
  | some k =>
    let s := (s.emitAt k.number .key).roll k.column k.number .blockMapping
    some { s.take 1 .value with possible := none, keyAllowed := false }
  | none =>
    if !s.inFlow && !s.keyAllowed then none
    else
      let s := s.roll s.cursor.column s.tokens.length .blockMapping
      some { s.take 1 .value with keyAllowed := !s.inFlow }

/-! ## Nodes -/

/-- Reads the name of an anchor or an alias. -/
def readName? (c : Cursor) : Option (List Char × Cursor) :=
  let name := c.rest.takeWhile isNameChar
  let c := c.skip name.length
  if name.isEmpty then none
  else if blankOrEnd c.rest || c.seesIn (fun x => "?:,]\x7d%@`".toList.contains x) then some (name, c)
  else none

/-- Adds the token of an anchor or an alias. -/
def anchor? (s : Scanner) (token : List Char → Token) : Option Scanner := do
  let s ← s.saveKey?
  let (name, c) ← readName? (s.cursor.skip 1)
  some { s.emit (token name) with cursor := c, keyAllowed := false }

/-- Reads a tag: written out between angle brackets, with a handle, or local. The lone exclamation
mark has no handle. -/
def readTagToken? (c : Cursor) : Option (Token × Cursor) :=
  if (c.skip 1).sees '<' then do
    let (suffix, c) ← readTag? true (c.skip 2)
    if c.sees '>' then some (.tag [] suffix, c.skip 1) else none
  else do
    let (handle, afterHandle) ← readHandle? false c
    if 2 ≤ handle.length ∧ handle.getLast? = some '!' then
      let (suffix, c) ← readTag? false afterHandle
      some (.tag handle suffix, c)
    else
      let (more, c) ← readTagText? false (c.rest.length + 1) afterHandle
      let suffix := handle.drop 1 ++ more
      if suffix.isEmpty then some (.tag [] ['!'], c) else some (.tag ['!'] suffix, c)

/-- Adds the token of a tag. -/
def tag? (s : Scanner) : Option Scanner := do
  let s ← s.saveKey?
  let (t, c) ← readTagToken? s.cursor
  if blankOrEnd c.rest || (s.inFlow && c.sees ',') then
    some { s.emit t with cursor := c, keyAllowed := false }
  else none

/-- Adds the token of a block scalar. -/
def block? (s : Scanner) (literal : Bool) : Option Scanner := do
  let s ← s.dropKey?
  let (text, c) ← readBlock? literal s.indent (s.cursor.skip 1)
  some { s.emit (.scalar false text) with cursor := c, keyAllowed := true }

/-- Adds the token of a scalar in quotes. -/
def quoted? (s : Scanner) (double : Bool) : Option Scanner := do
  let s ← s.saveKey?
  let (text, c) ← readQuoted? double (s.cursor.rest.length + 1) [] (s.cursor.skip 1)
  some { s.emit (.scalar false text) with cursor := c, keyAllowed := false }

/-- Adds the token of a plain scalar. If it ends after a line break, a key may follow. -/
def plain? (s : Scanner) : Option Scanner := do
  let s ← s.saveKey?
  let (text, broken, c) ←
    readPlain? s.inFlow (s.indent + 1) (s.cursor.rest.length + 1) [] Gap.none s.cursor
  some { s.emit (.scalar true text) with cursor := c, keyAllowed := broken }

/-- Whether a plain scalar may begin here. -/
def startsPlain (s : Scanner) : Bool :=
  match s.cursor.rest with
  | [] => false
  | c :: rest =>
    !(isBlank c || isBreak c || "-?:,[]\x7b\x7d#&*!|>'\"%@`".toList.contains c)
      || (c == '-' && !(rest.head?.any isBlank))
      || (!s.inFlow && (c == '?' || c == ':') && !blankOrEnd rest)

/-- Adds the token that begins with the next character. -/
def next? (s : Scanner) : Option Scanner :=
  let c := s.cursor
  let after := c.rest.drop 1
  if c.column = 0 ∧ c.sees '%' then s.directive?
  else if c.atDocumentMark then do
    let s ← s.leaveBlocks?
    some (s.take 3 (if c.sees '-' then .documentStart else .documentEnd))
  else if c.sees '[' then s.openFlow? .flowSequence
  else if c.sees '\x7b' then s.openFlow? .flowMapping
  else if c.sees ']' then s.closeFlow? .flowSequenceEnd
  else if c.sees '\x7d' then s.closeFlow? .flowMappingEnd
  else if c.sees ',' then s.flowEntry?
  else if c.sees '-' && blankOrEnd after then s.blockEntry?
  else if c.sees '?' && (s.inFlow || blankOrEnd after) then s.readKey?
  else if c.sees ':' && (s.inFlow || blankOrEnd after) then s.readValue?
  else if c.sees '*' then s.anchor? .alias
  else if c.sees '&' then s.anchor? .anchor
  else if c.sees '!' then s.tag?
  else if c.sees '|' && !s.inFlow then s.block? true
  else if c.sees '>' && !s.inFlow then s.block? false
  else if c.sees '\'' then s.quoted? false
  else if c.sees '"' then s.quoted? true
  else if s.startsPlain then s.plain?
  else none

/-- Scans to the end of the text; each of the `steps` adds the tokens of one place. -/
def run? : (steps : Nat) → Scanner → Option Scanner
  | 0, _ => none
  | steps + 1, s => do
    let s := toNextToken (s.cursor.rest.length + 1) s
    let s ← s.freshKeys?
    let s := unroll s.cursor.column s.outer s
    if s.cursor.rest.isEmpty then
      (unroll (-1) s.outer s).dropKey?
    else run? steps (← s.next?)

end Scanner

/-- The tokens of a text. -/
def tokens? (text : List Char) : Option (List Token) :=
  if text.all isPermitted then
    ((Scanner.start text).run? (text.length + 1)).map fun s => s.tokens.reverse
  else none

end AuditTrail.Yaml
