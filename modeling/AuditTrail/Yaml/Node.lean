import AuditTrail.Yaml.Token

/-!
# Nodes

What a document says: scalars, sequences and mappings. An alias refers to a node with an anchor by
number, so that a node may even contain itself; `Document.deref` follows one. A text holds at most one
document (`Document.read?`).
-/

namespace AuditTrail.Yaml

/-- A node of a document. -/
inductive Node
  | scalar (tag : Option String) (plain : Bool) (text : String)
  | sequence (items : List Node)
  | mapping (entries : List (Node × Node))
  /-- The node with an anchor, by the number of the anchor. -/
  | alias (number : Nat)

/-- The scalar that stands for a node left out. -/
def Node.absent : Node := .scalar none true ""

/-- A document: its root, and the nodes with anchors. -/
structure Document where
  root : Node
  anchored : List (Nat × Node)

/-- The node itself, or the one that it refers to. -/
def Document.deref (d : Document) (n : Node) : Node :=
  match n with
  | .alias number => (d.anchored.lookup number).getD .absent
  | n => n

/-- How far the reading of nodes has come. -/
structure Composer where
  tokens : List Token
  /-- What the handles of tags stand for. -/
  prefixes : List (List Char × List Char)
  /-- The numbers of the anchors so far, the latest first. -/
  anchors : List (List Char × Nat)
  anchored : List (Nat × Node)
  count : Nat

/-- The handles that need no directive. -/
def standardPrefixes : List (List Char × List Char) :=
  [(['!'], ['!']), (['!', '!'], "tag:yaml.org,2002:".toList)]

/-- What stands in front of a node. -/
structure Properties where
  anchor : Option (List Char)
  tag : Option String

namespace Composer

/-- Passes over the next token. -/
def drop (s : Composer) : Composer := { s with tokens := s.tokens.drop 1 }

/-- The next token. -/
def peek? (s : Composer) : Option Token := s.tokens.head?

/-- Whether the next token is one of the given ones. -/
def seesOneOf (s : Composer) (ts : List Token) : Bool := s.peek?.any fun t => ts.contains t

/-- The full text of a tag, whose handle must be known. -/
def tagText? (s : Composer) (handle suffix : List Char) : Option String :=
  if handle.isEmpty then some (String.ofList suffix)
  else (s.prefixes.lookup handle).map fun start => String.ofList (start ++ suffix)

/-- Reads the anchor and the tag of a node, in either order. -/
def properties? (s : Composer) : Option (Properties × Composer) :=
  match s.tokens with
  | .anchor name :: .tag handle suffix :: rest => do
    some (⟨some name, some (← s.tagText? handle suffix)⟩, { s with tokens := rest })
  | .tag handle suffix :: .anchor name :: rest => do
    some (⟨some name, some (← s.tagText? handle suffix)⟩, { s with tokens := rest })
  | .anchor name :: rest => some (⟨some name, none⟩, { s with tokens := rest })
  | .tag handle suffix :: rest => do
    some (⟨none, some (← s.tagText? handle suffix)⟩, { s with tokens := rest })
  | _ => some (⟨none, none⟩, s)

/-- Gives the anchor of a node its number. -/
def register (s : Composer) (p : Properties) : Option Nat × Composer :=
  match p.anchor with
  | some name =>
    (some s.count, { s with anchors := (name, s.count) :: s.anchors, count := s.count + 1 })
  | none => (none, s)

/-- Keeps a finished node for its aliases. -/
def keep (number : Option Nat) (result : Node × Composer) : Node × Composer :=
  match number with
  | some n => (result.1, { result.2 with anchored := (n, result.1) :: result.2.anchored })
  | none => result

mutual

/-- Reads a node. In a block it may be a block collection, and as a key or value in a block mapping
also a sequence without indentation. -/
def node? : (steps : Nat) → (block indentless : Bool) → Composer → Option (Node × Composer)
  | 0, _, _, _ => none
  | steps + 1, block, indentless, s =>
    match s.tokens with
    | .alias name :: rest => do
      let number ← s.anchors.lookup name
      some (.alias number, { s with tokens := rest })
    | _ => do
      let (p, s) ← s.properties?
      let (number, s) := s.register p
      let result ← match s.tokens with
        | .scalar plain text :: rest =>
          some (.scalar (if p.tag = some "!" then none else p.tag) plain (String.ofList text),
            { s with tokens := rest })
        | .flowSequence :: rest => flowItems? steps true { s with tokens := rest }
        | .flowMapping :: rest => flowPairs? steps true { s with tokens := rest }
        | t :: rest =>
          if t = .blockEntry ∧ indentless then looseItems? steps s
          else if t = .blockSequence ∧ block then blockItems? steps { s with tokens := rest }
          else if t = .blockMapping ∧ block then blockPairs? steps { s with tokens := rest }
          else if p.anchor.isSome ∨ p.tag.isSome then some (.scalar p.tag true "", s)
          else none
        | [] =>
          if p.anchor.isSome ∨ p.tag.isSome then some (.scalar p.tag true "", s) else none
      some (keep number result)

/-- Reads a node unless one of the given tokens, or the end, shows that it is left out. -/
def nodeUnless? : (steps : Nat) → (block indentless : Bool) → (ends : List Token) → Composer →
    Option (Node × Composer)
  | 0, _, _, _, _ => none
  | steps + 1, block, indentless, ends, s =>
    if s.seesOneOf ends then some (.absent, s) else node? steps block indentless s

/-- Reads the items of a block sequence up to its end. -/
def blockItems? : (steps : Nat) → Composer → Option (Node × Composer)
  | 0, _ => none
  | steps + 1, s =>
    match s.peek? with
    | some .blockEnd => some (.sequence [], s.drop)
    | some .blockEntry => do
      let (item, s) ← nodeUnless? steps true false [.blockEntry, .blockEnd] s.drop
      match ← blockItems? steps s with
      | (.sequence items, s) => some (.sequence (item :: items), s)
      | _ => none
    | _ => none

/-- Reads the items of a sequence without indentation. -/
def looseItems? : (steps : Nat) → Composer → Option (Node × Composer)
  | 0, _ => none
  | steps + 1, s =>
    match s.peek? with
    | some .blockEntry => do
      let (item, s) ← nodeUnless? steps true false [.blockEntry, .key, .value, .blockEnd] s.drop
      match ← looseItems? steps s with
      | (.sequence items, s) => some (.sequence (item :: items), s)
      | _ => none
    | _ => some (.sequence [], s)

/-- Reads the entries of a block mapping up to its end. -/
def blockPairs? : (steps : Nat) → Composer → Option (Node × Composer)
  | 0, _ => none
  | steps + 1, s =>
    let ends : List Token := [.key, .value, .blockEnd]
    match s.peek? with
    | some .blockEnd => some (.mapping [], s.drop)
    | some .key => do
      let (key, s) ← nodeUnless? steps true true ends s.drop
      let (value, s) ←
        if s.peek? = some .value then nodeUnless? steps true true ends s.drop
        else some (.absent, s)
      match ← blockPairs? steps s with
      | (.mapping entries, s) => some (.mapping ((key, value) :: entries), s)
      | _ => none
    | some .value => do
      let (value, s) ← nodeUnless? steps true true ends s.drop
      match ← blockPairs? steps s with
      | (.mapping entries, s) => some (.mapping ((.absent, value) :: entries), s)
      | _ => none
    | _ => none

/-- Reads the items of a flow sequence up to its end. An item with a colon is a mapping of one
entry. -/
def flowItems? : (steps : Nat) → (first : Bool) → Composer → Option (Node × Composer)
  | 0, _, _ => none
  | steps + 1, first, s => do
    if s.peek? = some .flowSequenceEnd then some (.sequence [], s.drop)
    else if !first && s.peek? != some .flowEntry then none
    else
      let s := if first then s else s.drop
      match s.peek? with
      | some .flowSequenceEnd => some (.sequence [], s.drop)
      | t =>
        let (item, s) ←
          if t = some .key then flowPair? steps s.drop else node? steps false false s
        match ← flowItems? steps false s with
        | (.sequence items, s) => some (.sequence (item :: items), s)
        | _ => none

/-- Reads the one entry of a mapping inside a flow sequence, after the token of its key. The token
that shows a missing key is passed over. -/
def flowPair? : (steps : Nat) → Composer → Option (Node × Composer)
  | 0, _ => none
  | steps + 1, s => do
    let (key, s) ←
      if s.seesOneOf [.value, .flowEntry, .flowSequenceEnd] then some (.absent, s.drop)
      else node? steps false false s
    let (value, s) ←
      if s.peek? = some .value then
        nodeUnless? steps false false [.flowEntry, .flowSequenceEnd] s.drop
      else some (.absent, s)
    some (.mapping [(key, value)], s)

/-- Reads the entries of a flow mapping up to its end. -/
def flowPairs? : (steps : Nat) → (first : Bool) → Composer → Option (Node × Composer)
  | 0, _, _ => none
  | steps + 1, first, s => do
    if s.peek? = some .flowMappingEnd then some (.mapping [], s.drop)
    else if !first && s.peek? != some .flowEntry then none
    else
      let s := if first then s else s.drop
      match s.peek? with
      | some .flowMappingEnd => some (.mapping [], s.drop)
      | t =>
        let (entry, s) ←
          if t = some .key then do
            let (key, s) ←
              nodeUnless? steps false false [.value, .flowEntry, .flowMappingEnd] s.drop
            let (value, s) ←
              if s.peek? = some .value then
                nodeUnless? steps false false [.flowEntry, .flowMappingEnd] s.drop
              else some (.absent, s)
            some ((key, value), s)
          else do
            let (key, s) ← node? steps false false s
            some ((key, Node.absent), s)
        match ← flowPairs? steps false s with
        | (.mapping entries, s) => some (.mapping (entry :: entries), s)
        | _ => none

end

/-- Takes the directives in front of a document: at most one version, which must be known, and no
handle twice. -/
def directives? : (versionSeen : Bool) → (handles : List (List Char)) → List Token →
    Option (List (List Char × List Char) × List Token)
  | seen, handles, .version major minor :: rest =>
    if seen ∨ major ≠ 1 ∨ (minor ≠ 1 ∧ minor ≠ 2) then none else directives? true handles rest
  | seen, handles, .tagPrefix handle start :: rest =>
    if handles.contains handle then none
    else do
      let (more, rest) ← directives? seen (handle :: handles) rest
      some ((handle, start) :: more, rest)
  | _, _, tokens => some ([], tokens)

/-- Reads the root of a document, after its directives. -/
def root? (prefixes : List (List Char × List Char)) (tokens : List Token) :
    Option (Node × Composer) :=
  let s : Composer := ⟨tokens, prefixes ++ standardPrefixes, [], [], 0⟩
  node? (4 * tokens.length + 8) true false s

/-- What may follow the root: marks of the end of the document, and nothing else. -/
def ended (tokens : List Token) : Bool := tokens.all (· == .documentEnd)

/-- Whether a document that starts here has no content. -/
def isVoid (tokens : List Token) : Bool :=
  match tokens with
  | [] => true
  | .version _ _ :: _ => true
  | .tagPrefix _ _ :: _ => true
  | .documentStart :: _ => true
  | .documentEnd :: _ => true
  | _ => false

end Composer

/-- The document in a list of tokens. A stream without any token has an empty document too. -/
def Document.ofTokens? (tokens : List Token) : Option Document := do
  if tokens.isEmpty then some ⟨.absent, []⟩
  else
    let (prefixes, rest) ← Composer.directives? false [] tokens
    let (explicit, rest) := match rest with
      | .documentStart :: rest => (true, rest)
      | rest => (false, rest)
    if !explicit && tokens.length ≠ rest.length then none
    else if explicit && Composer.isVoid rest then
      if Composer.ended rest then some ⟨.absent, []⟩ else none
    else
      let (root, s) ← Composer.root? prefixes rest
      if Composer.ended s.tokens then some ⟨root, s.anchored⟩ else none

/-- Reads a text that holds one document. -/
def Document.read? (text : String) : Option Document := do
  Document.ofTokens? (← tokens? text.toList)

end AuditTrail.Yaml
