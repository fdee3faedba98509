import AuditTrail.Files.Tree
import AuditTrail.Text.Blank
import AuditTrail.Text.WordChars

/-!
# Which party most likely owns an action

Protocol sources declare who may do what: `protocol[issuer, payee] Iou(` and
`permission[payee | issuer] pay(`. A scan of the sources for such declarations yields for each name
the first party declared for it. The result only orders the attempts to authorize a call.

`Declaration.readAt?` is the grammar of one declaration, and `declarations` finds those of a text from
left to right without overlap.
-/

namespace AuditTrail.Replay

/-- A declaration in a source: what stands between the brackets, and the declared name. -/
structure Declaration where
  parties : List Char
  name : String
  deriving DecidableEq, Repr

/-- The words that declare protocols. -/
def protocolWords : List String := ["protocol"]

/-- The words that declare actions. -/
def actionWords : List String := ["permission", "obligation"]

/-- A text without the white space in front. -/
def dropWhite (text : List Char) : List Char := text.dropWhile Text.isWhiteSpace

/-- A letter of the English alphabet or an underscore. -/
def isNameStart (c : Char) : Bool :=
  ('a' ≤ c && c ≤ 'z') || ('A' ≤ c && c ≤ 'Z') || c == '_'

/-- A character of a name after the first one. -/
def isNamePart (c : Char) : Bool := isNameStart c || ('0' ≤ c && c ≤ '9')

namespace Declaration

/-- Reads a declaration after its word: brackets with anything but a closing one between them, a name,
and an opening parenthesis, with white space in between. Returns what follows, too. -/
def readAfterWord? (text : List Char) : Option (Declaration × List Char) :=
  match dropWhite text with
  | '[' :: rest =>
    let parties := (dropWhite rest).takeWhile (· != ']')
    match (dropWhite rest).drop parties.length with
    | ']' :: rest =>
      let rest := dropWhite rest
      if rest.head?.any isNameStart then
        let name := rest.takeWhile isNamePart
        match dropWhite (rest.drop name.length) with
        | '(' :: rest => some (⟨parties, String.ofList name⟩, rest)
        | _ => none
      else none
    | _ => none
  | _ => none

/-- Reads a declaration at the start of a text. -/
def readAt? (words : List String) (text : List Char) : Option (Declaration × List Char) :=
  words.findSome? fun word => (Text.dropStart? word.toList text).bind readAfterWord?

/-- The first party of a declaration that is not blank. -/
def firstParty? (d : Declaration) : Option String :=
  ((Text.pieces (fun c => c == '|' || c == ',') d.parties).map Text.trimmed).find?
    (fun party => !party.isEmpty) |>.map String.ofList

end Declaration

/-- The declarations in a text, whose words must not continue another word. A declaration takes at
least one character, so `steps` above the length of the text is enough. -/
def declarationsFrom (words : List String) : (steps : Nat) → (inWord : Bool) → List Char →
    List Declaration
  | 0, _, _ => []
  | _, _, [] => []
  | steps + 1, inWord, c :: rest =>
    match if inWord then none else Declaration.readAt? words (c :: rest) with
    | some (d, after) => d :: declarationsFrom words steps false after
    | none => declarationsFrom words steps (Text.isWordChar c) rest

/-- The declarations in a text, from left to right. -/
def declarations (words : List String) (text : String) : List Declaration :=
  declarationsFrom words (text.toList.length + 1) false text.toList

/-- The declared names of a text that have a party, with the first one. -/
def declaredParties (words : List String) (text : String) : List (String × String) :=
  (declarations words text).filterMap fun d => d.firstParty?.map fun party => (d.name, party)

/-- The parties declared for protocols and actions, in the order of the declarations. -/
structure PartyHints where
  constructors : List (String × String)
  actions : List (String × String)
  deriving DecidableEq, Repr

namespace PartyHints

/-- No hints. -/
def none : PartyHints := ⟨[], []⟩

/-- Adds the declarations of a text after those that are there. -/
def addSource (hints : PartyHints) (text : String) : PartyHints :=
  ⟨hints.constructors ++ declaredParties protocolWords text,
    hints.actions ++ declaredParties actionWords text⟩

/-- The party of a protocol: the one of its first declaration. -/
def forConstructor? (hints : PartyHints) (name : String) : Option String :=
  hints.constructors.lookup name

/-- The party of an action: the one of its first declaration. -/
def forAction? (hints : PartyHints) (name : String) : Option String := hints.actions.lookup name

end PartyHints

/-! ## Source files -/

/-- What the names of source files end in. A name that is nothing but that is no source file. -/
def sourceEnding : String := ".npl"

/-- Whether a file with a name is a source. -/
def isSourceName (name : List Char) : Bool :=
  Text.startsWith sourceEnding.toList.reverse name.reverse && sourceEnding.length < name.length

end AuditTrail.Replay

namespace AuditTrail

open Replay

mutual

/-- The source files in a directory tree with a name, by the names that lead to them. -/
def FileTree.sources (name : String) : FileTree → List (List String × Bytes)
  | .file content => if isSourceName name.toList then [([], content)] else []
  | .directory entries => entrySources entries
termination_by structural t => t

/-- The source files below the entries of a directory. -/
def FileTree.entrySources : List (String × FileTree) → List (List String × Bytes)
  | [] => []
  | (name, t) :: rest =>
    ((FileTree.sources name t).map fun (names, content) => (name :: names, content))
      ++ entrySources rest
termination_by structural es => es

end

/-- The texts of the source files at a path and below it, in the order of their paths. -/
def Workspace.sourceTexts (w : Workspace) (p : Path) : List String :=
  match w.at? p with
  | .ok t =>
    let found := FileTree.sources (String.ofList (p.pieces.getLast?.getD [])) t
    let sorted := found.mergeSort fun a b => Text.lexLe (fun x y => decide (x < y)) a.1 b.1
    sorted.filterMap fun (_, content) => content.toString?
  | .error _ => []

/-- The hints in the source files at a path and below it. -/
def Replay.PartyHints.scan (w : Workspace) (p : Path) : Replay.PartyHints :=
  (w.sourceTexts p).foldl Replay.PartyHints.addSource .none

end AuditTrail
