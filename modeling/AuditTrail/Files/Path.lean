import AuditTrail.Text.Pieces

/-!
# Paths

A path as it is written: whether it starts at the root, and the pieces between its slashes. Empty
pieces, and single points other than the first piece, say nothing. The parent of a path is the path
without its last telling piece, whatever that piece is: going up is done on the text, not in a
directory tree, so the parent of `a/..` is `a`.
-/

namespace AuditTrail

/-- A path. -/
structure Path where
  absolute : Bool
  pieces : List (List Char)
  deriving DecidableEq, Repr

namespace Path

/-- The path that a text writes. -/
def ofChars : List Char → Path
  | '/' :: rest => ⟨true, Text.piecesAt '/' rest⟩
  | text => ⟨false, Text.piecesAt '/' text⟩

/-- The path that a text writes. -/
def ofString (text : String) : Path := ofChars text.toList

/-- The text of a path. -/
def text (p : Path) : String :=
  String.ofList ((if p.absolute then ['/'] else []) ++ Text.joinWith '/' p.pieces)

/-- Whether a piece says nothing where it stands. -/
def isIdle (piece : List Char) : Bool := piece.isEmpty || piece == ['.']

/-- Pieces without idle ones at the end. The first piece of a relative path always stays. -/
def trimmed (absolute : Bool) (pieces : List (List Char)) : List (List Char) :=
  if absolute then (pieces.reverse.dropWhile isIdle).reverse
  else
    match pieces with
    | [] => []
    | first :: rest => first :: (rest.reverse.dropWhile isIdle).reverse

/-- The path without its last telling piece, if it has one. -/
def parent? (p : Path) : Option Path :=
  match trimmed p.absolute p.pieces with
  | [] => none
  | pieces =>
    if !p.absolute && pieces == [[]] then none
    else some ⟨p.absolute, trimmed p.absolute pieces.dropLast⟩

/-- A path, its parent, the parent of that, and so on, at most `steps` times. -/
def ancestorsUpTo : (steps : Nat) → Path → List Path
  | 0, p => [p]
  | steps + 1, p =>
    p :: match p.parent? with
      | some parent => ancestorsUpTo steps parent
      | none => []

/-- A path, its parent, the parent of that, and so on. -/
def ancestors (p : Path) : List Path := ancestorsUpTo p.pieces.length p

/-- The path of something in a directory. -/
def child (p : Path) (name : String) : Path :=
  match p.pieces.reverse with
  | [] :: others => ⟨p.absolute, (name.toList :: others).reverse⟩
  | _ => ⟨p.absolute, p.pieces ++ [name.toList]⟩

end Path

end AuditTrail
