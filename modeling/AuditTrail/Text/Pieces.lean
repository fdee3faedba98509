/-!
# Cutting and joining texts

The grammars of this library (identifiers, signatures, paths, party lists) are all given by
separators. The functions here cut a list of characters at a separator, put pieces together again,
and replace occurrences of one text by another.
-/

namespace AuditTrail.Text

/-- The part before the first `sep` and the part after it; `none` if `sep` does not occur. -/
def cutAt? (sep : Char) : List Char → Option (List Char × List Char)
  | [] => none
  | c :: rest =>
    if c = sep then some ([], rest)
    else (cutAt? sep rest).map fun (before, after) => (c :: before, after)

/-- The part before the first `sep`, or the whole text. -/
def before (sep : Char) (text : List Char) : List Char := text.takeWhile (· != sep)

/-- The pieces between the characters that satisfy `isSep`; always at least one. -/
def pieces (isSep : Char → Bool) : List Char → List (List Char)
  | [] => [[]]
  | c :: rest =>
    if isSep c then [] :: pieces isSep rest
    else
      match pieces isSep rest with
      | piece :: more => (c :: piece) :: more
      | [] => [[c]]

/-- The pieces between the occurrences of one character. -/
def piecesAt (sep : Char) (text : List Char) : List (List Char) := pieces (· == sep) text

/-- Pieces with a separator between them. -/
def joinWith (sep : Char) (parts : List (List Char)) : List Char := [sep].intercalate parts

/-- What follows `start` in a text that begins with it. -/
def dropStart? : (start text : List Char) → Option (List Char)
  | [], text => some text
  | _ :: _, [] => none
  | s :: start, c :: text => if s = c then dropStart? start text else none

/-- Whether a text begins with another. -/
def startsWith (start text : List Char) : Bool := (dropStart? start text).isSome

/-- A text without the characters at its end that satisfy `p`. -/
def trimEnd (p : Char → Bool) (text : List Char) : List Char :=
  (text.reverse.dropWhile p).reverse

/-- A text without the characters at either end that satisfy `p`. -/
def trim (p : Char → Bool) (text : List Char) : List Char := trimEnd p (text.dropWhile p)

/-- Replaces the occurrences of `old`, a text that is not empty, from left to right; `skip` counts
the characters of the last occurrence that are still to be passed over. -/
def replaceFrom (old new : List Char) : (skip : Nat) → List Char → List Char
  | _, [] => []
  | skip + 1, _ :: rest => replaceFrom old new skip rest
  | 0, c :: rest =>
    if startsWith old (c :: rest) then new ++ replaceFrom old new (old.length - 1) rest
    else c :: replaceFrom old new 0 rest

/-- Replaces every occurrence of `old` by `new`, from left to right and without overlap. The empty
text occurs before every character and at the end. -/
def replaceAll (old new text : List Char) : List Char :=
  match old with
  | [] => new ++ text.flatMap fun c => c :: new
  | _ => replaceFrom old new 0 text

/-- Whether one list stands before another, or is the same, when they are compared item by item. A
list stands before the longer lists that begin with it. -/
def lexLe {α : Type} (lt : α → α → Bool) : List α → List α → Bool
  | [], _ => true
  | _ :: _, [] => false
  | a :: as, b :: bs => lt a b || (!lt b a && lexLe lt as bs)

end AuditTrail.Text
