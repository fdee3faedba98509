import AuditTrail.Json.Tree

/-!
# JSON texts over several lines

The layout for readers: every item and member on a line of its own, indented by two spaces for each
container around it. It says the same as the text without white space.
-/

namespace AuditTrail.Json.Tree

/-- A line break and the spaces in front of what stands inside `depth` containers. -/
def newLine (depth : Nat) : List Char := '\n' :: List.replicate (2 * depth) ' '

mutual

/-- The text of a tree inside `depth` containers. -/
def prettyChars (depth : Nat) : Tree → List Char
  | .array (t :: rest) =>
    '[' :: (newLine (depth + 1) ++ prettyChars (depth + 1) t ++ prettyItems depth rest)
  | .object ((name, t) :: rest) =>
    '\x7b' :: (newLine (depth + 1) ++ quoted name ++ [':', ' '] ++ prettyChars (depth + 1) t
      ++ prettyMembers depth rest)
  | .array [] => ['[', ']']
  | .object [] => ['\x7b', '\x7d']
  | .null => "null".toList
  | .bool true => "true".toList
  | .bool false => "false".toList
  | .number n => n.chars
  | .string s => quoted s
termination_by structural t => t

/-- The items after the first, with the closing bracket. -/
def prettyItems (depth : Nat) : List Tree → List Char
  | [] => newLine depth ++ [']']
  | t :: rest =>
    ',' :: (newLine (depth + 1) ++ prettyChars (depth + 1) t ++ prettyItems depth rest)
termination_by structural t => t

/-- The members after the first, with the closing brace. -/
def prettyMembers (depth : Nat) : List (Option String × Tree) → List Char
  | [] => newLine depth ++ ['\x7d']
  | (name, t) :: rest =>
    ',' :: (newLine (depth + 1) ++ quoted name ++ [':', ' '] ++ prettyChars (depth + 1) t
      ++ prettyMembers depth rest)
termination_by structural t => t

end

/-- The text of a tree over several lines. -/
def pretty (t : Tree) : String := String.ofList (prettyChars 0 t)

end AuditTrail.Json.Tree
