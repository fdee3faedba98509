/-!
# Things by name

Finite tables from names to things: a list in the order of the names, each name once. The order of
names is the one of their code points, which is the order of their UTF-8 octets. It is what is shown
wherever a table is written down.
-/

namespace AuditTrail

/-- Things by name, in the order of the names. -/
abbrev ByName (α : Type) := List (String × α)

namespace ByName

variable {α : Type}

/-- The thing of a name. -/
def find? (name : String) (table : ByName α) : Option α := table.lookup name

/-- Whether a name occurs. -/
def has (name : String) (table : ByName α) : Bool := table.any fun entry => entry.1 == name

/-- The names that occur. -/
def names (table : ByName α) : List String := table.map Prod.fst

/-- Gives a name a thing, in place of the one it may have had. -/
def insert (name : String) (thing : α) : ByName α → ByName α
  | [] => [(name, thing)]
  | (n, a) :: rest =>
    if name < n then (name, thing) :: (n, a) :: rest
    else if name = n then (name, thing) :: rest
    else (n, a) :: insert name thing rest

/-- A table from entries in any order; of several things of one name the last stays. -/
def ofList (entries : List (String × α)) : ByName α :=
  entries.foldl (fun table entry => insert entry.1 entry.2 table) []

/-- Whether the names are in strictly increasing order. -/
def Sorted (table : ByName α) : Prop := table.Pairwise fun a b => a.1 < b.1

end ByName

end AuditTrail
