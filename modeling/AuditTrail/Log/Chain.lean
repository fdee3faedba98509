import AuditTrail.Log.Commitment
import AuditTrail.Report

/-!
# The chain of hashes

The first entry has no previous hash, every other one repeats the hash of the entry before it, and
the last entry records the hash of the final state. The two checks here recompute the digests and
report every link that does not hold.
-/

namespace AuditTrail

/-- The fault of the link at one entry: what its previous hash should have been and is not. -/
inductive LinkFault
  /-- The first entry has a previous hash. -/
  | unexpected (found : String)
  /-- A later entry has another previous hash than the one expected, or none. -/
  | mismatch (expected : String) (actual : Option String)
  deriving DecidableEq, Repr

/-- The fault of an entry's link to the one before it, if it has one. -/
def linkFault? (previous : Option Entry) (e : Entry) : Option LinkFault :=
  match previous with
  | none => e.previousHash.map .unexpected
  | some p => if e.previousHash = some p.hash then none else some (.mismatch p.hash e.previousHash)

/-- The text of the fault of entry number `index`. -/
def LinkFault.message (index : Nat) (e : Entry) : LinkFault → String
  | .unexpected found =>
    "entry 0 (" ++ e.id ++ "): previousHash must be null for the first entry, found " ++ found
  | .mismatch expected actual =>
    "entry " ++ Number.decimal index ++ " (" ++ e.id ++ "): previousHash mismatch: expected " ++ expected
      ++ ", actual " ++ actual.getD "null"

/-- The faulty links among entries that follow `previous`, with their indices from `index` on. -/
def linkFaultsFrom (index : Nat) (previous : Option Entry) : List Entry → List (Nat × Entry × LinkFault)
  | [] => []
  | e :: rest =>
    (match linkFault? previous e with
      | some fault => [(index, e, fault)]
      | none => [])
    ++ linkFaultsFrom (index + 1) (some e) rest

/-- The findings on the links between entries. -/
def chainFindings (entries : List Entry) : List Finding :=
  (linkFaultsFrom 0 none entries).map fun (index, e, fault) =>
    ⟨.hashChain, fault.message index e⟩

/-- The findings on the final state: none for a log without entries. -/
def stateFindings (log : Log) : List Finding :=
  match log.last? with
  | none => []
  | some last =>
    let computed := canonicalHash log.state
    if computed = last.stateHash then []
    else
      [⟨.stateHash,
        "final state hash mismatch: state hashes to " ++ computed ++ ", but entry "
          ++ Number.decimal (log.entries.length - 1) ++ " (" ++ last.id ++ ") records "
          ++ last.stateHash⟩]

end AuditTrail
