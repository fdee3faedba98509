/-!
# Failures

A verification that finds faults has succeeded in verifying; its faults are findings
(`AuditTrail.Report`). A failure is what keeps a stage, or the whole run, from taking place at all.
-/

namespace AuditTrail

/-- What keeps a stage from running. -/
inductive Failure
  /-- A DID has no document. -/
  | didResolution (did reason : String)
  /-- A request got no response. -/
  | transport (url reason : String)
  /-- An entry id is no protocol identity. -/
  | malformedIdentity (id reason : String)
  /-- The audit document cannot be read. -/
  | auditSource (source reason : String)
  /-- A setting is missing or out of range. -/
  | config (reason : String)
  /-- A key or a signature cannot be interpreted. -/
  | signature (reason : String)
  /-- The replay cannot proceed. -/
  | replay (reason : String)
  /-- The run was cancelled. -/
  | cancelled
  deriving DecidableEq, Repr

/-- The text of a failure. -/
def Failure.message : Failure → String
  | .didResolution did reason => "failed to resolve DID '" ++ did ++ "': " ++ reason
  | .transport url reason => "request to " ++ url ++ " failed: " ++ reason
  | .malformedIdentity id reason => "malformed protocol identity '" ++ id ++ "': " ++ reason
  | .auditSource source reason => "cannot load audit from '" ++ source ++ "': " ++ reason
  | .config reason => "configuration error: " ++ reason
  | .signature reason => "signature error: " ++ reason
  | .replay reason => "replay error: " ++ reason
  | .cancelled => "operation cancelled"

end AuditTrail
