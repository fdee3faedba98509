import AuditTrail.Files.Tree
import AuditTrail.Http.Exchange
import AuditTrail.Log.Entry

/-!
# Where logs come from

An audit document is a file or is fetched over the network, and the text of its source says which.
Whatever goes wrong on the way is a failure of that source.
-/

namespace AuditTrail

namespace Log

/-- Whether a source is on the network. -/
def isRemote (source : String) : Bool :=
  Text.startsWith "http://".toList source.toList || Text.startsWith "https://".toList source.toList

/-- Reads the text of an audit document. -/
def parse (source text : String) : Except Failure Log :=
  match Log.ofText? text with
  | some log => .ok log
  | none => .error (.auditSource source "invalid audit JSON: not an audit document")

/-- The text in the reply to the request for an audit document. -/
def remoteText (source : String) (reply : Http.Reply) : Except Failure String :=
  match reply with
  | .error f => .error (.auditSource source f.message)
  | .ok response =>
    if response.isSuccess then .ok response.body
    else .error (.auditSource source ("HTTP " ++ Number.decimal response.status))

/-- The text of an audit document. -/
def textAt (w : Workspace) (source : String) : Http.Exchange (Except Failure String) :=
  if isRemote source then do
    let reply ← Http.Exchange.send (Http.Request.get source)
    pure (remoteText source reply)
  else
    pure ((w.readText (.ofString source)).mapError fun f => .auditSource source f.reason)

/-- Loads an audit document. -/
def load (w : Workspace) (source : String) : Http.Exchange (Except Failure Log) := do
  match ← textAt w source with
  | .ok text => pure (parse source text)
  | .error f => pure (.error f)

end Log

end AuditTrail
