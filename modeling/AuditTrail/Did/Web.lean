import AuditTrail.Failure
import AuditTrail.Text.Percent
import AuditTrail.Text.Pieces

/-!
# Where the document of a DID is published

A DID of the method `web` names a host and a path, with colons between the segments and percent
escapes inside them. `location` gives the URL of its document. A fragment plays no part.
-/

namespace AuditTrail.Did

/-- What keeps a DID from having a location. -/
inductive LocationFault
  /-- A method other than `web`. -/
  | unsupportedMethod (method : String)
  | segmentNotText (segment : String)
  | noHost
  | emptySegment
  deriving DecidableEq, Repr

/-- The text of a fault. -/
def LocationFault.reason : LocationFault → String
  | .unsupportedMethod method =>
    "unsupported DID method '" ++ method ++ "': only did:web is supported"
  | .segmentNotText segment =>
    "did:web segment '" ++ segment ++ "' is not valid UTF-8: not the encoding of a text"
  | .noHost => "did:web identifier has no host"
  | .emptySegment => "did:web identifier has an empty path segment"

/-- What DIDs of the method `web` start with. -/
def webStart : String := "did:web:"

/-- A segment with its escapes resolved, or the fault in it. -/
def decodeSegment (text : List Char) : Except LocationFault (List Char) :=
  match Percent.unescapedText? text with
  | some decoded => .ok decoded
  | none => .error (.segmentNotText (String.ofList text))

/-- The host and the path of a DID. An empty host is noticed before the path is looked at, and a
segment that is no text before one that is empty. -/
def hostAndPath (did : List Char) : Except LocationFault (List Char × List (List Char)) :=
  let bare := Text.before '#' did
  match Text.dropStart? webStart.toList bare with
  | none =>
    .error (.unsupportedMethod (String.ofList ((Text.piecesAt ':' bare).getD 1 [])))
  | some rest =>
    match Text.piecesAt ':' rest with
    | [] => .error .noHost
    | first :: others => do
      let host ← decodeSegment first
      if host.isEmpty then .error .noHost
      else
        let path ← others.mapM decodeSegment
        if path.any List.isEmpty then .error .emptySegment else .ok (host, path)

/-- How documents are fetched: the scheme of their URLs, and a host to ask in place of the one that a
DID names. -/
structure Settings where
  scheme : String
  hostOverride : Option String
  deriving DecidableEq, Repr

/-- The URL of the document of a DID. -/
def location (settings : Settings) (did : String) : Except LocationFault String := do
  let (host, path) ← hostAndPath did.toList
  let authority := settings.hostOverride.getD (String.ofList host)
  let start := settings.scheme ++ "://" ++ authority
  if path.isEmpty then .ok (start ++ "/.well-known/did.json")
  else .ok (start ++ "/" ++ String.ofList (Text.joinWith '/' path) ++ "/did.json")

/-- The failure of a DID that a fault causes. -/
def LocationFault.failure (did : String) (f : LocationFault) : Failure := .didResolution did f.reason

end AuditTrail.Did
