import AuditTrail.Text.Blank
import AuditTrail.Json.Record

/-!
# Protocol identities

Every entry of an audit log carries an id of the form
`urn:npl:{host}/npl/{package}/{protocol}/{uuid}`, with an optional `#` and the index of the entry.
The package may span several segments. `Identity.parse` reads such an id and says what is wrong
with any other text; `Identity.display` writes the normal form that all spellings of one identity
share.
-/

namespace AuditTrail

open Json.Tree (required? orElse? nullable? text? bool? natural? list?)

/-! ## Numbers in ids -/

/-- The digits of a text that consists of digits only and has at least one. -/
def Number.allDigits? (text : List Char) : Option (List Number.Digit) :=
  match Number.spanDigits text with
  | ([], _) => none
  | (ds, []) => some ds
  | _ => none

/-- Reads a natural number below `2 ^ 64`: digits, with an optional plus sign in front. -/
def Number.natural64? (text : List Char) : Option Nat := do
  let digits ← Number.allDigits? (if text.head? = some '+' then text.drop 1 else text)
  let n := Number.valueOf digits
  if n ≤ 18446744073709551615 then some n else none

/-! ## Instance ids -/

/-- The id of a protocol instance: thirty-two hexadecimal digits. -/
structure Uuid where
  digits : List (Fin 16)
  length_digits : digits.length = 32
  deriving DecidableEq

namespace Uuid

/-- The hexadecimal digit of a character. -/
def digit? (c : Char) : Option (Fin 16) := do
  let v ← Bytes.hexValue? c
  if h : v < 16 then some ⟨v, h⟩ else none

/-- Reads thirty-two hexadecimal digits. -/
def ofDigitChars? (text : List Char) : Option Uuid := do
  let digits ← text.mapM digit?
  if h : digits.length = 32 then some ⟨digits, h⟩ else none

/-- Reads groups of eight, four, four, four and twelve digits with hyphens between them. -/
def ofHyphenated? (text : List Char) : Option Uuid :=
  match Text.piecesAt '-' text with
  | [a, b, c, d, e] =>
    if [a, b, c, d, e].map List.length = [8, 4, 4, 4, 12] then ofDigitChars? (a ++ b ++ c ++ d ++ e)
    else none
  | _ => none

/-- Reads an instance id in one of its four spellings: digits alone, hyphenated, hyphenated in
braces, hyphenated after `urn:uuid:`. Letters may be of either case throughout. -/
def parse? (text : List Char) : Option Uuid :=
  if text.length = 32 then ofDigitChars? text
  else if text.length = 36 then ofHyphenated? text
  else if text.length = 38 then
    if text.head? = some '\x7b' ∧ text.getLast? = some '\x7d' then ofHyphenated? (text.drop 1).dropLast
    else none
  else if text.length = 45 then
    if (text.take 9).map Text.lowerAscii = "urn:uuid:".toList then ofHyphenated? (text.drop 9)
    else none
  else none

/-- The digits from one place on, as small letters and figures. -/
def group (u : Uuid) (start length : Nat) : List Char :=
  ((u.digits.drop start).take length).map fun d => Bytes.hexDigit d.val

/-- The hyphenated form with small letters. -/
def chars (u : Uuid) : List Char :=
  Text.joinWith '-' [u.group 0 8, u.group 8 4, u.group 12 4, u.group 16 4, u.group 20 12]

/-- The hyphenated text with small letters. -/
def display (u : Uuid) : String := String.ofList u.chars

end Uuid

/-! ## Identities -/

/-- One protocol instance: where it lives, what it is an instance of, and which one it is. -/
structure Identity where
  host : String
  packagePath : String
  protocolName : String
  protocolId : Uuid
  /-- The entry that the id names, if it names one. -/
  index : Option Nat
  deriving DecidableEq

namespace Identity

/-- What keeps a text from being an identity. -/
inductive Fault
  | missingUrn
  | fragmentNotAnIndex
  | tooFewSegments
  | emptySegment
  | missingNpl
  | malformedUuid
  deriving DecidableEq, Repr

/-- The text of a fault. -/
def Fault.reason : Fault → String
  | .missingUrn => "expected 'urn:npl:' prefix"
  | .fragmentNotAnIndex => "fragment is not an entry index"
  | .tooFewSegments => "expected \x7bhost\x7d/npl/\x7bpackage\x7d/\x7bprotocol\x7d/\x7buuid\x7d"
  | .emptySegment => "empty path segment"
  | .missingNpl => "expected 'npl' after host"
  | .malformedUuid => "invalid protocol uuid: not one of the four spellings of a uuid"

/-- What every identity starts with. -/
def urn : String := "urn:npl:"

/-- Reads the part between the start and the fragment. -/
def ofPath (path : List Char) (index : Option Nat) : Except Fault Identity :=
  let segments := Text.piecesAt '/' path
  if segments.length < 5 then .error .tooFewSegments
  else if segments.any List.isEmpty then .error .emptySegment
  else
    match segments with
    | host :: npl :: rest =>
      if npl ≠ "npl".toList then .error .missingNpl
      else
        let package := rest.take (rest.length - 2)
        match rest.drop (rest.length - 2) with
        | [name, uuid] =>
          match Uuid.parse? uuid with
          | some id =>
            .ok ⟨String.ofList host, String.ofList (Text.joinWith '/' package), String.ofList name,
              id, index⟩
          | none => .error .malformedUuid
        | _ => .error .tooFewSegments
    | _ => .error .tooFewSegments

/-- Reads an entry id. The fragment is looked at before the path. -/
def parse (id : String) : Except Fault Identity :=
  match Text.dropStart? urn.toList id.toList with
  | none => .error .missingUrn
  | some rest =>
    match Text.cutAt? '#' rest with
    | none => ofPath rest none
    | some (path, fragment) =>
      match Number.natural64? fragment with
      | some index => ofPath path (some index)
      | none => .error .fragmentNotAnIndex

/-- The route under which a runtime serves the protocol. -/
def route (i : Identity) : String := "/npl/" ++ i.packagePath ++ "/" ++ i.protocolName

/-- The normal form of an id. -/
def display (i : Identity) : String :=
  urn ++ i.host ++ i.route ++ "/" ++ i.protocolId.display ++
    match i.index with
    | some n => "#" ++ Number.decimal n
    | none => ""

/-- The fields of an identity, in order. -/
def fieldNames : List String := ["host", "package_path", "protocol_name", "protocol_id", "index"]

/-- The tree of an identity. -/
def tree (i : Identity) : Json.Tree :=
  .ofFields [
    ("host", .ofText i.host),
    ("package_path", .ofText i.packagePath),
    ("protocol_name", .ofText i.protocolName),
    ("protocol_id", .ofText i.protocolId.display),
    ("index", match i.index with
      | some n => .ofNat n
      | none => .null)]

/-- Reads an identity. All fields are required but the index, and an array has all five. -/
def ofTree? (room : Nat) (t : Json.Tree) : Option Identity := do
  let complete := match t with
    | .array items => items.length == 5
    | _ => true
  if !complete then none
  else
    let (_, field) ← t.record? fieldNames room
    let host ← required? text? (field "host")
    let packagePath ← required? text? (field "package_path")
    let protocolName ← required? text? (field "protocol_name")
    let protocolId ← Uuid.parse? (← required? text? (field "protocol_id")).toList
    let index ← orElse? none (nullable? natural?) (field "index")
    some ⟨host, packagePath, protocolName, protocolId, index⟩

end Identity

end AuditTrail
