import AuditTrail.Url.Host

/-!
# URLs

Reading a URL brings it into the form in which clients use and show it (`Url.read?`, `Url.text`): the
scheme and the host in small letters, no service number that the scheme implies, dot segments
resolved, and escapes for what cannot stand in a URL as it is.
-/

namespace AuditTrail

/-- A URL in its normal form. -/
structure Url where
  scheme : List Char
  username : List Char
  password : List Char
  host : Option (List Char)
  /-- The number after the host, if it is not the usual one of the scheme. -/
  service : Option Nat
  path : List Char
  query : Option (List Char)
  fragment : Option (List Char)
  deriving DecidableEq, Repr

namespace Url

/-! ## Schemes -/

/-- The schemes whose URLs have a host and a path, with their usual service numbers. -/
def specialSchemes : List (String × Option Nat) :=
  [("http", some 80), ("https", some 443), ("ws", some 80), ("wss", some 443), ("ftp", some 21),
    ("file", none)]

/-- Whether a scheme is one of those. -/
def isSpecial (scheme : List Char) : Bool :=
  specialSchemes.any fun entry => entry.1.toList == scheme

/-- The usual service number of a scheme. -/
def usualService? (scheme : List Char) : Option Nat :=
  (specialSchemes.lookup (String.ofList scheme)).bind id

/-- Whether a character may stand in a scheme after the first one. -/
def isSchemeChar (c : Char) : Bool := c.isAlphanum || c == '+' || c == '-' || c == '.'

/-- Reads a scheme with its colon. -/
def readScheme? (text : List Char) : Option (List Char × List Char) :=
  match Text.cutAt? ':' text with
  | some (c :: scheme, rest) =>
    if c.isAlpha && scheme.all isSchemeChar then some ((c :: scheme).map Text.lowerAscii, rest)
    else none
  | _ => none

/-! ## Escapes -/

/-- What is escaped in a fragment. -/
def fragmentSet : List Char := [' ', '"', '<', '>', '\x60']

/-- What is escaped in a query. -/
def querySet (special : Bool) : List Char :=
  [' ', '"', '#', '<', '>'] ++ (if special then [Char.ofNat 39] else [])

/-- What is escaped in a path. -/
def pathSet : List Char := [' ', '"', '#', '<', '>', '?', '\x60', '\x7b', '\x7d']

/-- What is escaped in a user name or password. -/
def userSet : List Char := pathSet ++ ['/', ':', ';', '=', '@', '[', '\\', ']', '^', '|']

/-! ## Paths -/

/-- Whether a segment is a single dot, which may be escaped. -/
def isSingleDot (segment : List Char) : Bool :=
  [".", "%2e"].contains (String.ofList (segment.map Text.lowerAscii))

/-- Whether a segment is a double dot, each dot of which may be escaped. -/
def isDoubleDot (segment : List Char) : Bool :=
  ["..", ".%2e", "%2e.", "%2e%2e"].contains (String.ofList (segment.map Text.lowerAscii))

/-- The segments of a path with dot segments resolved. Those passed already are given, the last one
first. -/
def resolveDots (passed : List (List Char)) : List (List Char) → List (List Char)
  | [] => passed.reverse
  | segment :: rest =>
    if isDoubleDot segment then
      resolveDots (if rest.isEmpty then [] :: passed.tail else passed.tail) rest
    else if isSingleDot segment then resolveDots (if rest.isEmpty then [] :: passed else passed) rest
    else resolveDots (Percent.escaped pathSet segment :: passed) rest

/-- The text of a path given after its first slash. -/
def pathText (isSlash : Char → Bool) (text : List Char) : List Char :=
  '/' :: Text.joinWith '/' (resolveDots [] (Text.pieces isSlash text))

/-! ## Authorities -/

/-- Splits at the last occurrence of a character. -/
def cutAtLast? (sep : Char) (text : List Char) : Option (List Char × List Char) :=
  (Text.cutAt? sep text.reverse).map fun (after, before) => (before.reverse, after.reverse)

/-- The user name and the password in front of a host. -/
def credentials (text : List Char) : List Char × List Char :=
  match Text.cutAt? ':' text with
  | some (user, password) => (Percent.escaped userSet user, Percent.escaped userSet password)
  | none => (Percent.escaped userSet text, [])

/-- Splits off a service number, which starts at the first colon outside brackets. -/
def cutService (text : List Char) : List Char × Option (List Char) :=
  match text with
  | '[' :: _ =>
    match Text.cutAt? ']' text with
    | some (inner, ':' :: digits) => (inner ++ [']'], some digits)
    | _ => (text, none)
  | _ =>
    match Text.cutAt? ':' text with
    | some (host, digits) => (host, some digits)
    | none => (text, none)

/-- The service number that digits write. No digits say nothing, and the usual number is left out. -/
def service? (scheme : List Char) : Option (List Char) → Option (Option Nat)
  | none => some none
  | some [] => some none
  | some digits => do
    let n ← if digits.all Char.isDigit then valueIn? 10 digits else none
    if 65535 < n then none
    else some (if usualService? scheme = some n then none else some n)

/-- A URL with a scheme and an authority and nothing else. -/
def ofAuthority? (scheme text : List Char) : Option Url := do
  let special := isSpecial scheme
  let (user, address) :=
    match cutAtLast? '@' text with
    | some (user, rest) => (some user, rest)
    | none => (none, text)
  let (hostPart, digits) := cutService address
  if hostPart.isEmpty && (special || user.isSome || digits.isSome) then none
  else
    let host ← if hostPart.isEmpty then some [] else hostText? special hostPart
    let service ← service? scheme digits
    let (username, password) := (user.map credentials).getD ([], [])
    some ⟨scheme, username, password, some host, service, [], none, none⟩

/-! ## Whole URLs -/

/-- Splits off the fragment and the query. -/
def cutTail (special : Bool) (text : List Char) :
    List Char × Option (List Char) × Option (List Char) :=
  let (text, fragment) := match Text.cutAt? '#' text with
    | some (before, after) => (before, some (Percent.escaped fragmentSet after))
    | none => (text, none)
  match Text.cutAt? '?' text with
  | some (before, after) => (before, some (Percent.escaped (querySet special) after), fragment)
  | none => (text, none, fragment)

/-- Whether a character is a slash for a kind of URL. -/
def isSlashFor (special : Bool) (c : Char) : Bool := c == '/' || (special && c == '\\')

/-- Splits what follows the slashes of an authority into the authority and the path, which is empty
or starts with a slash. -/
def cutAuthority (special : Bool) (text : List Char) : List Char × List Char :=
  let authority := text.takeWhile fun c => !isSlashFor special c
  (authority, text.drop authority.length)

/-- The path after an authority. -/
def pathAfter (special : Bool) (text : List Char) : List Char :=
  match text with
  | [] => if special then ['/'] else []
  | _ :: rest => pathText (isSlashFor special) rest

/-- Reads a URL for a file, given what follows the scheme. -/
def readFile? (text : List Char) : Option Url :=
  let slash := isSlashFor true
  let scheme := "file".toList
  match text with
  | a :: b :: rest =>
    if slash a && slash b then do
      let (authority, path) := cutAuthority true rest
      let host ← if authority.isEmpty then some [] else hostText? true authority
      let host := if host = "localhost".toList then [] else host
      some ⟨scheme, [], [], some host, none, pathAfter true path, none, none⟩
    else
      some ⟨scheme, [], [], some [], none,
        pathText slash (if slash a then b :: rest else text), none, none⟩
  | [a] => some ⟨scheme, [], [], some [], none, pathText slash (if slash a then [] else text), none, none⟩
  | [] => some ⟨scheme, [], [], some [], none, ['/'], none, none⟩

/-- Reads what follows a scheme, up to the query. -/
def readBody? (scheme text : List Char) : Option Url :=
  if scheme = "file".toList then readFile? text
  else if isSpecial scheme then do
    let (authority, path) := cutAuthority true (text.dropWhile (isSlashFor true))
    let url ← ofAuthority? scheme authority
    some { url with path := pathAfter true path }
  else
    match Text.dropStart? ['/', '/'] text with
    | some rest => do
      let (authority, path) := cutAuthority false rest
      let url ← ofAuthority? scheme authority
      some { url with path := pathAfter false path }
    | none =>
      let path := match text with
        | '/' :: rest => pathText (isSlashFor false) rest
        | text => Percent.escaped [] text
      some ⟨scheme, [], [], none, none, path, none, none⟩

/-- A text without what readers of URLs ignore: control characters and spaces around it, tabs and
line breaks anywhere. -/
def cleaned (text : List Char) : List Char :=
  (Text.trim (fun c => c.toNat ≤ 0x20) text).filter fun c => c != '\t' && c != '\n' && c != '\r'

/-- Reads a URL. -/
def read? (text : String) : Option Url := do
  let (scheme, rest) ← readScheme? (cleaned text.toList)
  let (body, query, fragment) := cutTail (isSpecial scheme) rest
  let url ← readBody? scheme body
  some { url with query, fragment }

/-- The user name and password as they are written in front of a host. -/
def userText (u : Url) : List Char :=
  if u.username.isEmpty && u.password.isEmpty then []
  else u.username ++ (if u.password.isEmpty then [] else ':' :: u.password) ++ ['@']

/-- The text of a URL. -/
def text (u : Url) : String :=
  let authority := match u.host with
    | some host => ['/', '/'] ++ u.userText ++ host ++
        (match u.service with
          | some n => ':' :: Number.naturalChars n
          | none => [])
    | none => if Text.startsWith ['/', '/'] u.path then ['/', '.'] else []
  let query := match u.query with
    | some q => '?' :: q
    | none => []
  let fragment := match u.fragment with
    | some f => '#' :: f
    | none => []
  String.ofList (u.scheme ++ ':' :: (authority ++ u.path ++ query ++ fragment))

/-- The same URL without a user name and password. -/
def withoutUser (u : Url) : Url := { u with username := [], password := [] }

end Url

end AuditTrail
