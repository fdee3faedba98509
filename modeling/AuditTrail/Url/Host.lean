import AuditTrail.Number.Numeral
import AuditTrail.Text.Blank
import AuditTrail.Text.Percent
import AuditTrail.Text.WordChars
import AuditTrail.Url.Punycode

/-!
# Hosts

The host of a URL is a domain name, an address of four numbers, or an address of eight numbers in
brackets. Each has one text, whichever way it was written: domain names are in small ASCII letters,
the numbers of an address in one base and with a fixed number of parts.

The letters of domain names are folded to small ones for the Latin, Greek and Cyrillic scripts; those
of other scripts stand for themselves.
-/

namespace AuditTrail.Url

/-! ## Addresses of four numbers -/

/-- The value of digits in a base. -/
def valueIn? (base : Nat) (digits : List Char) : Option Nat :=
  digits.foldlM (fun n c => do
    let d ← Bytes.hexValue? c
    if d < base then some (n * base + d) else none) 0

/-- The number that a part of an address writes: in base sixteen after `0x`, in base eight after `0`. -/
def addressNumber? : List Char → Option Nat
  | [] => none
  | '0' :: 'x' :: digits => valueIn? 16 digits
  | '0' :: 'X' :: digits => valueIn? 16 digits
  | '0' :: digits => valueIn? 8 digits
  | digits => valueIn? 10 digits

/-- The parts of a name; a point at its end is not followed by a part. -/
def nameParts (name : List Char) : List (List Char) :=
  match (Text.piecesAt '.' name).reverse with
  | [] :: last :: others => (last :: others).reverse
  | parts => parts.reverse

/-- Whether a name ends in a number, so that it has to be an address. -/
def endsInNumber (name : List Char) : Bool :=
  match (nameParts name).getLast? with
  | some part =>
    (!part.isEmpty && part.all Char.isDigit) || (addressNumber? part).isSome
  | none => false

/-- The address that parts write: each fills one octet and the last one what is left. -/
def addressOfParts? (parts : List (List Char)) : Option Nat := do
  let numbers ← parts.mapM addressNumber?
  match numbers.reverse with
  | [] => none
  | last :: others =>
    let leading := others.reverse
    if leading.length ≤ 3 ∧ leading.all (· < 256) ∧ last < Nat.pow 256 (4 - leading.length) then
      some ((leading.foldl (fun n part => n * 256 + part) 0) * Nat.pow 256 (4 - leading.length) + last)
    else none

/-- The text of an address. -/
def addressText (address : Nat) : List Char :=
  Text.joinWith '.'
    [Number.naturalChars (address / 16777216), Number.naturalChars (address / 65536 % 256),
      Number.naturalChars (address / 256 % 256), Number.naturalChars (address % 256)]

/-! ## Addresses of eight numbers -/

/-- The number that a group writes: up to four digits. -/
def groupNumber? (group : List Char) : Option Nat :=
  if group.isEmpty || 4 < group.length then none else valueIn? 16 group

/-- The number that a part of the four-number ending writes, which has no needless zero. -/
def endingNumber? (part : List Char) : Option Nat :=
  if part.isEmpty || (part.head? == some '0' && 1 < part.length) then none
  else (valueIn? 10 part).filter (· < 256)

/-- The two groups that a four-number ending stands for. -/
def endingGroups? (text : List Char) : Option (List Nat) := do
  match ← (Text.piecesAt '.' text).mapM endingNumber? with
  | [a, b, c, d] => some [a * 256 + b, c * 256 + d]
  | _ => none

/-- The groups between colons, of which the last may be a four-number ending. -/
def groups? : List (List Char) → Option (List Nat)
  | [] => some []
  | [last] => if last.contains '.' then endingGroups? last else (groupNumber? last).map fun n => [n]
  | group :: rest => do
    let n ← groupNumber? group
    let more ← groups? rest
    some (n :: more)

/-- The groups of a text without a gap, which may be empty. -/
def groupsOf? (text : List Char) : Option (List Nat) :=
  if text.isEmpty then some [] else groups? (Text.piecesAt ':' text)

/-- The text before the first gap, a double colon, and the one after it. -/
def cutAtGap? : List Char → Option (List Char × List Char)
  | ':' :: ':' :: rest => some ([], rest)
  | c :: rest => (cutAtGap? rest).map fun (before, after) => (c :: before, after)
  | [] => none

/-- The eight groups that a text between brackets writes; a gap stands for groups of zero. -/
def longAddress? (text : List Char) : Option (List Nat) :=
  match cutAtGap? text with
  | none => (groupsOf? text).filter fun groups => groups.length == 8
  | some (before, after) => do
    if before.contains '.' then none
    else
      let before ← groupsOf? before
      let after ← groupsOf? after
      if before.length + after.length ≤ 7 then
        some (before ++ List.replicate (8 - before.length - after.length) 0 ++ after)
      else none

/-- The small hexadecimal digits of a group. -/
def groupText (n : Nat) : List Char :=
  match (Bytes.ofBigEndian 2 n).hexChars.dropWhile (· == '0') with
  | [] => ['0']
  | digits => digits

/-- How many zeros a list starts with. -/
def leadingZeros (groups : List Nat) : Nat := (groups.takeWhile (· == 0)).length

/-- The place and the length of the first among the longest runs of zeros. -/
def longestGap (groups : List Nat) : Nat × Nat :=
  (List.range groups.length).foldl (fun (best : Nat × Nat) place =>
    let length := leadingZeros (groups.drop place)
    if best.2 < length then (place, length) else best) (0, 0)

/-- The text of an address of eight groups, with its longest run of zeros as a gap. -/
def longAddressText (groups : List Nat) : List Char :=
  let joined (part : List Nat) := Text.joinWith ':' (part.map groupText)
  let (place, length) := longestGap groups
  if length < 2 then joined groups
  else joined (groups.take place) ++ [':', ':'] ++ joined (groups.drop (place + length))

/-! ## Domain names -/

/-- The characters that stand for a point in a name. -/
def pointChars : List Char := ['\u3002', '\uff0e', '\uff61']

/-- The characters that are skipped in a name. -/
def skippedChars : List Char := ['\u00ad', '\u200b', '\u2060', '\ufeff']

/-- A letter of a name in its small and narrow form. -/
def foldedChar (c : Char) : Char :=
  let n := c.toNat
  if pointChars.contains c then '.'
  else if 0xFF01 ≤ n ∧ n ≤ 0xFF5E then Text.lowerAscii (Char.ofNat (n - 0xFEE0))
  else if 0xC0 ≤ n ∧ n ≤ 0xDE ∧ n ≠ 0xD7 then Char.ofNat (n + 32)
  else if 0x391 ≤ n ∧ n ≤ 0x3A9 then Char.ofNat (n + 32)
  else if 0x410 ≤ n ∧ n ≤ 0x42F then Char.ofNat (n + 32)
  else if 0x400 ≤ n ∧ n ≤ 0x40F then Char.ofNat (n + 80)
  else if ((0x100 ≤ n ∧ n ≤ 0x12E) ∨ (0x14A ≤ n ∧ n ≤ 0x176)) ∧ n % 2 = 0 then Char.ofNat (n + 1)
  else if ((0x139 ≤ n ∧ n ≤ 0x147) ∨ (0x179 ≤ n ∧ n ≤ 0x17D)) ∧ n % 2 = 1 then Char.ofNat (n + 1)
  else Text.lowerAscii c

/-- The mark of a label that is an encoding. -/
def encodedMark : List Char := "xn--".toList

/-- Whether a character beyond ASCII can stand in a folded label. -/
def isLabelLetter (c : Char) : Bool := 128 ≤ c.toNat && Text.isWordChar c && foldedChar c == c

/-- A label in ASCII, if it can be one. -/
def asciiLabel? (label : List Char) : Option (List Char) :=
  if label.all fun c => c.toNat < 128 then
    match Text.dropStart? encodedMark label with
    | some rest =>
      match Punycode.decode? rest with
      | some decoded =>
        if decoded.any isLabelLetter && decoded.all fun c => c.toNat < 128 || isLabelLetter c then
          some label
        else none
      | none => none
    | none => some label
  else if label.all fun c => c.toNat < 128 || isLabelLetter c then
    some (encodedMark ++ Punycode.encode label)
  else none

/-- A name in small ASCII letters, if it can be one. -/
def asciiName? (name : List Char) : Option (List Char) := do
  let folded := (name.filter fun c => !skippedChars.contains c).map foldedChar
  let labels ← (Text.piecesAt '.' folded).mapM asciiLabel?
  some (Text.joinWith '.' labels)

/-- The characters that no host may hold. -/
def hostForbidden : List Char :=
  ['\x00', '\t', '\n', '\r', ' ', '#', '/', ':', '<', '>', '?', '@', '[', '\\', ']', '^', '|']

/-- Whether a character is one that no domain name may hold. -/
def isNameForbidden (c : Char) : Bool :=
  hostForbidden.contains c || c == '%' || c.toNat < 0x20 || c.toNat == 0x7F

/-- The text of a domain name or address. -/
def nameOrAddress? (text : List Char) : Option (List Char) := do
  let name ← asciiName? (← Percent.unescapedText? text)
  if name.isEmpty || name.any isNameForbidden then none
  else if endsInNumber name then (addressOfParts? (nameParts name)).map addressText
  else some name

/-- The text of an address in brackets, given what follows the opening one. -/
def bracketed? (text : List Char) : Option (List Char) :=
  match text.reverse with
  | ']' :: inner =>
    (longAddress? inner.reverse).map fun groups => '[' :: (longAddressText groups ++ [']'])
  | _ => none

/-- The text of a host; only the URLs that are fetched over a network have hosts that mean
something, and any other host is left as it is. -/
def hostText? (isSpecial : Bool) (text : List Char) : Option (List Char) :=
  match text with
  | '[' :: rest => bracketed? rest
  | _ =>
    if isSpecial then nameOrAddress? text
    else if text.any hostForbidden.contains then none
    else some (Percent.escaped [] text)

end AuditTrail.Url
