/-!
# Host labels in ASCII

A label with characters beyond ASCII is written as its ASCII characters, a hyphen, and a number for
each other character: how far to go, counted over all places and all code points in turn, until that
character is to be inserted. Small distances have short numerals, and what counts as small
adapts to the distances seen so far.
-/

namespace AuditTrail.Url.Punycode

/-- A digit below 36: letters first, then figures. -/
def digit (n : Nat) : Char :=
  if n < 26 then Char.ofNat (97 + n) else Char.ofNat (22 + n)

/-- The value of a digit, in either case. -/
def digitValue? (c : Char) : Option Nat :=
  let n := c.toNat
  if 97 ≤ n ∧ n ≤ 122 then some (n - 97)
  else if 65 ≤ n ∧ n ≤ 90 then some (n - 65)
  else if 48 ≤ n ∧ n ≤ 57 then some (n - 22)
  else none

/-- The least value that does not end a numeral at its `place`-th digit, counted from one. -/
def threshold (bias place : Nat) : Nat := min 26 (max 1 (36 * place - bias))

/-- The digits of a distance from its `place`-th one on. A distance loses a factor at each digit, so
`steps` above its length in bits is enough. -/
def numeral (bias : Nat) : (steps place distance : Nat) → List Char
  | 0, _, _ => []
  | steps + 1, place, distance =>
    let t := threshold bias place
    if distance < t then [digit distance]
    else
      digit (t + (distance - t) % (36 - t))
        :: numeral bias steps (place + 1) ((distance - t) / (36 - t))

/-- Divides a distance down to the range of one numeral, counting the divisions. -/
def scaleDown : (steps count distance : Nat) → Nat × Nat
  | 0, count, distance => (count, distance)
  | steps + 1, count, distance =>
    if distance ≤ 455 then (count, distance) else scaleDown steps (count + 1) (distance / 35)

/-- The bias after a distance, with `handled` characters in place then. -/
def adapted (distance handled : Nat) (first : Bool) : Nat :=
  let distance := if first then distance / 700 else distance / 2
  let distance := distance + distance / handled
  let (count, distance) := scaleDown (distance.log2 + 1) 0 distance
  36 * count + 36 * distance / (distance + 38)

/-- How far the encoding of a label has come. -/
structure State where
  /-- What has been counted since the last character was inserted. -/
  distance : Nat
  bias : Nat
  handled : Nat
  first : Bool

/-- Passes over the characters of a label in order to insert those with one code point. -/
def pass (code : Nat) : State → List Char → List Char × State
  | s, [] => ([], s)
  | s, c :: rest =>
    if c.toNat < code then pass code { s with distance := s.distance + 1 } rest
    else if c.toNat = code then
      let digits := numeral s.bias (s.distance.log2 + 1) 1 s.distance
      let next : State := ⟨0, adapted s.distance (s.handled + 1) s.first, s.handled + 1, false⟩
      let (more, s) := pass code next rest
      (digits ++ more, s)
    else pass code s rest

/-- Inserts the characters with the given code points, which ascend and are all at least `next`. -/
def insertAll (label : List Char) : (next : Nat) → State → List Nat → List Char
  | _, _, [] => []
  | next, s, code :: codes =>
    let s := { s with distance := s.distance + (code - next) * (s.handled + 1) }
    let (digits, s) := pass code s label
    digits ++ insertAll label (code + 1) { s with distance := s.distance + 1 } codes

/-- The encoding of a label, without the mark that says it is one. -/
def encode (label : List Char) : List Char :=
  let plain := label.filter fun c => c.toNat < 128
  let codes := ((label.filter fun c => 128 ≤ c.toNat).map Char.toNat).mergeSort.eraseDups
  let start := if plain.isEmpty then [] else plain ++ ['-']
  start ++ insertAll label 128 ⟨0, 72, plain.length, true⟩ codes

/-! ## Decoding -/

/-- Reads a numeral from its `place`-th digit on, whose unit is `weight`. -/
def readNumeral? (bias : Nat) : (place weight : Nat) → List Char → Option (Nat × List Char)
  | _, _, [] => none
  | place, weight, c :: rest => do
    let d ← digitValue? c
    let t := threshold bias place
    if d < t then some (d * weight, rest)
    else
      let (more, rest) ← readNumeral? bias (place + 1) (weight * (36 - t)) rest
      some (d * weight + more, rest)

/-- Inserts the characters that numerals stand for, as many as `steps` at most. -/
def decodeFrom? : (steps : Nat) → (code position bias : Nat) → (first : Bool) → List Char →
    List Char → Option (List Char)
  | _, _, _, _, _, label, [] => some label
  | 0, _, _, _, _, _, _ => none
  | steps + 1, code, position, bias, first, label, digits => do
    let (distance, rest) ← readNumeral? bias 1 1 digits
    let size := label.length + 1
    let code := code + (position + distance) / size
    let position := (position + distance) % size
    if code.isValidChar then
      let label := label.take position ++ Char.ofNat code :: label.drop position
      decodeFrom? steps code (position + 1) (adapted distance size first) false label rest
    else none

/-- The label that an encoding stands for. -/
def decode? (text : List Char) : Option (List Char) :=
  let tail := (text.reverse.takeWhile (· != '-')).reverse
  let plain := (text.take (text.length - tail.length)).dropLast
  decodeFrom? tail.length 128 0 72 true plain tail

end AuditTrail.Url.Punycode
