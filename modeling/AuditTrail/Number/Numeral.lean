/-!
# Decimal numerals as they are written

A numeral is what stands in a text for a number: a sign, the digits before the point, the digits
after it, an exponent. It is kept apart from the number it denotes, because one number has many
numerals, and the two output formats of this library differ only in the numeral they choose.

`Numeral.chars` writes a numeral down, `Numeral.read?` reads the longest one at the start of a
text, and `Numeral.coefficient` with `Numeral.scale` say which decimal fraction it denotes.
-/

namespace AuditTrail.Number

/-- A decimal digit. -/
abbrev Digit := Fin 10

namespace Digit

/-- The digit zero. -/
def zero : Digit := ⟨0, by decide⟩

/-- The character of a digit. -/
def char (d : Digit) : Char := Char.ofNat (48 + d.val)

/-- The digit that a character writes. -/
def ofChar? (c : Char) : Option Digit :=
  if h : 48 ≤ c.toNat ∧ c.toNat < 58 then some ⟨c.toNat - 48, by omega⟩ else none

end Digit

/-- The number that a run of digits denotes, most significant digit first. -/
def valueOf (digits : List Digit) : Nat :=
  digits.foldl (fun n d => 10 * n + d.val) 0

/-- The digits of `n`, as long as they are at most `places` many. -/
def digitsUpTo : (places : Nat) → (n : Nat) → List Digit
  | 0, _ => []
  | places + 1, n =>
    if h : n < 10 then [⟨n, h⟩]
    else digitsUpTo places (n / 10) ++ [⟨n % 10, Nat.mod_lt n (by decide)⟩]

/-- The digits of `n` without superfluous zeros in front; zero has the one digit `0`. -/
def digitsOf (n : Nat) : List Digit := digitsUpTo (n.log2 + 1) n

/-- The digits of `n` as text. -/
def naturalChars (n : Nat) : List Char := (digitsOf n).map Digit.char

/-- The decimal text of a natural number. -/
def decimal (n : Nat) : String := String.ofList (naturalChars n)

/-- The digits at the start of a text, and what follows them. -/
def spanDigits : List Char → List Digit × List Char
  | [] => ([], [])
  | c :: rest =>
    match Digit.ofChar? c with
    | some d => let (ds, after) := spanDigits rest; (d :: ds, after)
    | none => ([], c :: rest)

/-- How the sign of an exponent is spelled. -/
inductive ExponentSign
  | unsigned
  | plus
  | minus
  deriving DecidableEq, Repr

/-- The exponent of a numeral as written. -/
structure Exponent where
  sign : ExponentSign
  digits : List Digit
  deriving DecidableEq, Repr

/-- The power of ten an exponent stands for. -/
def Exponent.value (e : Exponent) : Int :=
  match e.sign with
  | .minus => -(valueOf e.digits : Int)
  | _ => valueOf e.digits

/-- A numeral as written: sign, digits before the point, digits after it, exponent. -/
structure Numeral where
  negative : Bool
  whole : List Digit
  fraction : Option (List Digit)
  exponent : Option Exponent
  deriving DecidableEq, Repr

namespace Numeral

/-- The digits on both sides of the point. -/
def digits (n : Numeral) : List Digit := n.whole ++ n.fraction.getD []

/-- The digits read as one integer: the denoted number is `± coefficient · 10 ^ scale`. -/
def coefficient (n : Numeral) : Nat := valueOf n.digits

/-- The power of ten that `coefficient` is to be multiplied by. -/
def scale (n : Numeral) : Int :=
  (n.exponent.map Exponent.value).getD 0 - (n.fraction.getD []).length

/-- Whether the numeral has neither a point nor an exponent. -/
def isWhole (n : Numeral) : Bool := n.fraction.isNone && n.exponent.isNone

/-- The numeral of an integer. -/
def ofInt (i : Int) : Numeral := ⟨decide (i < 0), digitsOf i.natAbs, none, none⟩

/-- The text of an exponent, with a small `e`. -/
def exponentChars (e : Exponent) : List Char :=
  let sign := match e.sign with
    | .unsigned => []
    | .plus => ['+']
    | .minus => ['-']
  'e' :: (sign ++ e.digits.map Digit.char)

/-- The text of a numeral. -/
def chars (n : Numeral) : List Char :=
  (if n.negative then ['-'] else [])
    ++ n.whole.map Digit.char
    ++ (match n.fraction with
        | some ds => '.' :: ds.map Digit.char
        | none => [])
    ++ (match n.exponent with
        | some e => exponentChars e
        | none => [])

/-- Reads the digits before the point: a lone zero, or digits that do not start with zero. -/
def readWhole? (text : List Char) : Option (List Digit × List Char) :=
  match text with
  | '0' :: rest => some ([0], rest)
  | _ =>
    match spanDigits text with
    | ([], _) => none
    | found => some found

/-- Reads a point and the digits after it, of which there must be at least one. -/
def readFraction? : List Char → Option (Option (List Digit) × List Char)
  | '.' :: rest =>
    match spanDigits rest with
    | ([], _) => none
    | (ds, after) => some (some ds, after)
  | text => some (none, text)

/-- Reads the sign of an exponent. -/
def readExponentSign : List Char → ExponentSign × List Char
  | '+' :: rest => (.plus, rest)
  | '-' :: rest => (.minus, rest)
  | text => (.unsigned, text)

/-- Reads an exponent, whose mark must be followed by at least one digit. -/
def readExponent? (text : List Char) : Option (Option Exponent × List Char) :=
  match text with
  | c :: rest =>
    if c = 'e' ∨ c = 'E' then
      let (sign, afterSign) := readExponentSign rest
      match spanDigits afterSign with
      | ([], _) => none
      | (ds, after) => some (some ⟨sign, ds⟩, after)
    else some (none, text)
  | [] => some (none, [])

/-- Reads a numeral after its sign. -/
def readUnsigned? (negative : Bool) (text : List Char) : Option (Numeral × List Char) := do
  let (whole, text) ← readWhole? text
  let (fraction, text) ← readFraction? text
  let (exponent, text) ← readExponent? text
  some (⟨negative, whole, fraction, exponent⟩, text)

/-- Reads the numeral at the start of a text, by the grammar of JSON, and returns the rest. -/
def read? : List Char → Option (Numeral × List Char)
  | '-' :: rest => readUnsigned? true rest
  | text => readUnsigned? false text

end Numeral

end AuditTrail.Number
