/-!
# Decimal numerals

Numbers as JSON writes them, digit for digit.

* `ofChars?`: the grammar of a numeral.
* `integer?`: a numeral is an integer if it has neither fraction nor exponent, is not `-0`, and
  fits 64 bits, signed or unsigned.
* `isFinite`: every other numeral has to be one that a double can come near to.
-/

set_option autoImplicit false

namespace Krl.Json

/-- A decimal number as it is written; digits stand most significant first. -/
structure Numeral where
  negative : Bool
  whole : List Nat
  fraction : List Nat
  exponent : Option Int
deriving DecidableEq, Repr

namespace Numeral

/-! ## Reading and writing -/

def digit (c : Char) : Nat := c.toNat - '0'.toNat

/-- The number that digits stand for, behind the digits of `start`. -/
def number (start : Nat) (digits : List Nat) : Nat := digits.foldl (fun n d => n * 10 + d) start

/-- The digits that the text starts with, and what follows them; at least one is needed. -/
def digits? (cs : List Char) : Option (List Nat × List Char) :=
  match cs.takeWhile Char.isDigit with
  | [] => none
  | ds => some (ds.map digit, cs.dropWhile Char.isDigit)

/-- A sign, if the text starts with one: is it a minus? -/
def sign : List Char → Bool × List Char
  | '-' :: cs => (true, cs)
  | '+' :: cs => (false, cs)
  | cs => (false, cs)

/-- The digits before the point: no zero in front of others. -/
def whole? (cs : List Char) : Option (List Nat × List Char) :=
  (digits? cs).filter fun p => p.1.length == 1 || p.1.head? != some 0

/-- A point and digits, if the text starts with a point. -/
def fraction? : List Char → Option (List Nat × List Char)
  | '.' :: cs => digits? cs
  | cs => some ([], cs)

/-- A mark, a sign and digits, if the text starts with the mark of an exponent. -/
def exponent? : List Char → Option (Option Int × List Char)
  | c :: cs =>
    if c = 'e' ∨ c = 'E' then do
      let (negative, rest) := sign cs
      let (ds, rest) ← digits? rest
      some (some (if negative then -(number 0 ds : Int) else number 0 ds), rest)
    else some (none, c :: cs)
  | [] => some (none, [])

/-- The numeral that is written with exactly these characters. -/
def ofChars? (cs : List Char) : Option Numeral := do
  let (negative, rest) := match cs with
    | '-' :: rest => (true, rest)
    | _ => (false, cs)
  let (whole, rest) ← whole? rest
  let (fraction, rest) ← fraction? rest
  let (exponent, rest) ← exponent? rest
  if rest = [] then some ⟨negative, whole, fraction, exponent⟩ else none

def ofNat (n : Nat) : Numeral := ⟨false, (Nat.toDigits 10 n).map digit, [], none⟩

def ofInt (n : Int) : Numeral := { ofNat n.natAbs with negative := n < 0 }

def charsOfDigits (ds : List Nat) : List Char := ds.map Nat.digitChar

/-- The characters of a numeral. -/
def toChars (x : Numeral) : List Char :=
  (if x.negative then ['-'] else []) ++ charsOfDigits x.whole ++
    (if x.fraction = [] then [] else '.' :: charsOfDigits x.fraction) ++
    match x.exponent with
    | none => []
    | some e => 'e' :: ((if e < 0 then ['-'] else []) ++ Nat.toDigits 10 e.natAbs)

/-! ## Values -/

/-- The number of a numeral that has no sign, no fraction and no exponent. -/
def natural? (x : Numeral) : Option Nat :=
  if !x.negative && x.fraction.isEmpty && x.exponent.isNone then some (number 0 x.whole) else none

/-- The number of a numeral that is an integer of 64 bits. A zero with a sign is not one. -/
def integer? (x : Numeral) : Option Int :=
  if x.fraction.isEmpty && x.exponent.isNone then
    let n := number 0 x.whole
    if x.negative then if 0 < n ∧ n ≤ UInt64.size / 2 then some (-(n : Int)) else none
    else if n < UInt64.size then some n else none
  else none

/-! ## Range of doubles -/

/-- A double has 53 bits. Of two at the same distance, the even one is nearer. -/
def nearestDouble (n : Nat) : Nat :=
  let shift := n.log2 - 52
  let unit := Nat.pow 2 shift
  let low := n / unit
  let rest := n % unit * 2
  if rest < unit ∨ (rest = unit ∧ low % 2 = 0) then low * unit else (low + 1) * unit

/-- Append digits as long as the number fits 64 bits; also gives how many are left. -/
def absorb (n : Nat) : List Nat → Nat × Nat
  | [] => (n, 0)
  | d :: ds => if n * 10 + d < UInt64.size then absorb (n * 10 + d) ds else (n, ds.length + 1)

/-- The leading digits that fit 64 bits, and the power of ten that belongs to them. -/
def scientific (x : Numeral) : Nat × Int :=
  let (n, wholeLeft) := absorb 0 x.whole
  let (n, fractionLeft) := absorb n x.fraction
  (n, (wholeLeft : Int) - ((x.fraction.length - fractionLeft : Nat) : Int) + x.exponent.getD 0)

/-- Is the number not too large for a double? The leading digits and the power of ten are rounded
on their own, and so is their product: it is too large from half a unit beyond the last double. -/
def isFinite (x : Numeral) : Bool :=
  let (n, e) := x.scientific
  n = 0 || e < 0 ||
    (e ≤ 308 &&
      nearestDouble n * nearestDouble (Nat.pow 10 e.toNat) < Nat.pow 2 1024 - Nat.pow 2 970)

end Numeral

end Krl.Json
