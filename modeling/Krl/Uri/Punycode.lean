import Krl.Text.Split

/-!
# Punycode

A label of a host name in ASCII: its ASCII characters first, then the places of all others, in
ascending order of the characters, as numbers in a base whose digits are weighed by what came
before.

* `threshold_pos`: the digits of a number end.
-/

set_option autoImplicit false

namespace Krl.Uri.Punycode

/-- A digit below 36: the letters, then the decimal digits. -/
def digit (n : Nat) : Char := if n < 26 then Char.ofNat (97 + n) else Char.ofNat (22 + n)

/-- The value of a digit. -/
def digit? (c : Char) : Option Nat :=
  if c.isLower then some (c.toNat - 97)
  else if c.isUpper then some (c.toNat - 65)
  else if c.isDigit then some (c.toNat - 22)
  else none

/-- A digit below this one ends a number. The place counts in steps of 36. -/
def threshold (bias place : Nat) : Nat := max 1 (min 26 (place - bias))

theorem threshold_pos (bias place : Nat) : 1 ≤ threshold bias place := Nat.le_max_left ..

/-- The digits of a number, the least first. -/
def digits (bias place n : Nat) : List Char :=
  let t := threshold bias place
  if n < t then [digit n]
  else digit (t + (n - t) % (36 - t)) :: digits bias (place + 36) ((n - t) / (36 - t))
termination_by n
decreasing_by
  have := threshold_pos bias place
  exact Nat.lt_of_le_of_lt (Nat.div_le_self ..) (by omega)

/-- Divide by 35 until at most 455 is left; also gives 36 for each time. -/
def shrink (n steps : Nat) : Nat × Nat :=
  if 455 < n then shrink (n / 35) (steps + 36) else (n, steps)
termination_by n
decreasing_by exact Nat.div_lt_self (by omega) (by omega)

/-- The bias behind a number, when this many characters are in place. -/
def adapt (n count : Nat) (isFirst : Bool) : Nat :=
  let n := if isFirst then n / 700 else n / 2
  let (n, steps) := shrink (n + n / count) 0
  steps + 36 * n / (n + 38)

/-- What has been written, and what the next number is counted from. -/
structure Writer where
  /-- Steps since the last number. -/
  delta : Nat := 0
  bias : Nat := 72
  /-- The number of characters in place. -/
  count : Nat
  isFirst : Bool := true
  written : List Char := []

namespace Writer

/-- Pass a character of the label while the character `m` is put in place. -/
def pass (m : Nat) (w : Writer) (c : Char) : Writer :=
  if c.toNat < m then { w with delta := w.delta + 1 }
  else if c.toNat = m then
    ⟨0, adapt w.delta (w.count + 1) w.isFirst, w.count + 1, false,
      w.written ++ digits w.bias 36 w.delta⟩
  else w

/-- Put characters in place, in ascending order; all below `n` are. -/
def place (label : List Char) (w : Writer) (n : Nat) : List Nat → Writer
  | [] => w
  | m :: ms =>
    let w := label.foldl (pass m) { w with delta := w.delta + (m - n) * (w.count + 1) }
    { w with delta := w.delta + 1 }.place label (m + 1) ms

end Writer

/-- The label in ASCII. A hyphen stands between ASCII characters and the rest. -/
def encode (label : List Char) : List Char :=
  let plain := label.filter (·.toNat < 0x80)
  let others := ((label.map Char.toNat).filter (0x80 ≤ ·)).mergeSort.eraseDups
  plain ++ (if plain.isEmpty then [] else ['-']) ++
    (Writer.place label { count := plain.length } 0x80 others).written

/-! ## Reading -/

/-- The characters in place, and the number that is being read. -/
structure Reader where
  placed : List Char
  /-- The last character that was put in place. -/
  point : Nat := 0x80
  /-- The place behind it. -/
  index : Nat := 0
  bias : Nat := 72
  isFirst : Bool := true
  number : Nat := 0
  /-- What the next digit is weighed by. -/
  weight : Nat := 1
  /-- The place of the next digit, in steps of 36. -/
  place : Nat := 36
deriving DecidableEq, Repr

namespace Reader

/-- Put the character in place that a number stands for. -/
def put? (r : Reader) (n : Nat) : Option Reader :=
  let count := r.placed.length + 1
  let point := r.point + (r.index + n) / count
  let index := (r.index + n) % count
  if point.isValidChar then
    some
      { placed := r.placed.insertIdx index (Char.ofNat point)
        point := point
        index := index + 1
        bias := adapt n count r.isFirst
        isFirst := false }
  else none

/-- Read a digit. -/
def read? (r : Reader) (c : Char) : Option Reader := do
  let d ← digit? c
  let number := r.number + d * r.weight
  let t := threshold r.bias r.place
  if d < t then r.put? number
  else some { r with number := number, weight := r.weight * (36 - t), place := r.place + 36 }

/-- Has no number been begun? -/
def isAtRest (r : Reader) : Bool := r.place = 36

end Reader

/-- A text around its last hyphen, which does not stand in front. -/
def cutHyphen (cs : List Char) : List Char × List Char :=
  match (Text.split (· = '-') cs).reverse with
  | back :: piece :: pieces =>
    match ['-'].intercalate (piece :: pieces).reverse with
    | [] => ([], cs)
    | front => (front, back)
  | _ => ([], cs)

/-- The label that is written so in ASCII. -/
def decode? (cs : List Char) : Option (List Char) := do
  let (plain, numbers) := cutHyphen cs
  let r ← numbers.foldlM Reader.read? { placed := plain }
  if r.isAtRest then some r.placed else none

end Krl.Uri.Punycode
