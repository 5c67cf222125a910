import Krl.Text.Digit
import Krl.Text.Split

/-!
# Numeric hosts

A host may be a number of 32 bits, written in up to four parts between points, or eight groups of 16
bits, written between colons.
-/

set_option autoImplicit false

namespace Krl.Uri.Address

/-! ## Four bytes -/

/-- One part of a number: hexadecimal behind `0x`, octal behind another zero, decimal otherwise. -/
def part? : List Char → Option Nat
  | [] => none
  | '0' :: 'x' :: cs => Text.number? 16 cs
  | '0' :: 'X' :: cs => Text.number? 16 cs
  | '0' :: c :: cs => Text.number? 8 (c :: cs)
  | cs => Text.number? 10 cs

/-- The labels of a host; a point at its end begins no label. -/
def labels (host : List Char) : List (List Char) :=
  let ls := Text.split (· = '.') host
  if 1 < ls.length ∧ ls.getLast? = some [] then ls.dropLast else ls

/-- Does the last label look like a number, so that the host has to be one? -/
def endsInNumber (host : List Char) : Bool :=
  match (labels host).getLast? with
  | some (c :: cs) => (c :: cs).all Char.isDigit || (part? (c :: cs)).isSome
  | _ => false

/-- The number that bytes stand for, the first one for the most. -/
def ofBytes (bytes : List Nat) : Nat := bytes.foldl (· * 256 + ·) 0

/-- The number of a host: each part is a byte, but the last one fills all bytes that are left. -/
def number? (host : List Char) : Option Nat := do
  let parts ← (labels host).mapM part?
  let last ← parts.getLast?
  let bytes := parts.dropLast
  let unit := Nat.pow 256 (4 - bytes.length)
  if bytes.length ≤ 3 ∧ (∀ b ∈ bytes, b < 256) ∧ last < unit then
    some (ofBytes bytes * unit + last)
  else none

def decimal (n : Nat) : List Char := Nat.toDigits 10 n

/-- A number as four decimal bytes. -/
def dotted (n : Nat) : List Char :=
  ['.'].intercalate ([16777216, 65536, 256, 1].map fun unit => decimal (n / unit % 256))

/-! ## Eight groups -/

/-- A group: one to four hexadecimal digits. -/
def group? (cs : List Char) : Option Nat :=
  if cs.isEmpty || 4 < cs.length then none else Text.number? 16 cs

/-- A decimal byte, without a zero in front. -/
def byte? (cs : List Char) : Option Nat :=
  if cs.isEmpty || (cs.head? = some '0' && cs.length ≠ 1) then none
  else (Text.number? 10 cs).filter (· ≤ 255)

/-- Four decimal bytes as two groups. -/
def bytePairs? (cs : List Char) : Option (List Nat) :=
  match (Text.split (· = '.') cs).mapM byte? with
  | some [a, b, c, d] => some [a * 256 + b, c * 256 + d]
  | _ => none

/-- Groups between colons. -/
def run? (cs : List Char) : Option (List Nat) :=
  if cs.isEmpty then some [] else (Text.split (· = ':') cs).mapM group?

/-- Groups between colons, of which the last two may be written as four bytes. -/
def lastRun? (cs : List Char) : Option (List Nat) :=
  if cs.contains '.' then
    let pieces := Text.split (· = ':') cs
    match pieces.dropLast.mapM group?, bytePairs? (pieces.getLast?.getD []) with
    | some gs, some pair => some (gs ++ pair)
    | _, _ => none
  else run? cs

/-- A text around its first two colons in a row. -/
def cutGap? : List Char → Option (List Char × List Char)
  | ':' :: ':' :: cs => some ([], cs)
  | c :: cs => (cutGap? cs).map fun r => (c :: r.1, r.2)
  | [] => none

/-- The groups of a host; two colons in a row stand for all that are missing, at least one. -/
def groups? (cs : List Char) : Option (List Nat) :=
  match cutGap? cs with
  | none => (lastRun? cs).filter (·.length = 8)
  | some (front, back) =>
    match run? front, lastRun? back with
    | some gs, some hs =>
      if gs.length + hs.length < 8 then
        some (gs ++ List.replicate (8 - gs.length - hs.length) 0 ++ hs)
      else none
    | _, _ => none

/-- The first of the longest runs of zeros, as its start and its length. -/
def longestZeros (gs : List Nat) : Nat × Nat :=
  (List.range gs.length).foldl
    (fun best i =>
      let n := ((gs.drop i).takeWhile (· = 0)).length
      if best.2 < n then (i, n) else best)
    (0, 0)

/-- Groups between colons in lower case, with two colons for the longest run of zeros if that has
more than one. -/
def coloned (gs : List Nat) : List Char :=
  let write (gs : List Nat) : List Char := [':'].intercalate (gs.map (Nat.toDigits 16))
  let (start, n) := longestZeros gs
  if 1 < n then write (gs.take start) ++ [':', ':'] ++ write (gs.drop (start + n)) else write gs

end Krl.Uri.Address
