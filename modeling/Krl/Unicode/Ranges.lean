import Krl.Text.Blank
import Krl.Text.Digit

/-!
# Tables of code points

A table is a text of words. A code point is written in hexadecimal digits, a range of them as its
first and its last with a hyphen between. A word may start with a key and a colon, and the key
then stands for all words up to the next one.

* `holds_ofPairs`: what it means that ranges hold a character.
-/

set_option autoImplicit false

namespace Krl.Unicode

/-- The code point that hexadecimal digits stand for. -/
def codePoint (cs : List Char) : Nat := (Text.number? 16 cs).getD 0

/-- The words of a table, each with the key that stands for it. -/
def keyed (table : String) : List (List Char × List Char) :=
  let (_, rev) := (Text.words table.toList).foldl
    (fun (acc : List Char × List (List Char × List Char)) word =>
      match Text.split (· = ':') word with
      | [key, item] => (key, (key, item) :: acc.2)
      | _ => (acc.1, (acc.1, word) :: acc.2))
    ([], [])
  rev.reverse

/-- Inclusive ranges of code points. -/
structure Ranges where
  pairs : List (Nat × Nat)

namespace Ranges

/-- The range that a word stands for. -/
def pair (word : List Char) : Nat × Nat :=
  match Text.split (· = '-') word with
  | [first, last] => (codePoint first, codePoint last)
  | _ => (codePoint word, codePoint word)

def ofText (table : String) : Ranges := ⟨(Text.words table.toList).map pair⟩

/-- Is the character in one of the ranges? -/
def holds (rs : Ranges) (c : Char) : Bool :=
  rs.pairs.any fun r => r.1 ≤ c.toNat && c.toNat ≤ r.2

/-! ## Facts -/

theorem holds_ofPairs {pairs : List (Nat × Nat)} {c : Char} :
    holds ⟨pairs⟩ c = true ↔ ∃ r ∈ pairs, r.1 ≤ c.toNat ∧ c.toNat ≤ r.2 := by
  simp [holds]

end Ranges

end Krl.Unicode
