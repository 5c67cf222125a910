/-!
# Words of 32 bits

Lines and columns are words of 32 bits that count from zero, and people are shown them counted from
one. A sum that is no word has no value: it ends the program.

* `toNat_add_one`: one more is exact where it is a word.
* `place_eq`: a place is shown by exact numbers, unless one of them is no word.
-/

set_option autoImplicit false

namespace Krl

/-- An operation on words whose exact result is no word. -/
inductive Overflow where
  | addition
deriving DecidableEq, Repr

def Overflow.describe : Overflow → String
  | .addition => "attempt to add with overflow"

namespace Word

/-- One more. -/
def next (n : UInt32) : Except Overflow UInt32 :=
  if n.toNat + 1 < UInt32.size then .ok (n + 1) else .error .addition

/-- A line and a column, both shown counted from one. -/
def place (line column : UInt32) : Except Overflow String := do
  let line ← next line
  let column ← next column
  return s!"{line}:{column}"

/-! ## Facts -/

theorem toNat_add_one {n : UInt32} (h : n.toNat + 1 < UInt32.size) :
    (n + 1).toNat = n.toNat + 1 := by
  rw [UInt32.toNat_add]
  exact Nat.mod_eq_of_lt h

theorem place_eq (line column : UInt32) : place line column =
    if line.toNat + 1 < UInt32.size ∧ column.toNat + 1 < UInt32.size then
      .ok s!"{line.toNat + 1}:{column.toNat + 1}"
    else .error .addition := by
  unfold place next
  by_cases hline : line.toNat + 1 < UInt32.size
  · by_cases hcolumn : column.toNat + 1 < UInt32.size
    · rw [if_pos hline, if_pos hcolumn, if_pos ⟨hline, hcolumn⟩, ← toNat_add_one hline,
        ← toNat_add_one hcolumn]
      rfl
    · rw [if_pos hline, if_neg hcolumn, if_neg fun h : _ ∧ _ => hcolumn h.2]
      rfl
  · rw [if_neg hline, if_neg fun h : _ ∧ _ => hline h.1]
    rfl

end Word

end Krl
