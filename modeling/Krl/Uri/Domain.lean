import Krl.Uri.Label

/-!
# Names of hosts on a network

Such a name is read as a person means it: folded, in its normal form, and with its labels in any
script. It is written in ASCII.

* `toChars_of_isPlain`: a name in ASCII is written as its labels are.
-/

set_option autoImplicit false

namespace Krl.Uri

open Unicode

/-- The labels of a name. -/
abbrev Domain := List Label

namespace Domain

/-- The text in its normal form, with each character folded. -/
def fold? (cs : List Char) : Option (List Char) :=
  (cs.mapM Folding.fold?).map fun pieces => normal pieces.flatten

/-- May these labels make up a name? If any is in part written from right to left, all keep their
directions. -/
def isSound (d : Domain) : Bool :=
  d.all Label.isSound && (!d.any Label.isLeftward || d.all Label.keepsDirection)

/-- The name that a text gives. -/
def ofText? (cs : List Char) : Option Domain := do
  let folded ← fold? cs
  let d ← (Text.split (· = '.') folded).mapM Label.ofText?
  if isSound d then some d else none

/-- The name in ASCII. -/
def toChars (d : Domain) : List Char := ['.'].intercalate (d.map Label.toChars)

/-! ## Facts -/

theorem toChars_of_isPlain {d : Domain} (h : ∀ label ∈ d, label.isPlain = true) :
    d.toChars = ['.'].intercalate d := by
  unfold toChars
  congr 1
  exact (List.map_congr_left fun label hl => Label.toChars_of_isPlain (h label hl)).trans
    (List.map_id d)

end Domain

end Krl.Uri
