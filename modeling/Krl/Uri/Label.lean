import Krl.Text.Split
import Krl.Unicode.Direction
import Krl.Unicode.Folding
import Krl.Unicode.Joining
import Krl.Unicode.Mark
import Krl.Unicode.Normal
import Krl.Uri.Punycode

/-!
# Labels of host names

The name of a host has labels between points. A label with characters beyond ASCII is written in
ASCII behind a marker, and may be given in either form. It does not begin with a mark, and what
joins letters or keeps them apart stands only where it does so.

* `isSound_of_isPlain`: nothing is asked of a label in ASCII.
* `toChars_of_isPlain`: such a label is written as it is.
-/

set_option autoImplicit false

namespace Krl.Uri

open Unicode

/-- A part of the name of a host, between points. -/
abbrev Label := List Char

namespace Label

/-- Is all of the label in ASCII? -/
def isPlain (label : Label) : Bool := label.all (·.toNat < 0x80)

/-- What stands in front of a label that is written in ASCII but has other characters. -/
def marker : List Char := ['x', 'n', '-', '-']

/-! ## Reading -/

/-- Is the label folded, and in its normal form? -/
def isSettled (label : Label) : Bool :=
  label.all (fun c => c.toNat < 0x80 || Folding.isFolded c) && normal label = label

/-- No label that is to be written in ASCII has more characters. -/
def longestGiven : Nat := 1000

/-- No label that is written in ASCII has more characters behind its marker. -/
def longestWritten : Nat := 2000

/-- The label that folded text stands for. Behind a marker, only a label that needs it is read. -/
def ofText? (cs : List Char) : Option Label :=
  if marker.isPrefixOf cs then
    let written := cs.drop marker.length
    if isPlain written && written.length ≤ longestWritten then
      (Punycode.decode? written).filter fun label => !label.isPlain && label.isSettled
    else none
  else if isPlain cs || cs.length ≤ longestGiven then some cs
  else none

/-- The label in ASCII. -/
def toChars (label : Label) : List Char :=
  if label.isPlain then label else marker ++ Punycode.encode label

/-! ## Joiners -/

/-- Keeps apart letters that would join. -/
def nonJoiner : Char := '\u200c'

/-- Joins letters that would stand apart. -/
def joiner : Char := '\u200d'

/-- May one of the two stand between these texts, of which the first is reversed? Both may stand
behind a mark that takes away a vowel, and one of them between letters that join each other. -/
def mayJoin (rev : List Char) (c : Char) (rest : List Char) : Bool :=
  rev.head?.any (combiningClass · = vowelKiller) ||
    (c = nonJoiner &&
      (rev.find? fun d => !Joining.isTransparent d).any Joining.joinsNext &&
      (rest.find? fun d => !Joining.isTransparent d).any Joining.joinsPrevious)

/-- Do all joiners stand where they may, behind text that is reversed? -/
def keepsJoiners (rev : List Char) : List Char → Bool
  | [] => true
  | c :: cs =>
    ((c ≠ nonJoiner && c ≠ joiner) || mayJoin rev c cs) && keepsJoiners (c :: rev) cs

/-- May there be such a label? -/
def isSound (label : Label) : Bool :=
  label.isPlain || (!label.head?.any isMark && keepsJoiners [] label)

/-! ## Directions -/

/-- Is some of the label written from right to left? -/
def isLeftward (label : Label) : Bool := label.any fun c => (Direction.ofChar c).isLeftward

/-- Is the last direction, but for marks, one of these? -/
def endsIn (ends : List Direction) (ds : List Direction) : Bool :=
  (ds.reverse.find? (· ≠ .nonspacingMark)).any ends.contains

/-- Can the label be told from its neighbours when some are written from right to left? Its first
letter sets its direction, its last one or a number keeps it, and all between takes it on. -/
def keepsDirection (label : Label) : Bool :=
  let ds := label.map Direction.ofChar
  let keepsLeftward := !ds.contains .leftToRight &&
    endsIn [.rightToLeft, .arabicLetter, .europeanNumber, .arabicNumber] ds &&
    !(ds.contains .europeanNumber && ds.contains .arabicNumber)
  match ds with
  | [] => true
  | .leftToRight :: _ =>
    !ds.any Direction.isLeftward && endsIn [.leftToRight, .europeanNumber] ds
  | .rightToLeft :: _ => keepsLeftward
  | .arabicLetter :: _ => keepsLeftward
  | _ => false

/-! ## Facts -/

theorem isSound_of_isPlain {label : Label} (h : label.isPlain = true) : label.isSound = true := by
  simp [isSound, h]

theorem toChars_of_isPlain {label : Label} (h : label.isPlain = true) : label.toChars = label := by
  simp [toChars, h]

end Label

end Krl.Uri
