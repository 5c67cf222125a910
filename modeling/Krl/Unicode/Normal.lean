import Krl.Unicode.CombiningClass
import Krl.Unicode.Composite
import Krl.Unicode.Hangul

/-!
# The composed normal form

A letter with a mark is one character or two, and marks that do not touch each other stand in any
order: one text can be written in many ways. In its composed normal form all characters have been
taken apart, the marks put in order, and what makes up a character put together again.
-/

set_option autoImplicit false

namespace Krl.Unicode

/-! ## Parts -/

/-- The parts of a character. -/
def apart (c : Char) : List Char := (Hangul.apart? c).getD (Composite.apart c)

/-- Two characters as one. -/
def join? (a b : Char) : Option Char := (Hangul.join? a b).or (Composite.join? a b)

/-! ## Order -/

/-- May the character `c` stand right behind `d`? -/
def follows (d c : Char) : Bool :=
  combiningClass c = 0 || combiningClass d ≤ combiningClass c

/-- Put a character behind a text, whose last one stands first: a mark goes in front of those of
higher classes. -/
def place (rev : List Char) (c : Char) : List Char :=
  match rev with
  | [] => [c]
  | d :: ds => if follows d c then c :: d :: ds else d :: place ds c

/-- The text with marks in order. -/
def ordered (cs : List Char) : List Char := (cs.foldl place []).reverse

/-! ## Composition -/

/-- Does a mark before `c`, of which the last one stands first, keep it from the base of all? -/
def blocks (marks : List Char) (c : Char) : Bool :=
  marks.head?.any fun m => combiningClass c ≤ combiningClass m

/-- Put together a base and what follows it; the marks between have not been joined. -/
def composeFrom (base : Char) (marks : List Char) : List Char → List Char
  | [] => base :: marks.reverse
  | c :: cs =>
    match if blocks marks c then none else join? base c with
    | some whole => composeFrom whole marks cs
    | none =>
      if combiningClass c = 0 then base :: marks.reverse ++ composeFrom c [] cs
      else composeFrom base (c :: marks) cs

/-- Put together each base and its marks. -/
def compose : List Char → List Char
  | [] => []
  | c :: cs => if combiningClass c = 0 then composeFrom c [] cs else c :: compose cs

/-- The composed normal form of a text. -/
def normal (cs : List Char) : List Char := compose (ordered (cs.flatMap apart))

end Krl.Unicode
