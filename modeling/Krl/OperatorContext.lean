import Krl.Text.Blank
import Krl.Text.Pattern

/-!
# Operator context

Is an operator being applied in front of the cursor? That is so behind the end of an expression, a
point, and what has been typed of the operator's name, with blanks around the point.
-/

set_option autoImplicit false

namespace Krl.OperatorContext

/-- A character that can be the last one of an expression. -/
def endsExpression (c : Char) : Bool :=
  c.isAlphanum || c = '_' || c = '$' || c = ')' || c = ']' || c = '}' || c = '"' || c = '>'

/-- A character of the name of an operator that is being typed. -/
def isNamePart (c : Char) : Bool := c.isAlpha || c = '_' || c = '$'

/-- What stands in front of the cursor where an operator is being applied. -/
def pattern : List Text.Piece :=
  [.one endsExpression, .many Text.isBlank, .one (· = '.'), .many Text.isBlank, .many isNamePart]

/-- Is an operator being applied where this text ends? -/
def holds (text : List Char) : Bool := Text.endsWith pattern text

end Krl.OperatorContext
