/-!
# Tokens

A lexeme of the source, its lexical category, and where it stands.
-/

set_option autoImplicit false

namespace Krl

namespace Token

/-- Lexical categories. A chevron is a template `<<…>>`; a beesting is an interpolation in it. -/
inductive Kind where
  | whitespace
  | lineComment
  | blockComment
  | number
  | string
  | regexp
  | symbol
  | chevronOpen
  | chevronString
  | beestingOpen
  | beestingClose
  | chevronClose
  /-- An operator or a mark of punctuation. -/
  | raw
  /-- What no rule matches, or what is not closed before the source ends. -/
  | illegal
deriving DecidableEq, Repr

def Kind.name : Kind → String
  | .whitespace => "WHITESPACE"
  | .lineComment => "LINE-COMMENT"
  | .blockComment => "BLOCK-COMMENT"
  | .number => "NUMBER"
  | .string => "STRING"
  | .regexp => "REGEXP"
  | .symbol => "SYMBOL"
  | .chevronOpen => "CHEVRON-OPEN"
  | .chevronString => "CHEVRON-STRING"
  | .beestingOpen => "CHEVRON-BEESTING-OPEN"
  | .beestingClose => "CHEVRON-BEESTING-CLOSE"
  | .chevronClose => "CHEVRON-CLOSE"
  | .raw => "RAW"
  | .illegal => "ILLEGAL"

end Token

/-- A lexeme: its category, its characters, and the offsets at which it starts and ends. -/
structure Token where
  kind : Token.Kind
  text : List Char
  start : Nat
  stop : Nat
deriving DecidableEq, Repr

end Krl
