import Krl.Json

/-!
# Writing JSON

One printer, with a style that says where lines break. In the pretty style each item and each field
stands on a line of its own, two blanks further in than its array or object; an array or object
without any is written in one piece.

* `escape_ne_nil`: a character of a string is written as one or more.
* `write_array_nil`, `write_object_nil`: empty arrays and objects.
-/

set_option autoImplicit false

namespace Krl.Json

/-! ## Strings -/

def hexDigit (n : Nat) : Char := if n < 10 then Char.ofNat (48 + n) else Char.ofNat (87 + n)

/-- A character as it is written in a string: quote, backslash and control characters are
escaped. -/
def escape (c : Char) : List Char :=
  if c = '"' then ['\\', '"']
  else if c = '\\' then ['\\', '\\']
  else if c = '\x08' then ['\\', 'b']
  else if c = '\t' then ['\\', 't']
  else if c = '\n' then ['\\', 'n']
  else if c = '\x0c' then ['\\', 'f']
  else if c = '\r' then ['\\', 'r']
  else if c.toNat < 0x20 then
    ['\\', 'u', '0', '0', hexDigit (c.toNat / 16), hexDigit (c.toNat % 16)]
  else [c]

/-- A text as a string literal. -/
def quote (cs : List Char) : List Char := '"' :: (cs.flatMap escape ++ ['"'])

/-! ## Values -/

/-- How a value is laid out. -/
structure Style where
  /-- What stands in front of an item or a closing bracket at this depth. -/
  newline : Nat → List Char
  /-- What stands between the name and the value of a field. -/
  colon : List Char

/-- No blanks at all. -/
def Style.compact : Style := ⟨fun _ => [], [':']⟩

/-- Every item on a line of its own. -/
def Style.pretty : Style := ⟨fun depth => '\n' :: List.replicate (2 * depth) ' ', [':', ' ']⟩

mutual

/-- The text of a value inside of `depth` arrays and objects. -/
def write (style : Style) (depth : Nat) : Json → List Char
  | .null => ['n', 'u', 'l', 'l']
  | .bool true => ['t', 'r', 'u', 'e']
  | .bool false => ['f', 'a', 'l', 's', 'e']
  | .int n => (Numeral.ofInt n).toChars
  | .real x => x.toChars
  | .string s => quote s.toList
  | .array [] => ['[', ']']
  | .array (v :: vs) =>
    '[' :: (style.newline (depth + 1) ++ write style (depth + 1) v ++ writeItems style depth vs)
  | .object [] => ['{', '}']
  | .object (f :: fs) =>
    '{' :: (style.newline (depth + 1) ++ writeField style (depth + 1) f ++
      writeFields style depth fs)

/-- The items of an array behind its first one, and its end. -/
def writeItems (style : Style) (depth : Nat) : List Json → List Char
  | [] => style.newline depth ++ [']']
  | v :: vs =>
    ',' :: (style.newline (depth + 1) ++ write style (depth + 1) v ++ writeItems style depth vs)

/-- The fields of an object behind its first one, and its end. -/
def writeFields (style : Style) (depth : Nat) : List (String × Json) → List Char
  | [] => style.newline depth ++ ['}']
  | f :: fs =>
    ',' :: (style.newline (depth + 1) ++ writeField style (depth + 1) f ++
      writeFields style depth fs)

def writeField (style : Style) (depth : Nat) : String × Json → List Char
  | (name, v) => quote name.toList ++ style.colon ++ write style depth v

end

/-- The text of a value on one line. -/
def render (value : Json) : String := String.ofList (write .compact 0 value)

/-- The text of a value with an item to a line. -/
def pretty (value : Json) : String := String.ofList (write .pretty 0 value)

/-! ## Facts -/

theorem escape_ne_nil (c : Char) : escape c ≠ [] := by
  unfold escape
  repeat' split
  all_goals simp

theorem write_array_nil (style : Style) (depth : Nat) :
    write style depth (.array []) = ['[', ']'] := by
  simp [write]

theorem write_object_nil (style : Style) (depth : Nat) :
    write style depth (.object []) = ['{', '}'] := by
  simp [write]

end Krl.Json
