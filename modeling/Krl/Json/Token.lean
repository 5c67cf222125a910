import Krl.Json.Numeral
import Krl.Text.Digit

/-!
# Tokens of JSON

The reader of tokens takes one character at a time, so it is a fold over the text.

* `tokens?_append`: reading a text in two parts.
-/

set_option autoImplicit false

namespace Krl.Json

/-! ## Strings as written -/

/-- One item of a string: a character, or a UTF-16 unit written as `\uXXXX`. -/
inductive StringItem where
  | char (c : Char)
  | unit (u : Nat)
deriving DecidableEq, Repr

/-- The character of a pair of surrogates. -/
def pairChar (high low : Nat) : Char :=
  Char.ofNat (0x10000 + (high - 0xD800) * 0x400 + (low - 0xDC00))

/-- The text of a string, unless it has a surrogate that is not part of a pair. -/
def StringItem.text? : List StringItem → Option (List Char)
  | [] => some []
  | .char c :: rest => (text? rest).map (c :: ·)
  | .unit u :: rest =>
    if 0xD800 ≤ u ∧ u < 0xDC00 then
      match rest with
      | .unit v :: rest =>
        if 0xDC00 ≤ v ∧ v < 0xE000 then (text? rest).map (pairChar u v :: ·) else none
      | _ => none
    else if 0xDC00 ≤ u ∧ u < 0xE000 then none
    else (text? rest).map (Char.ofNat u :: ·)

/-! ## Tokens -/

inductive Token where
  | openArray
  | closeArray
  | openObject
  | closeObject
  | colon
  | comma
  | null
  | bool (b : Bool)
  | number (x : Numeral)
  | string (s : List StringItem)
deriving DecidableEq, Repr

namespace Token

/-- A token of one character. -/
def ofMark? : Char → Option Token
  | '[' => some .openArray
  | ']' => some .closeArray
  | '{' => some .openObject
  | '}' => some .closeObject
  | ':' => some .colon
  | ',' => some .comma
  | _ => none

/-- A token that is neither a mark nor a string. -/
def ofWord? (word : List Char) : Option Token :=
  if word = ['n', 'u', 'l', 'l'] then some .null
  else if word = ['t', 'r', 'u', 'e'] then some (.bool true)
  else if word = ['f', 'a', 'l', 's', 'e'] then some (.bool false)
  else (Numeral.ofChars? word).map .number

/-- JSON knows four blanks. -/
def isBlank (c : Char) : Bool := c = ' ' || c = '\t' || c = '\n' || c = '\r'

/-- The character that a backslash and this one stand for. -/
def escaped? : Char → Option Char
  | '"' => some '"'
  | '\\' => some '\\'
  | '/' => some '/'
  | 'b' => some '\x08'
  | 'f' => some '\x0c'
  | 'n' => some '\n'
  | 'r' => some '\r'
  | 't' => some '\t'
  | _ => none

/-- Where in a token the reader is. Characters and items read so far stand in reverse. -/
inductive Place where
  | between
  | word (rev : List Char)
  | string (rev : List StringItem)
  | escape (rev : List StringItem)
  | hex (rev : List StringItem) (missing : Nat) (unit : Nat)
deriving DecidableEq, Repr

/-- What the reader of tokens has found so far, in reverse, and where it is. -/
structure Reader where
  place : Place := .between
  rev : List Token := []
deriving DecidableEq, Repr

namespace Reader

/-- Complete the word that the reader is in, if any; there is no completing a string. -/
def settle? (r : Reader) : Option (List Token) :=
  match r.place with
  | .between => some r.rev
  | .word w => (ofWord? w.reverse).map (· :: r.rev)
  | _ => none

/-- Read a character outside of strings. -/
def outside? (r : Reader) (c : Char) : Option Reader :=
  if c = '"' then (settle? r).map fun rev => ⟨.string [], rev⟩
  else if isBlank c then (settle? r).map fun rev => ⟨.between, rev⟩
  else
    match ofMark? c with
    | some token => (settle? r).map fun rev => ⟨.between, token :: rev⟩
    | none =>
      match r.place with
      | .word w => some ⟨.word (c :: w), r.rev⟩
      | _ => some ⟨.word [c], r.rev⟩

/-- Read a character. Control characters have no place in a string. -/
def next? (r : Reader) (c : Char) : Option Reader :=
  match r.place with
  | .string s =>
    if c = '"' then some ⟨.between, .string s.reverse :: r.rev⟩
    else if c = '\\' then some ⟨.escape s, r.rev⟩
    else if c.toNat < 0x20 then none
    else some ⟨.string (.char c :: s), r.rev⟩
  | .escape s =>
    if c = 'u' then some ⟨.hex s 4 0, r.rev⟩
    else (escaped? c).map fun d => ⟨.string (.char d :: s), r.rev⟩
  | .hex s missing unit =>
    (Text.hexDigit? c).map fun d =>
      let unit := unit * 16 + d
      if missing ≤ 1 then ⟨.string (.unit unit :: s), r.rev⟩
      else ⟨.hex s (missing - 1) unit, r.rev⟩
  | _ => outside? r c

end Reader

/-- The tokens of a text. -/
def tokens? (cs : List Char) : Option (List Token) :=
  (cs.foldlM Reader.next? {}).bind fun r => r.settle?.map List.reverse

/-! ## Facts -/

theorem tokens?_append (cs ds : List Char) : tokens? (cs ++ ds) =
    (cs.foldlM Reader.next? {}).bind fun r =>
      (ds.foldlM Reader.next? r).bind fun r => r.settle?.map List.reverse := by
  simp only [tokens?, List.foldlM_append, Option.bind_eq_bind, Option.bind_assoc]

end Token

end Krl.Json
