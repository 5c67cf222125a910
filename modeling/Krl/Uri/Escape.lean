import Krl.Text.Digit

/-!
# Escapes in URIs

A character that a part of a URI does not hold as it stands is written as the bytes of its UTF-8,
each as a percent sign and two digits. Percent signs themselves are held, so what is escaped already
is left alone.

* `escape_eq_self`: characters that the part holds stay as they are.
-/

set_option autoImplicit false

namespace Krl.Uri

/-- The parts of a URI that differ in the characters they hold. -/
inductive Part where
  /-- What has no structure. -/
  | bare
  | fragment
  | query
  /-- The query of a file or of a place on a network. -/
  | quotedQuery
  | path
  /-- The name and the password of a user. -/
  | user
deriving DecidableEq, Repr

/-- The ASCII characters, other than control characters, that a part does not hold. -/
def Part.excluded : Part → List Char
  | .bare => []
  | .fragment => [' ', '"', '<', '>', '\x60']
  | .query => [' ', '"', '#', '<', '>']
  | .quotedQuery => [' ', '"', '#', '<', '>', '\'']
  | .path => [' ', '"', '<', '>', '\x60', '#', '?', '{', '}']
  | .user => [' ', '"', '<', '>', '\x60', '#', '?', '{', '}', '/', ':', ';', '=', '@', '[', '\\',
      ']', '^', '|']

/-- Is the character below the space, or the one for deletion? -/
def isControl (c : Char) : Bool := c.toNat < 0x20 || c.toNat = 0x7F

/-- Does the part hold this character as it stands? -/
def Part.holds (part : Part) (c : Char) : Bool :=
  c.toNat < 0x80 && !isControl c && !part.excluded.contains c

def escapeByte (b : UInt8) : List Char :=
  ['%', Text.hexDigit (b.toNat / 16), Text.hexDigit (b.toNat % 16)]

def escapeChar (part : Part) (c : Char) : List Char :=
  if part.holds c then [c] else (String.utf8EncodeChar c).flatMap escapeByte

/-- A text as it is written in a part of a URI. -/
def escape (part : Part) (cs : List Char) : List Char := cs.flatMap (escapeChar part)

/-- The bytes that a text with escapes stands for. A percent sign without two digits stands for
itself. -/
def unescape : List Char → List UInt8
  | [] => []
  | '%' :: c :: d :: cs =>
    match Text.digit? 16 c, Text.digit? 16 d with
    | some m, some n => UInt8.ofNat (m * 16 + n) :: unescape cs
    | _, _ => 0x25 :: unescape (c :: d :: cs)
  | c :: cs => String.utf8EncodeChar c ++ unescape cs

/-! ## Facts -/

@[simp] theorem escape_append (part : Part) (cs ds : List Char) :
    escape part (cs ++ ds) = escape part cs ++ escape part ds := List.flatMap_append

theorem escape_eq_self {part : Part} {cs : List Char} (h : ∀ c ∈ cs, part.holds c) :
    escape part cs = cs := by
  induction cs with
  | nil => rfl
  | cons c cs ih =>
    have hc : escapeChar part c = [c] := by simp [escapeChar, h c List.mem_cons_self]
    have hcs := ih fun d hd => h d (List.mem_cons_of_mem c hd)
    rw [escape, List.flatMap_cons, hc]
    exact congrArg (c :: ·) hcs

end Krl.Uri
