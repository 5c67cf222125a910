/-!
# Syllables of Hangul

A syllable is one character for a lead, a vowel and perhaps a trail, which are characters too. All
combinations stand in a row: those with the same lead together, and among them those with the same
vowel, where the one without a trail is the first.
-/

set_option autoImplicit false

namespace Krl.Unicode.Hangul

/-- The parts of a syllable; there are 19 leads, 21 vowels, and 27 trails. -/
def apart? (c : Char) : Option (List Char) :=
  if 0xAC00 ≤ c.toNat ∧ c.toNat < 0xAC00 + 19 * 21 * 28 then
    let i := c.toNat - 0xAC00
    let lead := Char.ofNat (0x1100 + i / (21 * 28))
    let vowel := Char.ofNat (0x1161 + i / 28 % 21)
    if i % 28 = 0 then some [lead, vowel]
    else some [lead, vowel, Char.ofNat (0x11A7 + i % 28)]
  else none

def isLead (c : Char) : Bool := 0x1100 ≤ c.toNat && c.toNat < 0x1100 + 19

def isVowel (c : Char) : Bool := 0x1161 ≤ c.toNat && c.toNat < 0x1161 + 21

def isTrail (c : Char) : Bool := 0x11A7 < c.toNat && c.toNat < 0x11A7 + 28

/-- Is the character a syllable without a trail? -/
def isOpen (c : Char) : Bool :=
  0xAC00 ≤ c.toNat && c.toNat < 0xAC00 + 19 * 21 * 28 && (c.toNat - 0xAC00) % 28 = 0

/-- A lead and a vowel, or a syllable without a trail and one, as a syllable. -/
def join? (a b : Char) : Option Char :=
  if isLead a && isVowel b then
    some (Char.ofNat (0xAC00 + ((a.toNat - 0x1100) * 21 + (b.toNat - 0x1161)) * 28))
  else if isOpen a && isTrail b then some (Char.ofNat (a.toNat + (b.toNat - 0x11A7)))
  else none

end Krl.Unicode.Hangul
