/-!
# Reading UTF-8

A sequence of bytes as characters and invalid parts. An invalid part is as long as it can be: the
bytes of a character up to the one that cannot continue it, or one byte that starts no character.

* `lossy_of_strict?`: where nothing is invalid, both ways to read the bytes agree.
-/

set_option autoImplicit false

namespace Krl.Text.Utf8

/-- A character of which some bytes are still to come: its bits so far, the number of missing
bytes, and the range of the next one. -/
structure Begun where
  bits : Nat
  missing : Nat
  low : UInt8
  high : UInt8
deriving DecidableEq

/-- What a first byte starts: a whole character, a longer one, or nothing. The range of the second
byte leaves out overlong forms, surrogates, and numbers beyond the last character. -/
def start (b : UInt8) : Option (Char ⊕ Begun) :=
  if b < 0x80 then some (.inl (Char.ofNat b.toNat))
  else if 0xC2 ≤ b && b ≤ 0xDF then some (.inr ⟨b.toNat - 0xC0, 1, 0x80, 0xBF⟩)
  else if b = 0xE0 then some (.inr ⟨0, 2, 0xA0, 0xBF⟩)
  else if b = 0xED then some (.inr ⟨0xD, 2, 0x80, 0x9F⟩)
  else if 0xE1 ≤ b && b ≤ 0xEF then some (.inr ⟨b.toNat - 0xE0, 2, 0x80, 0xBF⟩)
  else if b = 0xF0 then some (.inr ⟨0, 3, 0x90, 0xBF⟩)
  else if b = 0xF4 then some (.inr ⟨4, 3, 0x80, 0x8F⟩)
  else if 0xF1 ≤ b && b ≤ 0xF3 then some (.inr ⟨b.toNat - 0xF0, 3, 0x80, 0xBF⟩)
  else none

/-- The bytes read so far: the parts in reverse (`none` is an invalid one), and the character that
has begun. -/
structure Reader where
  parts : List (Option Char) := []
  begun : Option Begun := none

namespace Reader

/-- Read a byte where no character has begun. -/
def first (parts : List (Option Char)) (b : UInt8) : Reader :=
  match start b with
  | some (.inl c) => ⟨some c :: parts, none⟩
  | some (.inr g) => ⟨parts, some g⟩
  | none => ⟨none :: parts, none⟩

/-- Read a byte. One that cannot continue the character that has begun makes that an invalid part,
and starts anew. -/
def next (r : Reader) (b : UInt8) : Reader :=
  match r.begun with
  | none => first r.parts b
  | some g =>
    if g.low ≤ b && b ≤ g.high then
      let bits := g.bits * 64 + (b.toNat - 0x80)
      if g.missing = 1 then ⟨some (Char.ofNat bits) :: r.parts, none⟩
      else ⟨r.parts, some ⟨bits, g.missing - 1, 0x80, 0xBF⟩⟩
    else first (none :: r.parts) b

/-- All parts in order; a character cut off by the end is an invalid one. -/
def finish (r : Reader) : List (Option Char) :=
  (if r.begun.isSome then none :: r.parts else r.parts).reverse

end Reader

/-- The characters of a sequence of bytes, with `none` for each invalid part. -/
def parts (bytes : List UInt8) : List (Option Char) :=
  (bytes.foldl Reader.next {}).finish

/-- The text of the bytes, with U+FFFD for each invalid part. -/
def lossy (bytes : List UInt8) : String :=
  String.ofList ((parts bytes).map (·.getD '\uFFFD'))

/-- The text of the bytes, if no part of them is invalid. -/
def strict? (bytes : List UInt8) : Option String :=
  ((parts bytes).mapM id).map String.ofList

/-! ## Facts -/

theorem lossy_of_strict? {bytes : List UInt8} {text : String} (h : strict? bytes = some text) :
    lossy bytes = text := by
  have key : ∀ (ps : List (Option Char)) (cs : List Char), ps.mapM id = some cs →
      ps.map (·.getD '\uFFFD') = cs := by
    intro ps
    induction ps with
    | nil => simp
    | cons p ps ih =>
      intro cs h
      rcases p with _ | c
      · simp [List.mapM_cons] at h
      · simp only [List.mapM_cons, id_eq, Option.bind_eq_bind, Option.bind_some,
          Option.bind_eq_some_iff] at h
        obtain ⟨ds, hds, h⟩ := h
        cases h
        simp [ih ds hds]
  obtain ⟨cs, hcs, rfl⟩ := Option.map_eq_some_iff.1 h
  rw [lossy, key _ _ hcs]

end Krl.Text.Utf8
