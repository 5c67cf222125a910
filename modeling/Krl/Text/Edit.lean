/-!
# Editing a text

An editor names a place by a line and a column in UTF-16 units. Here a line ends with LF, CR, CRLF
(one break), VT, FF, U+0085, U+2028 or U+2029.

* `lineFrom?_length_le`, `column_le`, `index_le`: a place is never beyond the end of the text.
* `Change.apply_none`: a change without a range replaces the whole text.
-/

set_option autoImplicit false

namespace Krl.Text

/-! ## Lines -/

/-- Does the character end a line, alone or as part of a CRLF? -/
def isLineBreak (c : Char) : Bool :=
  (0x0A ≤ c.toNat && c.toNat ≤ 0x0D) || c.toNat = 0x85 || c.toNat = 0x2028 || c.toNat = 0x2029

/-- The text behind its first line break. -/
def afterLine? : List Char → Option (List Char)
  | [] => none
  | '\r' :: '\n' :: cs => some cs
  | c :: cs => if isLineBreak c then some cs else afterLine? cs

/-- The text from the start of line `n` on, lines counted from zero. -/
def lineFrom? : Nat → List Char → Option (List Char)
  | 0, cs => some cs
  | n + 1, cs => (afterLine? cs).bind (lineFrom? n)

/-- The number of lines: that of the line breaks, and one more. -/
def lineCount : List Char → Nat
  | [] => 1
  | '\r' :: '\n' :: cs => lineCount cs + 1
  | c :: cs => if isLineBreak c then lineCount cs + 1 else lineCount cs

/-! ## Places -/

/-- A place as an editor names it: a line, and a column in UTF-16 units, both from zero. -/
structure Cursor where
  line : Nat
  column : Nat
deriving DecidableEq, Repr

/-- The UTF-16 units of a character: two beyond U+FFFF, else one. -/
def units (c : Char) : Nat := if 0xFFFF < c.toNat then 2 else 1

/-- The number of characters of a line that end within the first `width` UTF-16 units, where the
text starts with that line. LF and CR are never counted; another line break is a character of the
line that it ends. -/
def column (width : Nat) : List Char → Nat
  | [] => 0
  | c :: cs =>
    if c = '\n' ∨ c = '\r' ∨ width < units c then 0
    else if isLineBreak c then 1
    else column (width - units c) cs + 1

/-- The character index of a place: within its line at most the line's end, and in a line that the
text has not the text's end. -/
def index (cs : List Char) (p : Cursor) : Nat :=
  match lineFrom? p.line cs with
  | some rest => cs.length - rest.length + column p.column rest
  | none => cs.length

/-- The text of the cursor's line in front of the cursor. -/
def lineHead (cs : List Char) (p : Cursor) : List Char :=
  match lineFrom? p.line cs with
  | some rest => rest.take (column p.column rest)
  | none => []

/-! ## Changes -/

/-- One edit: new text in place of a range, or of everything. -/
structure Change where
  range : Option (Cursor × Cursor)
  text : List Char
deriving DecidableEq, Repr

/-- The text after the edit. The ends of the range may come in either order. -/
def Change.apply (change : Change) (cs : List Char) : List Char :=
  match change.range with
  | none => change.text
  | some (p, q) =>
    let i := index cs p
    let j := index cs q
    cs.take (min i j) ++ change.text ++ cs.drop (max i j)

/-- The text after edits, each applied to what the previous one left. -/
def Change.applyAll (changes : List Change) (cs : List Char) : List Char :=
  changes.foldl (fun cs change => change.apply cs) cs

/-! ## Facts -/

theorem afterLine?_length {cs rest : List Char} (h : afterLine? cs = some rest) :
    rest.length < cs.length := by
  fun_induction afterLine? cs with
  | case1 => simp at h
  | case2 cs =>
    cases h
    simp only [List.length_cons]
    omega
  | case3 c cs _ hc =>
    cases h
    exact Nat.lt_succ_self _
  | case4 c cs _ hc ih => exact Nat.lt_succ_of_lt (ih h)

theorem lineFrom?_length_le {n : Nat} {cs rest : List Char} (h : lineFrom? n cs = some rest) :
    rest.length ≤ cs.length := by
  induction n generalizing cs with
  | zero => cases h; exact Nat.le_refl _
  | succ n ih =>
    obtain ⟨mid, hmid, h⟩ := Option.bind_eq_some_iff.1 h
    exact Nat.le_of_lt (Nat.lt_of_le_of_lt (ih h) (afterLine?_length hmid))

theorem column_le (width : Nat) (cs : List Char) : column width cs ≤ cs.length := by
  fun_induction column width cs <;> simp_all

theorem index_le (cs : List Char) (p : Cursor) : index cs p ≤ cs.length := by
  unfold index
  split
  · next rest h =>
    have := lineFrom?_length_le h
    have := column_le p.column rest
    omega
  · exact Nat.le_refl _

@[simp] theorem Change.apply_none (text cs : List Char) : Change.apply ⟨none, text⟩ cs = text := rfl

@[simp] theorem Change.applyAll_nil (cs : List Char) : Change.applyAll [] cs = cs := rfl

@[simp] theorem Change.applyAll_cons (change : Change) (changes : List Change) (cs : List Char) :
    Change.applyAll (change :: changes) cs = Change.applyAll changes (change.apply cs) := rfl

end Krl.Text
