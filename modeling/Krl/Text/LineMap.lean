import Krl.Word

/-!
# Lines of a text

Where the lines of a text start, to turn a character offset into a line and a column. Lines end
at LF only; lines, columns and offsets count from zero. The offsets of a text are any numbers, but
its lines and columns are words: a number that is none leaves what a word holds of it.

* `starts_ofChars`: the starts are 0 and the offset behind each LF.
* `locate_offset`: an offset beyond the end counts as the end.
-/

set_option autoImplicit false

namespace Krl

/-- A place in a text: its line, its column in that line, and its offset. -/
structure Location where
  line : UInt32
  column : UInt32
  offset : Nat
deriving DecidableEq, Repr

def Location.display (p : Location) : Except Overflow String := Word.place p.line p.column

/-- The offsets at which the lines of a text start, and the number of its characters. -/
structure LineMap where
  starts : Array Nat
  length : Nat
deriving DecidableEq, Repr

namespace LineMap

/-- What a search in ascending numbers finds: the index of the number itself, or the index of
the first larger one. -/
inductive Slot where
  | found (index : Nat)
  | before (next : Nat)
deriving DecidableEq, Repr

/-- The map of a text: the first line starts at 0, each other one behind an LF. -/
def ofChars (cs : List Char) : LineMap where
  starts := (0 :: (cs.zipIdx 1).filterMap fun p => if p.1 = '\n' then some p.2 else none).toArray
  length := cs.length

def ofText (text : String) : LineMap := ofChars text.toList

/-- How many lines there are. -/
def size (lines : LineMap) : Nat := lines.starts.size

/-- How many lines there are, as a word. -/
def lineCount (lines : LineMap) : UInt32 := .ofNat lines.size

/-- Binary search for `offset` among the numbers at `lo, …, hi - 1`. -/
def search (starts : Array Nat) (offset lo hi : Nat) (h : hi ≤ starts.size) : Slot :=
  if hlt : lo < hi then
    let mid := lo + (hi - lo) / 2
    have hmid : mid < starts.size := by omega
    if starts[mid] = offset then .found mid
    else if starts[mid] < offset then search starts offset (mid + 1) hi h
    else search starts offset lo mid (by omega)
  else .before lo
termination_by hi - lo

/-- The line that a search result stands for: the last one that starts at or before the offset. -/
def Slot.line : Slot → Nat
  | .found line => line
  | .before next => next - 1

/-- The place of an offset; one beyond the end counts as the end. -/
def locate (lines : LineMap) (offset : Nat) : Location :=
  let offset := min offset lines.length
  let line := (search lines.starts offset 0 lines.starts.size (Nat.le_refl _)).line
  ⟨.ofNat line, .ofNat (offset - lines.starts.getD line 0), offset⟩

def lineAt (lines : LineMap) (offset : Nat) : UInt32 := (lines.locate offset).line

/-! ## Facts -/

@[simp] theorem length_ofChars (cs : List Char) : (ofChars cs).length = cs.length := rfl

theorem starts_ofChars (cs : List Char) : (ofChars cs).starts.toList =
    0 :: (cs.zipIdx 1).filterMap fun p => if p.1 = '\n' then some p.2 else none := rfl

@[simp] theorem locate_offset (lines : LineMap) (offset : Nat) :
    (lines.locate offset).offset = min offset lines.length := rfl

end LineMap

end Krl
