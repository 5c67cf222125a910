import Krl.Json.Record
import Krl.Tool

/-!
# Replies of external programs

A program that fails may say why in a JSON record on one of its outputs; if it does not, what it
has written is the message.

* `decode?_eq_some`: standard output is asked first.
-/

set_option autoImplicit false

namespace Krl.Tool

open Json (Tree Record)

/-- A place as the programs report it: lines count from one; what a column counts is theirs. -/
structure Place where
  line : UInt32
  column : UInt32
deriving DecidableEq, Repr

def Place.display (p : Place) : String := s!"{p.line.toNat}:{p.column.toNat}"

/-- A message, with the place it is about. -/
def messageAt (message : String) : Option Place → String
  | some p => s!"{message} at {p.display}"
  | none => message

/-- A point as a program writes it. -/
def Place.ofTree? (t : Tree) : Option Place := do
  let r ← Record.ofTree? ["line", "column"] t
  let line ← r.required 0 Tree.word?
  let column ← r.required 1 Tree.word?
  some ⟨line, column⟩

/-- The start of a location as a program writes it. -/
def startOf? (t : Tree) : Option Place := do
  let r ← Record.ofTree? ["start"] t
  r.required 0 Place.ofTree?

namespace Output

variable {α : Type}

/-- What is read from an output, with blanks around it. -/
def readFrom? (read : Tree → Option α) (text : String) : Option α :=
  (Tree.ofChars? (Text.trim text.toList)).bind read

/-- What is read from the first output that it can be read from. -/
def decode? (out : Output) (read : Tree → Option α) : Option α :=
  (readFrom? read out.stdout).or (readFrom? read out.stderr)

/-- What a failed program has written: its errors, else its answer. -/
def message (out : Output) : String :=
  let errors := Text.trim out.stderr.toList
  let text := if errors = [] then Text.trim out.stdout.toList else errors
  if text = [] then "KRL tool exited with an error" else String.ofList text

theorem decode?_eq_some {out : Output} {read : Tree → Option α} {a : α}
    (h : readFrom? read out.stdout = some a) : out.decode? read = some a := by
  simp [decode?, h]

end Output

end Krl.Tool
