import Krl.Text.Blank
import Krl.Text.Utf8

/-!
# External programs

Parsing and compiling is done by programs outside. Such a program gets the source on its standard
input and answers on its standard output, or on its standard error.

* `Command.ofWords?_eq_some_iff`: which lists of words are commands.
-/

set_option autoImplicit false

namespace Krl.Tool

/-! ## Commands -/

/-- A program and its arguments. -/
structure Command where
  program : String
  args : List String
deriving DecidableEq, Repr

/-- The command that a list of words is; the first word is the program, and not blank. -/
def Command.ofWords? : List String → Option Command
  | [] => none
  | program :: args =>
    if Text.trim program.toList = [] then none else some ⟨program, args⟩

/-- The command of a line of words with blanks between them. -/
def Command.ofLine? (line : String) : Option Command :=
  ofWords? ((Text.words line.toList).map String.ofList)

/-! ## Runs -/

/-- What a program that has ended leaves. -/
structure Output where
  success : Bool
  stdout : String
  stderr : String
deriving DecidableEq, Repr

/-- The output of a program that ended with this status; bytes that are no text are replaced. -/
def Output.ofStatus (status : Int) (stdout stderr : List UInt8) : Output :=
  ⟨status = 0, Text.Utf8.lossy stdout, Text.Utf8.lossy stderr⟩

/-- A program could not be started, for a reason that the operating system gives. -/
structure StartFailure where
  program : String
  reason : String
deriving DecidableEq, Repr

def StartFailure.describe (e : StartFailure) : String :=
  s!"failed to start '{e.program}': {e.reason}"

/-- The reason why a program that does not exist cannot be started. -/
def noSuchFile : String := "No such file or directory (os error 2)"

/-- Where commands run: what each of them makes of an input. -/
structure Host where
  run : Command → String → Except StartFailure Output

/-! ## Facts -/

theorem Command.ofWords?_eq_some_iff {words : List String} {command : Command} :
    ofWords? words = some command ↔
      words = command.program :: command.args ∧ Text.trim command.program.toList ≠ [] := by
  cases words with
  | nil => simp [ofWords?]
  | cons program args =>
    rcases command with ⟨p, as⟩
    simp only [ofWords?]
    split
    · simp; rintro rfl; simp_all
    · simp; rintro rfl; simp_all

end Krl.Tool
