import Krl.Text.Split

/-!
# Paths on the command line

Only files below the working directory are read.

* `isSafe_nil`: a path has to have a character.
* `not_mem_components_of_isSafe`: no component of a safe path goes up.
-/

set_option autoImplicit false

namespace Krl.Cli.Path

/-- The parts of a path between slashes. -/
def components (path : List Char) : List (List Char) := Text.split (· = '/') path

/-- The component that goes up. -/
def up : List Char := ['.', '.']

/-- Characters that no path may have. -/
def isForbidden (c : Char) : Bool := c = '\x00' || c = '\n' || c = '\r' || c = '\t'

/-- Does a colon follow a first character of one byte, as behind the letter of a drive? -/
def startsWithDrive : List Char → Bool
  | c :: ':' :: _ => c.toNat < 0x80
  | _ => false

/-- May the file at this path be read? -/
def isSafe (path : List Char) : Bool :=
  !path.isEmpty && path.head? != some '/' && !(components path).contains up &&
    !path.any isForbidden && !startsWithDrive path

/-! ## Facts -/

@[simp] theorem isSafe_nil : isSafe [] = false := rfl

theorem not_mem_components_of_isSafe {path : List Char} (h : isSafe path = true) :
    up ∉ components path := by
  simp only [isSafe, Bool.and_eq_true] at h
  simpa using h.1.1.2

end Krl.Cli.Path
