import Krl.Cli.Path
import Krl.Text.Utf8

/-!
# Folders

Files in a folder and its subfolders, and how they are found by a path.

* `find_empty`: an empty folder holds nothing but itself.
-/

set_option autoImplicit false

namespace Krl.Cli

/-- Why a file could not be read, as the operating system says it. -/
abbrev ReadFailure := String

namespace ReadFailure

def noSuchFile : ReadFailure := "No such file or directory (os error 2)"

def notADirectory : ReadFailure := "Not a directory (os error 20)"

def isADirectory : ReadFailure := "Is a directory (os error 21)"

def invalidUtf8 : ReadFailure := "stream did not contain valid UTF-8"

end ReadFailure

/-- The text of bytes that were read. -/
def decode (bytes : List UInt8) : Except ReadFailure String :=
  match Text.Utf8.strict? bytes with
  | some text => .ok text
  | none => .error .invalidUtf8

/-- Files, each by the components of its path and with its bytes. -/
structure Folder where
  files : List (List (List Char) × List UInt8) := []

namespace Folder

/-- The components that go somewhere. -/
def steps (path : List (List Char)) : List (List Char) :=
  path.filter fun c => c ≠ [] && c ≠ ['.']

/-- The bytes of the file with exactly these components. -/
def file? (folder : Folder) (place : List (List Char)) : Option (List UInt8) :=
  folder.files.lookup place

/-- Is there a subfolder of this name? The folder itself is one without a name. -/
def hasFolder (folder : Folder) (place : List (List Char)) : Bool :=
  place.isEmpty || folder.files.any fun f => place.isPrefixOf f.1 && f.1.length > place.length

/-- The bytes of the file at a path. What stands behind the name of a file is no part of a path,
and every place on the way has to be there. -/
def find (folder : Folder) (place : List (List Char)) :
    List (List Char) → Except ReadFailure (List UInt8)
  | [] =>
    match folder.file? place with
    | some bytes => .ok bytes
    | none => if folder.hasFolder place then .error .isADirectory else .error .noSuchFile
  | c :: path =>
    if (folder.file? place).isSome then .error .notADirectory
    else if !folder.hasFolder place then .error .noSuchFile
    else if c = [] ∨ c = ['.'] then find folder place path
    else find folder (place ++ [c]) path

/-- The text of the file at a path. -/
def read (folder : Folder) (path : String) : Except ReadFailure String :=
  folder.find [] (Path.components path.toList) >>= decode

/-- The folder of these files. -/
def ofFiles (files : List (String × List UInt8)) : Folder :=
  ⟨files.map fun f => (steps (Path.components f.1.toList), f.2)⟩

/-! ## Facts -/

theorem find_empty : find {} [] [] = .error .isADirectory := rfl

end Folder

end Krl.Cli
