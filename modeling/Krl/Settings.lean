import Krl.Json.Record
import Krl.Tool

/-!
# Settings

What a user may set: how many problems are shown, how long an edit waits for its analysis, and the
commands of the parser and of the compiler. A section of settings is a JSON record in which every
field may be absent or `null`, and then changes nothing.

* `overlay?_null`: `null` is a section without fields.
* `overlay?_eq`: what an accepted section makes of the settings.
-/

set_option autoImplicit false

namespace Krl

open Json (Tree Record)
open Tool (Command)

structure Settings where
  maxProblems : Nat := 1000
  /-- The wait between an edit and its analysis, in milliseconds. -/
  debounce : Nat := 250
  parser : Option Command := none
  compiler : Option Command := none
deriving DecidableEq, Repr

namespace Settings

/-- The settings of an environment that names commands by a line of words each. -/
def ofLines (parser compiler : Option String) : Settings :=
  { parser := parser.bind Command.ofLine?, compiler := compiler.bind Command.ofLine? }

/-- What a section of settings gives. -/
structure Section where
  maxProblems : Option Nat := none
  debounce : Option Nat := none
  parser : Option (List String) := none
  compiler : Option (List String) := none
deriving DecidableEq, Repr

/-- The words of a command, as a section gives them. -/
def commandOfTree? (t : Tree) : Option (Option (List String)) := do
  let r ← Record.ofTree? ["command"] t
  r.withDefault 0 none (Tree.nullable (Tree.list? Tree.string?))

def Section.ofTree? (t : Tree) : Option Section := do
  let r ← Record.ofTree? ["maxNumberOfProblems", "debounceMs", "parser", "compiler"] t
  let maxProblems ← r.withDefault 0 none (Tree.nullable Tree.nat?)
  let debounce ← r.withDefault 1 none (Tree.nullable Tree.nat?)
  let parser ← r.withDefault 2 none commandOfTree?
  let compiler ← r.withDefault 3 none commandOfTree?
  some ⟨maxProblems, debounce, parser, compiler⟩

/-- The settings with what a section gives in their place; words that are no command give none. -/
def apply (s : Settings) (given : Section) : Settings where
  maxProblems := given.maxProblems.getD s.maxProblems
  debounce := given.debounce.getD s.debounce
  parser := (given.parser.bind Command.ofWords?).or s.parser
  compiler := (given.compiler.bind Command.ofWords?).or s.compiler

/-- The settings with a section laid over them, if the value is one. -/
def overlay? (s : Settings) (value : Json) : Option Settings :=
  match value with
  | .null => some s
  | _ => (Section.ofTree? value.tree).map s.apply

/-! ## Facts -/

@[simp] theorem overlay?_null (s : Settings) : s.overlay? .null = some s := rfl

theorem overlay?_eq {s t : Settings} {value : Json} (h : s.overlay? value = some t) :
    ∃ given : Section, t = s.apply given := by
  unfold overlay? at h
  split at h
  · cases h
    exact ⟨{}, rfl⟩
  · obtain ⟨given, -, rfl⟩ := Option.map_eq_some_iff.1 h
    exact ⟨given, rfl⟩

end Settings

end Krl
