import Krl.Tool.Reply

/-!
# The compiler

A compiler that succeeds prints a record with its warnings. One that fails prints a record with a
message and perhaps with one of two sorts of place.

* `compile_unconfigured`: without a compiler nothing is reported.
-/

set_option autoImplicit false

namespace Krl.Tool

open Json (Tree Record)

structure Warning where
  message : String
  start : Place
deriving DecidableEq, Repr

/-- Where a failure is. The two sorts of place count columns differently. -/
inductive Anchor where
  /-- A place of its own, with columns from one. -/
  | direct (p : Place)
  /-- The start of a location of the compiler's, with columns from zero. -/
  | indirect (p : Place)
  | absent
deriving DecidableEq, Repr

def Anchor.point? : Anchor → Option Place
  | .direct p | .indirect p => some p
  | .absent => none

structure CompileFailure where
  message : String
  anchor : Anchor
deriving DecidableEq, Repr

/-- What a compiler has to say on a source: warnings, or why it failed. -/
abbrev Compiled := Except CompileFailure (List Warning)

/-! ## Replies -/

/-- A warning as the compiler writes it. -/
def Warning.ofTree? (t : Tree) : Option Warning := do
  let r ← Record.ofTree? ["message", "loc"] t
  let message ← r.required 0 Tree.string?
  let start ← r.required 1 startOf?
  some ⟨message, start⟩

/-- The warnings of a compiler that succeeds; there need not be any. -/
def warningsOfTree? (t : Tree) : Option (List Warning) := do
  let r ← Record.ofTree? ["warnings"] t
  r.withDefault 0 [] (Tree.list? Warning.ofTree?)

/-- A place of its own; it need not have a column. -/
def directOfTree? (t : Tree) : Option Place := do
  let r ← Record.ofTree? ["line", "col"] t
  let line ← r.required 0 Tree.word?
  let column ← r.withDefault 1 0 Tree.word?
  some ⟨line, column⟩

/-- The location in what the compiler tells of itself. -/
def indirectOfTree? (t : Tree) : Option (Option Place) := do
  let r ← Record.ofTree? ["loc"] t
  r.optional 0 startOf?

/-- The place that counts: one of its own unless its line is zero, else the location. -/
def Anchor.of (direct indirect : Option Place) : Anchor :=
  match direct.filter fun p => 0 < p.line, indirect with
  | some p, _ => .direct p
  | none, some p => .indirect p
  | none, none => .absent

namespace CompileFailure

def describe (e : CompileFailure) : String := messageAt e.message e.anchor.point?

def unplaced (message : String) : CompileFailure := ⟨message, .absent⟩

def notStarted (e : StartFailure) : CompileFailure :=
  .unplaced s!"failed to run KRL compiler: {e.describe}"

def invalidJson : CompileFailure := .unplaced "KRL compiler produced invalid JSON:"

/-- A failure as the compiler writes it. -/
def ofTree? (t : Tree) : Option CompileFailure := do
  let r ← Record.ofTree? ["message", "where", "krl_compiler"] t
  let message ← r.required 0 Tree.string?
  let direct ← r.optional 1 directOfTree?
  let indirect ← r.optional 2 indirectOfTree?
  some ⟨message, .of direct indirect.join⟩

/-- The failure that a program's output tells of. -/
def ofOutput (out : Output) : CompileFailure :=
  (out.decode? ofTree?).getD (.unplaced out.message)

end CompileFailure

/-! ## Compiling -/

/-- What a compiler's output says. -/
def compiledOfOutput (out : Output) : Compiled :=
  if out.success then
    match Output.readFrom? warningsOfTree? out.stdout with
    | none => .error .invalidJson
    | some warnings => .ok warnings
  else .error (.ofOutput out)

/-- Compile a source with a command, if there is one. -/
def compile (host : Host) (command : Option Command) (source : String) : Compiled :=
  match command with
  | none => .ok []
  | some command =>
    match host.run command source with
    | .error e => .error (.notStarted e)
    | .ok out => compiledOfOutput out

theorem compile_unconfigured (host : Host) (source : String) :
    compile host none source = .ok [] := rfl

end Krl.Tool
