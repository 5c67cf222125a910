import Krl.Node.Reading
import Krl.Tool.Reply

/-!
# The parser

A parser that succeeds prints the tree of the ruleset as JSON. One that fails prints a record with
a message, and perhaps a line and a column.

* `parse_unconfigured`: without a parser nothing parses.
-/

set_option autoImplicit false

namespace Krl.Tool

open Json (Tree Record)

/-- Why a source has no tree. -/
structure ParseFailure where
  message : String
  position : Option Place
deriving DecidableEq, Repr

namespace ParseFailure

def describe (e : ParseFailure) : String := messageAt e.message e.position

def unplaced (message : String) : ParseFailure := ⟨message, none⟩

def unconfigured : ParseFailure := .unplaced "no KRL parser configured"

def notStarted (e : StartFailure) : ParseFailure :=
  .unplaced s!"failed to run KRL parser: {e.describe}"

def invalidJson : ParseFailure := .unplaced "KRL parser produced invalid JSON:"

def malformed (e : Node.Malformed) : ParseFailure := .unplaced e.describe

/-- A failure as the parser writes it. A column without a line is no position; a line without a
column is one at column zero. -/
def ofTree? (t : Tree) : Option ParseFailure := do
  let r ← Record.ofTree? ["message", "line", "column"] t
  let message ← r.required 0 Tree.string?
  let line ← r.optional 1 Tree.word?
  let column ← r.optional 2 Tree.word?
  some ⟨message, line.map fun line => ⟨line, column.getD 0⟩⟩

/-- The failure that a program's output tells of. -/
def ofOutput (out : Output) : ParseFailure :=
  (out.decode? ofTree?).getD (.unplaced out.message)

end ParseFailure

/-- The tree that a parser's output gives. -/
def nodeOfOutput (out : Output) : Except ParseFailure Node :=
  if out.success then
    match Json.ofChars? (Text.trim out.stdout.toList) with
    | none => .error .invalidJson
    | some value => (Node.ofJson value).mapError .malformed
  else .error (.ofOutput out)

/-- Parse a source with a command, if there is one. -/
def parse (host : Host) (command : Option Command) (source : String) :
    Except ParseFailure Node :=
  match command with
  | none => .error .unconfigured
  | some command =>
    match host.run command source with
    | .error e => .error (.notStarted e)
    | .ok out => nodeOfOutput out

theorem parse_unconfigured (host : Host) (source : String) :
    parse host none source = .error .unconfigured := rfl

end Krl.Tool
