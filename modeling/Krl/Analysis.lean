import Krl.Completion
import Krl.Diagnostic
import Krl.Outline
import Krl.Settings
import Krl.Token.Lexer
import Krl.Tool.Parser

/-!
# Analysis of a source

What an editor needs to know about one version of a source. The tree gives outline and completions;
a source that does not parse has no outline, and its tokens give the completions.

* `of_ok`, `of_error`: the two cases.
-/

set_option autoImplicit false

namespace Krl

open Tool

structure Analysis where
  tree : Option Node
  symbols : List Symbol
  completions : List Completion
  diagnostics : List Diagnostic

namespace Analysis

/-- The analysis of a source that was parsed and compiled with these outcomes. -/
def of (source : String) (parsed : Except ParseFailure Node) (compiled : Compiled) : Analysis :=
  match parsed with
  | .ok n =>
    ⟨some n, outline (.ofText source) n, Completion.ofNode n, Diagnostic.ofCompiled compiled⟩
  | .error _ =>
    ⟨none, [], Completion.ofTokens (lexContent source), Diagnostic.ofCompiled compiled⟩

/-- Did the source parse? -/
def parses (a : Analysis) : Bool := a.tree.isSome

theorem of_ok (source : String) (n : Node) (compiled : Compiled) :
    of source (.ok n) compiled =
      ⟨some n, outline (.ofText source) n, Completion.ofNode n, Diagnostic.ofCompiled compiled⟩ :=
  rfl

theorem of_error (source : String) (e : ParseFailure) (compiled : Compiled) :
    of source (.error e) compiled = ⟨none, [], Completion.ofTokens (lexContent source),
      Diagnostic.ofCompiled compiled⟩ :=
  rfl

end Analysis

/-- The programs that analyse; one that is missing parses nothing, or reports nothing. -/
structure Analyzer where
  parser : Option Command := none
  compiler : Option Command := none
deriving DecidableEq, Repr

namespace Analyzer

/-- The programs that settings name. -/
def ofSettings (s : Settings) : Analyzer := ⟨s.parser, s.compiler⟩

/-- Analyse a source. -/
def analyze (a : Analyzer) (host : Host) (source : String) : Analysis :=
  .of source (parse host a.parser source) (compile host a.compiler source)

end Analyzer

end Krl
