import Krl.Cli.Folder
import Krl.Report

/-!
# The command line

`--analyze` reads a file, analyses it, and prints a report. A report with a number that is no word
ends the program before it has printed any of it.

* `Outcome.ofReport_eq_overflow_iff`: nothing else ends as an overflow does.
* `run_of_not_asked`: without `--analyze` there is nothing to do here.
-/

set_option autoImplicit false

namespace Krl.Cli

open Tool (Host)

/-- How a run ends. -/
structure Outcome where
  exit : Nat
  stdout : String
  stderr : String
deriving DecidableEq, Repr

/-- A report is printed as a line, or the program ends with what stands in the way of it. -/
def Outcome.ofReport : Except Overflow String → Outcome
  | .ok report => ⟨0, report ++ "\n", ""⟩
  | .error e => ⟨101, "", e.describe ++ "\n"⟩

def usage : String :=
  "Usage: krl-lsp --analyze [--errors-only] <relative-file-path>\n" ++
  "  --analyze <file>     : Full analysis with JSON output\n" ++
  "  --errors-only        : Show only errors in simple format"

/-- Why there is no report. -/
inductive Failure where
  | noPath
  | unsafePath (path : String)
  | unreadable (path : String) (reason : ReadFailure)
deriving DecidableEq, Repr

def Failure.describe : Failure → String
  | .noPath => usage
  | .unsafePath path => s!"Unsafe file path: {path}"
  | .unreadable path reason => s!"Failed to read file '{path}': {reason}"

/-- What is asked for: a path behind `--analyze` that is no option, and which report. -/
structure Order where
  path : Option String
  errorsOnly : Bool
deriving DecidableEq, Repr

/-- The order that arguments give, if they ask for a report at all. -/
def Order.ofArgs? (args : List String) : Option Order :=
  match args.dropWhile (· != "--analyze") with
  | [] => none
  | _ :: rest =>
    some ⟨rest.find? fun a => !(['-', '-'].isPrefixOf a.toList), args.contains "--errors-only"⟩

/-- The path that the arguments ask to read, if it may be read. -/
def fileToRead? (args : List String) : Option String :=
  ((Order.ofArgs? args).bind (·.path)).filter fun path => Path.isSafe path.toList

/-- The text of the file that is to be analysed. -/
def source (read : String → Except ReadFailure String) : Option String → Except Failure String
  | none => .error .noPath
  | some path =>
    if Path.isSafe path.toList then (read path).mapError (.unreadable path)
    else .error (.unsafePath path)

/-- The report that is asked for. -/
def Order.report (order : Order) (analysis : Analysis) : Except Overflow String :=
  if order.errorsOnly then analysis.errorListing else .ok analysis.report

/-- Read, analyse, report. Gives nothing if no report is asked for. -/
def run (host : Host) (settings : Settings) (read : String → Except ReadFailure String)
    (args : List String) : Option Outcome :=
  (Order.ofArgs? args).map fun order =>
    match source read order.path with
    | .error e => ⟨2, "", s!"krl-lsp analyze error: {e.describe}\n"⟩
    | .ok text => .ofReport (order.report ((Analyzer.ofSettings settings).analyze host text))

theorem Outcome.ofReport_eq_overflow_iff {report : Except Overflow String} :
    ofReport report = ⟨101, "", Overflow.addition.describe ++ "\n"⟩ ↔
      report = .error .addition := by
  cases report with
  | ok report => simp [ofReport]
  | error e =>
    cases e
    exact iff_of_true rfl rfl

theorem run_of_not_asked {host : Host} {settings : Settings}
    {read : String → Except ReadFailure String} {args : List String}
    (h : ∀ a ∈ args, a ≠ "--analyze") : run host settings read args = none := by
  have : args.dropWhile (· != "--analyze") = [] := by
    induction args with
    | nil => rfl
    | cons a args ih =>
      rw [List.dropWhile_cons_of_pos (by simpa using h a (by simp))]
      exact ih fun b hb => h b (List.mem_cons_of_mem _ hb)
  simp [run, Order.ofArgs?, this]

end Krl.Cli
