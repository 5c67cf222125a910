import Krl.Analysis
import Krl.Json.Printer

/-!
# Reports

An analysis as text: as JSON, or as a row for each error. A row counts lines and columns from one,
and there are no rows at all if one of these numbers is no word.
-/

set_option autoImplicit false

namespace Krl

/-! ## JSON -/

namespace Symbol

def toJson (s : Symbol) : Json :=
  .ofFields [("name", .string s.name), ("kind", .string s.kind.name),
    ("range", .ofFields [("startLine", .ofNat s.lines.first.toNat),
      ("endLine", .ofNat s.lines.last.toNat)]),
    ("parentName", .ofOption .string s.parent)]

end Symbol

namespace Completion

def toJson (c : Completion) : Json :=
  .ofFields [("label", .string c.label), ("kind", .string c.kind.name),
    ("insertText", .ofOption .string c.insertText)]

end Completion

def Severity.name : Severity → String
  | .error => "Error"
  | .warning => "Warning"

namespace Diagnostic

def Position.toJson (p : Position) : Json :=
  .ofFields [("line", .ofNat p.line.toNat), ("character", .ofNat p.character.toNat)]

def Range.toJson (r : Range) : Json :=
  .ofFields [("start", r.start.toJson), ("end", r.stop.toJson)]

def toJson (d : Diagnostic) : Json :=
  .ofFields [("range", d.range.toJson), ("message", .string d.message),
    ("severity", .string d.severity.name)]

end Diagnostic

namespace Analysis

def toJson (a : Analysis) : Json :=
  .ofFields [("syntaxIsValid", .bool a.parses),
    ("documentSymbols", .ofList Symbol.toJson a.symbols),
    ("completionItems", .ofList Completion.toJson a.completions),
    ("diagnostics", .ofList Diagnostic.toJson a.diagnostics)]

/-- The analysis as JSON. -/
def report (a : Analysis) : String := a.toJson.pretty

/-! ## Rows -/

/-- The row of an error, with its place counted from one. -/
def errorRow (d : Diagnostic) : Except Overflow String :=
  (Word.place d.range.start.line d.range.start.character).map fun place =>
    s!"Line {place}: {d.message}"

/-- The errors, with warnings left out. -/
def errors (a : Analysis) : List Diagnostic := a.diagnostics.filter (·.severity = .error)

/-- A row for each error. -/
def errorRows (a : Analysis) : Except Overflow (List String) := a.errors.mapM errorRow

/-- The rows, or that there are none. -/
def errorListing (a : Analysis) : Except Overflow String :=
  a.errorRows.map fun rows => if rows = [] then "No errors found" else "\n".intercalate rows

end Analysis

end Krl
