import Krl.Proofs.Json.Values
import Krl.Report

/-!
# Reading a report back

What a report says of an analysis (`Analysis.summary`) is read back from its text, whatever
characters its strings are made of. Nothing is said of the tree but that there is one.

* `ofJson?_toJson`: the object of a summary is read as the summary.
* `report_faithful`: a report is the text of an object that is read as the summary, so that analyses
  with the same report have the same summary.
-/

set_option autoImplicit false

namespace Krl

/-! ## Reading values -/

namespace Json

variable {α : Type}

def bool? : Json → Option Bool
  | .bool b => some b
  | _ => none

def word? (value : Json) : Option UInt32 :=
  (value.nat?.filter (· < UInt32.size)).map UInt32.ofNat

/-- What is read where `null` stands for nothing. -/
def nullable? (read : Json → Option α) : Json → Option (Option α)
  | .null => some none
  | value => (read value).map some

def list? (read : Json → Option α) (value : Json) : Option (List α) :=
  value.items?.bind (·.mapM read)

/-- What is read from the field of a name, which has to be there. -/
def field? (value : Json) (name : String) (read : Json → Option α) : Option α :=
  (value.get? name).bind read

theorem field?_ofFields (fields : List (String × Json)) (name : String) (read : Json → Option α) :
    (ofFields fields).field? name read = (fields.reverse.lookup name).bind read := by
  rw [field?, get?_ofFields]

@[simp] theorem nat?_ofNat (n : Nat) : (ofNat n).nat? = some n := by
  simp [ofNat, nat?]

@[simp] theorem word?_ofNat (w : UInt32) : (ofNat w.toNat).word? = some w := by
  simp [word?, w.toNat_lt]

@[simp] theorem nullable?_string (text : Option String) :
    nullable? string? (ofOption .string text) = some text := by
  cases text <;> rfl

theorem list?_ofList {read : Json → Option α} {write : α → Json}
    (h : ∀ a, read (write a) = some a) (as : List α) :
    list? read (ofList write as) = some as := by
  rw [list?, ofList, items?, Option.bind_some]
  induction as with
  | nil => rfl
  | cons a as ih => rw [List.map_cons, List.mapM_cons, h, ih]; rfl

end Json

/-! ## Reading the parts of a report -/

namespace Symbol

def Kind.ofName? (name : String) : Option Kind :=
  [.scope, .field, .event, .method, .function, .object, .string, .number, .array, .reference,
    .null].find? (Kind.name · = name)

@[simp] theorem Kind.ofName?_name (kind : Kind) : ofName? kind.name = some kind := by
  cases kind <;> decide

def linesOfJson? (value : Json) : Option Extent := do
  let first ← value.field? "startLine" Json.word?
  let last ← value.field? "endLine" Json.word?
  some ⟨first, last⟩

def ofJson? (value : Json) : Option Symbol := do
  let name ← value.field? "name" Json.string?
  let kind ← value.field? "kind" (·.string?.bind Kind.ofName?)
  let lines ← value.field? "range" linesOfJson?
  let parent ← value.field? "parentName" (Json.nullable? Json.string?)
  some ⟨name, kind, lines, parent⟩

theorem ofJson?_toJson (s : Symbol) : ofJson? s.toJson = some s := by
  simp [ofJson?, toJson, Json.field?_ofFields, Json.lookup_field, Json.string?, linesOfJson?]

end Symbol

namespace Completion

def Kind.ofName? (name : String) : Option Kind :=
  [.function, .reference, .text].find? (Kind.name · = name)

@[simp] theorem Kind.ofName?_name (kind : Kind) : ofName? kind.name = some kind := by
  cases kind <;> decide

def ofJson? (value : Json) : Option Completion := do
  let label ← value.field? "label" Json.string?
  let kind ← value.field? "kind" (·.string?.bind Kind.ofName?)
  let insertText ← value.field? "insertText" (Json.nullable? Json.string?)
  some ⟨label, kind, insertText⟩

theorem ofJson?_toJson (c : Completion) : ofJson? c.toJson = some c := by
  simp [ofJson?, toJson, Json.field?_ofFields, Json.lookup_field, Json.string?]

end Completion

namespace Severity

def ofName? (name : String) : Option Severity :=
  [.error, .warning].find? (Severity.name · = name)

@[simp] theorem ofName?_name (severity : Severity) : ofName? severity.name = some severity := by
  cases severity <;> decide

end Severity

namespace Diagnostic

def Position.ofJson? (value : Json) : Option Position := do
  let line ← value.field? "line" Json.word?
  let character ← value.field? "character" Json.word?
  some ⟨line, character⟩

@[simp] theorem Position.ofJson?_toJson (p : Position) : ofJson? p.toJson = some p := by
  simp [ofJson?, toJson, Json.field?_ofFields, Json.lookup_field]

def Range.ofJson? (value : Json) : Option Range := do
  let start ← value.field? "start" Position.ofJson?
  let stop ← value.field? "end" Position.ofJson?
  some ⟨start, stop⟩

@[simp] theorem Range.ofJson?_toJson (r : Range) : ofJson? r.toJson = some r := by
  simp [ofJson?, toJson, Json.field?_ofFields, Json.lookup_field]

def ofJson? (value : Json) : Option Diagnostic := do
  let range ← value.field? "range" Range.ofJson?
  let message ← value.field? "message" Json.string?
  let severity ← value.field? "severity" (·.string?.bind Severity.ofName?)
  some ⟨range, message, severity⟩

theorem ofJson?_toJson (d : Diagnostic) : ofJson? d.toJson = some d := by
  simp [ofJson?, toJson, Json.field?_ofFields, Json.lookup_field, Json.string?]

end Diagnostic

/-! ## Reports -/

/-- What a report says of an analysis. -/
structure Summary where
  /-- Did the source parse? -/
  parses : Bool
  symbols : List Symbol
  completions : List Completion
  diagnostics : List Diagnostic
deriving DecidableEq, Repr

def Analysis.summary (a : Analysis) : Summary where
  parses := a.parses
  symbols := a.symbols
  completions := a.completions
  diagnostics := a.diagnostics

namespace Summary

def ofJson? (value : Json) : Option Summary := do
  let parses ← value.field? "syntaxIsValid" Json.bool?
  let symbols ← value.field? "documentSymbols" (Json.list? Symbol.ofJson?)
  let completions ← value.field? "completionItems" (Json.list? Completion.ofJson?)
  let diagnostics ← value.field? "diagnostics" (Json.list? Diagnostic.ofJson?)
  some ⟨parses, symbols, completions, diagnostics⟩

theorem ofJson?_toJson (a : Analysis) : ofJson? a.toJson = some a.summary := by
  simp [ofJson?, Analysis.toJson, Analysis.summary, Json.field?_ofFields, Json.lookup_field,
    Json.bool?, Json.list?_ofList Symbol.ofJson?_toJson,
    Json.list?_ofList Completion.ofJson?_toJson, Json.list?_ofList Diagnostic.ofJson?_toJson]

end Summary

/-! ## Reports as text -/

section
variable {depth : Nat}

open Json (Readable readable_ofFields readable_ofList)

theorem Json.readable_ofNat {n : Nat} (h : n < UInt64.size) : Readable depth (.ofNat n) :=
  .int (by omega) (by omega)

theorem Json.readable_ofWord (w : UInt32) : Readable depth (.ofNat w.toNat) := by
  refine readable_ofNat (Nat.lt_trans w.toNat_lt ?_)
  decide

theorem Json.readable_ofOption (text : Option String) :
    Readable depth (.ofOption .string text) := by
  cases text with
  | none => exact .null
  | some s => exact .string s

theorem Symbol.readable_toJson (s : Symbol) : Readable (depth + 2) s.toJson := by
  have hlines : Readable (depth + 1) (.ofFields [("startLine", .ofNat s.lines.first.toNat),
      ("endLine", .ofNat s.lines.last.toNat)]) := by
    refine readable_ofFields ?_
    simp [Json.readable_ofWord]
  refine readable_ofFields ?_
  simp [Json.Readable.string, hlines, Json.readable_ofOption]

theorem Completion.readable_toJson (c : Completion) : Readable (depth + 1) c.toJson := by
  refine readable_ofFields ?_
  simp [Json.Readable.string, Json.readable_ofOption]

theorem Diagnostic.readable_toJson (d : Diagnostic) : Readable (depth + 3) d.toJson := by
  have hposition : ∀ p : Position, Readable (depth + 1) p.toJson := by
    intro p
    refine readable_ofFields ?_
    simp [Json.readable_ofWord]
  have hrange : Readable (depth + 2) d.range.toJson := by
    refine readable_ofFields ?_
    simp [hposition]
  refine readable_ofFields ?_
  simp [Json.Readable.string, hrange]

theorem Analysis.readable_toJson (a : Analysis) : Readable (depth + 5) a.toJson := by
  have hsymbols : Readable (depth + 4) (.ofList Symbol.toJson a.symbols) :=
    readable_ofList fun s _ => s.readable_toJson
  have hcompletions : Readable (depth + 4) (.ofList Completion.toJson a.completions) :=
    readable_ofList fun c _ => c.readable_toJson
  have hdiagnostics : Readable (depth + 4) (.ofList Diagnostic.toJson a.diagnostics) :=
    readable_ofList fun d _ => d.readable_toJson
  refine readable_ofFields ?_
  simp [Json.Readable.bool, hsymbols, hcompletions, hdiagnostics]

end

theorem Analysis.ofText?_report (a : Analysis) : Json.ofText? a.report = some a.toJson :=
  Json.ofText?_pretty a.readable_toJson

/-- A report is the text of an object, and all that it says of the analysis is read from that. So
analyses with the same report do not differ in that. -/
theorem Analysis.report_faithful (a : Analysis) :
    (∃ fields, Json.ofText? a.report = some (.object fields) ∧
      Summary.ofJson? (.object fields) = some a.summary) ∧
    ∀ b : Analysis, b.report = a.report → b.summary = a.summary := by
  refine ⟨⟨_, ofText?_report a, Summary.ofJson?_toJson a⟩, fun b hreport => ?_⟩
  have hjson : some b.toJson = some a.toJson := by
    rw [← ofText?_report b, ← ofText?_report a, hreport]
  have hsummary := congrArg (Option.bind · Summary.ofJson?) hjson
  simpa [Summary.ofJson?_toJson] using hsummary

/-- An analysis with the largest numbers, and with strings that have to be escaped. -/
def Analysis.awkward : Analysis where
  tree := some (.identifier "x" none)
  symbols := [⟨"say \"hi\" \\", .function, ⟨0, 4294967295⟩, none⟩,
    ⟨"\n\t\u0001\r", .reference, ⟨3, 3⟩, some "\u007f𝄞"⟩]
  completions := [⟨"naïve", .text, none⟩, ⟨"", .reference, some "null"⟩]
  diagnostics := [⟨⟨⟨0, 4294967295⟩, ⟨1, 0⟩⟩, "no 'x' at \u2028", .warning⟩]

theorem Analysis.report_faithful_awkward :
    (∃ fields, Json.ofText? awkward.report = some (.object fields) ∧
      Summary.ofJson? (.object fields) = some awkward.summary) ∧
    ∀ b : Analysis, b.report = awkward.report → b.summary = awkward.summary :=
  report_faithful awkward

end Krl
