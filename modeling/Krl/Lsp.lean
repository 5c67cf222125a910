import Krl.Report
import Krl.Server

/-!
# Wire shapes

How the server's answers are written in the Language Server Protocol. Fields that say nothing are
left out.

* `severityNumber_inj`, `symbolNumber_inj`, `completionNumber_inj`: different kinds have different
  numbers.
-/

set_option autoImplicit false

namespace Krl.Lsp

/-- An object of the fields that say something. -/
def record (fields : List (String × Option Json)) : Json :=
  .ofFields (fields.filterMap fun f => f.2.map fun v => (f.1, v))

/-! ## Diagnostics -/

def severityNumber : Severity → Nat
  | .error => 1
  | .warning => 2

def diagnostic (d : Diagnostic) : Json :=
  .ofFields [("range", d.range.toJson), ("severity", .ofNat (severityNumber d.severity)),
    ("source", .string "krl"), ("message", .string d.message)]

/-- The parameters of the message that publishes diagnostics. -/
def publication (p : Server.Publication) : Json :=
  record [("uri", some (.string p.uri.text)),
    ("diagnostics", some (.ofList diagnostic p.diagnostics)), ("version", p.version.map .int)]

/-! ## Symbols -/

def symbolNumber : Symbol.Kind → Nat
  | .scope => 3
  | .method => 6
  | .field => 8
  | .function => 12
  | .reference => 13
  | .string => 15
  | .number => 16
  | .array => 18
  | .object => 19
  | .null => 21
  | .event => 24

/-- The start of a line. -/
def lineStart (line : UInt32) : Json :=
  .ofFields [("line", .ofNat line.toNat), ("character", .ofNat 0)]

/-- A symbol of a document; it reaches from the start of its first line to that of its last one. -/
def symbol (uri : Uri) (s : Symbol) : Json :=
  record [("name", some (.string s.name)), ("kind", some (.ofNat (symbolNumber s.kind))),
    ("location", some (.ofFields [("uri", .string uri.text),
      ("range", .ofFields [("start", lineStart s.lines.first),
        ("end", lineStart s.lines.last)])])),
    ("containerName", s.parent.map .string)]

/-! ## Completions -/

def completionNumber : Completion.Kind → Nat
  | .text => 1
  | .function => 3
  | .reference => 18

/-- What is shown beside a label. -/
def detail? : Completion.Kind → Option String
  | .function => some "function"
  | .reference => some "Identifier"
  | .text => none

/-- The format of text that is inserted as it stands. -/
def plainText : Json := .ofNat 1

def completion (c : Completion) : Json :=
  record [("label", some (.string c.label)), ("kind", some (.ofNat (completionNumber c.kind))),
    ("detail", (detail? c.kind).map .string), ("insertText", c.insertText.map .string),
    ("insertTextFormat", c.insertText.map fun _ => plainText)]

/-- A function without a name is offered as a method, in front of all else. -/
def anonymousFunction : Json :=
  .ofFields [("label", .string "function("), ("kind", .ofNat 2),
    ("detail", .string "Anonymous Function"), ("preselect", .bool true),
    ("insertText", .string "function("), ("insertTextFormat", plainText)]

def suggestion : Server.Suggestion → Json
  | .anonymousFunction => anonymousFunction
  | .item c => completion c

/-- The number of the error that a refusal is. -/
def errorNumber : Server.Refusal → Int
  | .stopped => -32600
  | .malformed => -32602

/-- The result of a request, or the number of an error. -/
def response (uri : Uri) : Server.Response → Except Int Json
  | .none => .ok .null
  | .refused why => .error (errorNumber why)
  | .suggestions items => .ok (.ofList suggestion items)
  | .symbols items => .ok (.ofOption (.ofList (symbol uri)) items)

/-! ## The start of a session -/

/-- What the server can do: incremental changes, completion also behind a point, and symbols. -/
def capabilities : Json :=
  .ofFields [("textDocumentSync", .ofNat 2),
    ("completionProvider", .ofFields [("resolveProvider", .bool false),
      ("triggerCharacters", .array [.string "."])]),
    ("documentSymbolProvider", .bool true)]

/-- The answer to the first request of a session. -/
def greeting : Json :=
  .ofFields [("capabilities", capabilities),
    ("serverInfo", .ofFields [("name", .string "KRL Language Server"),
      ("version", .string "0.1.0")])]

/-- The message that the server logs when it has started. -/
def started : Json :=
  .ofFields [("method", .string "window/logMessage"),
    ("params", .ofFields [("type", .ofNat 3),
      ("message", .string "KRL Language Server started")])]

/-! ## Facts -/

theorem severityNumber_inj {a b : Severity} : severityNumber a = severityNumber b ↔ a = b := by
  cases a <;> cases b <;> simp [severityNumber]

theorem symbolNumber_inj {a b : Symbol.Kind} : symbolNumber a = symbolNumber b ↔ a = b := by
  cases a <;> cases b <;> simp [symbolNumber]

theorem completionNumber_inj {a b : Completion.Kind} :
    completionNumber a = completionNumber b ↔ a = b := by
  cases a <;> cases b <;> simp [completionNumber]

end Krl.Lsp
