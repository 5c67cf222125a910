import Krl.Node
import Krl.Text.LineMap

/-!
# Outline

The symbols of a ruleset: its id, the meta block and its properties, the global block with what it
declares, and the rules. The list is flat; each symbol names the one that it belongs to.

* `outline_of_not_ruleset`: nothing but a ruleset has an outline.
-/

set_option autoImplicit false

namespace Krl

namespace Symbol

inductive Kind where
  | scope
  | field
  | event
  | method
  | function
  | object
  | string
  | number
  | array
  | reference
  | null
deriving DecidableEq, Repr

def Kind.name : Kind → String
  | .scope => "Namespace"
  | .field => "Field"
  | .event => "Event"
  | .method => "Method"
  | .function => "Function"
  | .object => "Object"
  | .string => "String"
  | .number => "Number"
  | .array => "Array"
  | .reference => "Variable"
  | .null => "Null"

end Symbol

/-- A range of lines from zero, the last one included. -/
structure Extent where
  first : UInt32
  last : UInt32
deriving DecidableEq, Repr

structure Symbol where
  name : String
  kind : Symbol.Kind
  lines : Extent
  parent : Option String
deriving DecidableEq, Repr

namespace Outline

/-- What the parts of a ruleset without an id belong to. -/
def noRid : String := "No RID Found"

/-- The lines of a span. -/
def linesOf (lines : LineMap) (span : Span) : Extent :=
  ⟨lines.lineAt span.start, lines.lineAt span.stop⟩

/-- The kind that the right side of a declaration gives it. -/
def kindOf (right : Node) : Symbol.Kind :=
  match right.tag with
  | "Function" => .function
  | "Map" => .object
  | "String" => .string
  | "Number" => .number
  | "Array" => .array
  | "Identifier" => .reference
  | _ => .null

/-- The name that the parts of a ruleset give as theirs. -/
def ruleName : Option Node → String
  | some (.rulesetId value _) => value
  | _ => noRid

/-- The id of a ruleset reaches to the last line of the text. -/
def ofRid (lines : LineMap) : Option Node → List Symbol
  | some (.rulesetId value span) =>
    [⟨value, .scope, ⟨lines.lineAt span.start, lines.lineAt (lines.length - 1)⟩, none⟩]
  | _ => []

/-- A property of the meta block stands where its key does. -/
def ofProperty (lines : LineMap) : Node → Option Symbol
  | .metaProperty key keySpan _ _ => some ⟨key, .field, linesOf lines keySpan, some "meta"⟩
  | _ => none

def ofMeta (lines : LineMap) (owner : String) : Option Node → List Symbol
  | some (.rulesetMeta properties span) =>
    ⟨"meta", .scope, linesOf lines span, some owner⟩ :: properties.filterMap (ofProperty lines)
  | _ => []

/-- The global block reaches from its first entry to its last one, if both say where they are. -/
def globalBlock (lines : LineMap) (owner : String) (globals : List Node) : List Symbol :=
  match globals.head?.bind Node.span?, globals.getLast?.bind Node.span? with
  | some first, some last =>
    [⟨"global", .scope, ⟨lines.lineAt first.start, lines.lineAt last.stop⟩, some owner⟩]
  | _, _ => []

/-- An entry of the global block that declares a name. -/
def ofGlobal (lines : LineMap) : Node → Option Symbol
  | .declaration left right span =>
    left.name?.map fun name => ⟨name, kindOf right, linesOf lines span, some "global"⟩
  | .defAction id _ span =>
    id.name?.map fun name => ⟨name, .method, linesOf lines span, some "global"⟩
  | _ => none

def ofRule (lines : LineMap) (owner : String) : Node → Option Symbol
  | .rule name _ span =>
    name.name?.map fun name => ⟨name, .event, linesOf lines span, some owner⟩
  | _ => none

end Outline

/-- The symbols of a ruleset in a text with these lines. -/
def outline (lines : LineMap) : Node → List Symbol
  | .ruleset rid metaBlock globals rules _ =>
    let owner := Outline.ruleName rid
    Outline.ofRid lines rid ++ Outline.ofMeta lines owner metaBlock ++
      Outline.globalBlock lines owner globals ++ globals.filterMap (Outline.ofGlobal lines) ++
      rules.filterMap (Outline.ofRule lines owner)
  | _ => []

/-! ## Facts -/

theorem outline_of_not_ruleset {lines : LineMap} {n : Node} (h : n.tag ≠ "Ruleset") :
    outline lines n = [] := by
  cases n with
  | ruleset => exact absurd rfl h
  | _ => rfl

end Krl
