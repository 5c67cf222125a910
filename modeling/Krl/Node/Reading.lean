import Krl.Json
import Krl.Node

/-!
# Reading nodes from JSON

A parser writes a node as an object that is tagged with its `type` and says in `loc` where it
stands. What a JSON value contributes to the node around it is found by one recursion over the
value: an object with a tag is a node, the items of an array contribute in order, and anything else
contributes nothing.

* `reading_of_tag`: an object with a tag is a node.
* `Reading.nodes_node`, `Reading.node?_node`: what a node contributes.
-/

set_option autoImplicit false

namespace Krl.Node

/-! ## Failures -/

/-- Why a value is not a node of a type. -/
structure Malformed where
  type : String
  message : String
deriving DecidableEq, Repr

namespace Malformed

/-- The type that stands for the outermost value. -/
def root : String := "<root>"

def describe (e : Malformed) : String := s!"malformed {e.type} node: {e.message}"

def noObject : Malformed := ⟨root, "expected a JSON object"⟩

def noTag : Malformed := ⟨root, "missing `type` tag"⟩

def noSpan (type : String) : Malformed := ⟨type, "missing `loc` span"⟩

def noKey (type : String) : Malformed := ⟨type, "missing `key`"⟩

def noString (type field : String) : Malformed := ⟨type, s!"missing string field `{field}`"⟩

def noNode (type field : String) : Malformed := ⟨type, s!"missing node field `{field}`"⟩

end Malformed

/-! ## Parts of an object -/

abbrev Fields := List (String × Json)

/-- The tag of an object: its `type`, if that is a string. -/
def tag? (fields : Fields) : Option String := (fields.lookup "type").bind Json.string?

/-- The offsets that a `loc` gives, if it gives both. -/
def spanOf? (loc : Json) : Option Span := do
  let start ← (← loc.get? "start").nat?
  let stop ← (← loc.get? "end").nat?
  some ⟨start, stop⟩

def fieldSpan? (fields : Fields) : Option Span := (fields.lookup "loc").bind spanOf?

def requiredSpan (type : String) (fields : Fields) : Except Malformed Span :=
  match fieldSpan? fields with
  | some span => .ok span
  | none => .error (.noSpan type)

def requiredString (type field : String) (fields : Fields) : Except Malformed String :=
  match (fields.lookup field).bind Json.string? with
  | some s => .ok s
  | none => .error (.noString type field)

/-- The object that names a property. -/
def requiredKey (type : String) (fields : Fields) : Except Malformed Fields :=
  match (fields.lookup "key").bind Json.fields? with
  | some key => .ok key
  | none => .error (.noKey type)

/-! ## Contributions -/

/-- What a value contributes to the node around it. -/
inductive Reading where
  /-- A node, or the reason why it is none. -/
  | node (result : Except Malformed Node)
  /-- The nodes of a value that is no node itself. -/
  | several (result : Except Malformed (List Node))

namespace Reading

/-- All nodes of a value. -/
def nodes : Reading → Except Malformed (List Node)
  | .node result => result.map ([·])
  | .several result => result

/-- The node that a value is, if it is one. -/
def node? : Reading → Except Malformed (Option Node)
  | .node result => result.map some
  | .several _ => .ok none

/-- The nodes of values in order; the first failure counts. -/
def concat : List Reading → Except Malformed (List Node)
  | [] => .ok []
  | r :: rs => do
    let ns ← r.nodes
    let ms ← concat rs
    .ok (ns ++ ms)

end Reading

/-- The readings of an object's fields. -/
abbrev FieldReadings := List (String × Reading)

namespace FieldReadings

/-- The node in a field that may hold one. -/
def node? (readings : FieldReadings) (field : String) : Except Malformed (Option Node) :=
  match readings.lookup field with
  | some r => r.node?
  | none => .ok none

/-- The node in a field that has to hold one. -/
def required (type : String) (readings : FieldReadings) (field : String) :
    Except Malformed Node := do
  match ← readings.node? field with
  | some n => .ok n
  | none => .error (.noNode type field)

/-- The nodes in a field. -/
def nodes (readings : FieldReadings) (field : String) : Except Malformed (List Node) :=
  match readings.lookup field with
  | some r => r.nodes
  | none => .ok []

/-- The nodes in all fields but the tag, the place, and those named. -/
def others (readings : FieldReadings) (named : List String) : Except Malformed (List Node) :=
  Reading.concat
    ((readings.filter fun r => !("type" :: "loc" :: named).contains r.1).map (·.2))

end FieldReadings

/-- The node of an object with this tag. Of several faults the first counts, in the order in which
the parts are read here. -/
def assemble (type : String) (fields : Fields) (readings : FieldReadings) :
    Except Malformed Node :=
  match type with
  | "Ruleset" => do
    let rid ← readings.node? "rid"
    let metaBlock ← readings.node? "meta"
    let globals ← readings.nodes "global"
    let rules ← readings.nodes "rules"
    .ok (.ruleset rid metaBlock globals rules (fieldSpan? fields))
  | "RulesetID" => do
    let value ← requiredString type "value" fields
    let span ← requiredSpan type fields
    .ok (.rulesetId value span)
  | "RulesetMeta" => do
    let properties ← readings.nodes "properties"
    let span ← requiredSpan type fields
    .ok (.rulesetMeta properties span)
  | "RulesetMetaProperty" => do
    let key ← requiredKey type fields
    let name ← requiredString type "value" key
    let keySpan ← requiredSpan type key
    let value ← readings.node? "value"
    .ok (.metaProperty name keySpan value (fieldSpan? fields))
  | "Declaration" => do
    let left ← readings.required type "left"
    let right ← readings.required type "right"
    let span ← requiredSpan type fields
    .ok (.declaration left right span)
  | "DefAction" => do
    let id ← readings.required type "id"
    let children ← readings.others ["id"]
    let span ← requiredSpan type fields
    .ok (.defAction id children span)
  | "Function" => do
    let children ← readings.others []
    .ok (.function children (fieldSpan? fields))
  | "Rule" => do
    let name ← readings.required type "name"
    let children ← readings.others ["name"]
    let span ← requiredSpan type fields
    .ok (.rule name children span)
  | "Identifier" => do
    let value ← requiredString type "value" fields
    .ok (.identifier value (fieldSpan? fields))
  | _ => do
    let children ← readings.others []
    .ok (.other type children (fieldSpan? fields))

mutual

/-- What a value contributes. -/
def reading : Json → Reading
  | .object fields =>
    match tag? fields with
    | some type => .node (assemble type fields (fieldReadings fields))
    | none => .several (.ok [])
  | .array items => .several (Reading.concat (readings items))
  | _ => .several (.ok [])

def readings : List Json → List Reading
  | [] => []
  | v :: vs => reading v :: readings vs

def fieldReadings : List (String × Json) → FieldReadings
  | [] => []
  | f :: fs => fieldReading f :: fieldReadings fs

def fieldReading : String × Json → String × Reading
  | (name, v) => (name, reading v)

end

/-- The node that a value is. -/
def ofJson (value : Json) : Except Malformed Node :=
  match value with
  | .object _ =>
    match reading value with
    | .node result => result
    | .several _ => .error .noTag
  | _ => .error .noObject

/-! ## Facts -/

@[simp] theorem Reading.nodes_node (result : Except Malformed Node) :
    (Reading.node result).nodes = result.map ([·]) := rfl

@[simp] theorem Reading.node?_node (result : Except Malformed Node) :
    (Reading.node result).node? = result.map some := rfl

theorem reading_of_tag {fields : Fields} {type : String} (h : tag? fields = some type) :
    reading (.object fields) = .node (assemble type fields (fieldReadings fields)) := by
  rw [reading, h]

theorem readings_eq_map (items : List Json) : readings items = items.map reading := by
  induction items with
  | nil => rfl
  | cons v vs ih => rw [readings, ih, List.map_cons]

theorem fieldReadings_eq_map (fields : Fields) :
    fieldReadings fields = fields.map fun f => (f.1, reading f.2) := by
  induction fields with
  | nil => rfl
  | cons f fs ih =>
    rcases f with ⟨name, v⟩
    rw [fieldReadings, ih, fieldReading, List.map_cons]

end Krl.Node
