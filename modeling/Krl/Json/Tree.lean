import Krl.Json
import Krl.Json.Token

/-!
# JSON text as a tree

The tree of a text keeps what the text says: the order of fields, names that are repeated, numerals
and strings as written. It may be of any depth. Reading a value out of it is stricter: names count
once, surrogates come in pairs, numbers are finite, and arrays and objects nest at most 127 deep.

* `ofTokens?_append`: reading tokens in two parts.
* `Tree.value?`: the value that a tree stands for.
-/

set_option autoImplicit false

namespace Krl.Json

inductive Tree where
  | null
  | bool (b : Bool)
  | number (x : Numeral)
  | string (s : List StringItem)
  | array (items : List Tree)
  | object (fields : List (List StringItem × Tree))
deriving Repr

namespace Tree

/-! ## From tokens -/

/-- An array or object that is not closed, with what it has so far, in reverse; an object waits for
the value of a field. -/
inductive Frame where
  | array (rev : List Tree)
  | object (rev : List (List StringItem × Tree)) (name : List StringItem)

/-- What the reader of trees waits for. The frames are those around it, the innermost first. -/
inductive Reader where
  /-- A value. -/
  | value (frames : List Frame)
  /-- The first value of an array, or its end. -/
  | first (frames : List Frame)
  /-- The name of a field, or the end of an object that has none yet. -/
  | name (fields : List (List StringItem × Tree)) (frames : List Frame)
  /-- The colon behind a name. -/
  | colon (fields : List (List StringItem × Tree)) (key : List StringItem) (frames : List Frame)
  /-- What follows a tree: a comma or an end. -/
  | done (tree : Tree) (frames : List Frame)

namespace Reader

/-- Read the first token of a value. -/
def begin? (frames : List Frame) : Token → Option Reader
  | .null => some (.done .null frames)
  | .bool b => some (.done (.bool b) frames)
  | .number x => some (.done (.number x) frames)
  | .string s => some (.done (.string s) frames)
  | .openArray => some (.first frames)
  | .openObject => some (.name [] frames)
  | _ => none

def next? : Reader → Token → Option Reader
  | .value frames, token => begin? frames token
  | .first frames, .closeArray => some (.done (.array []) frames)
  | .first frames, token => begin? (.array [] :: frames) token
  | .name fields frames, .string key => some (.colon fields key frames)
  | .name [] frames, .closeObject => some (.done (.object []) frames)
  | .colon fields key frames, .colon => some (.value (.object fields key :: frames))
  | .done tree (.array rev :: frames), .comma => some (.value (.array (tree :: rev) :: frames))
  | .done tree (.array rev :: frames), .closeArray =>
    some (.done (.array (tree :: rev).reverse) frames)
  | .done tree (.object rev key :: frames), .comma => some (.name ((key, tree) :: rev) frames)
  | .done tree (.object rev key :: frames), .closeObject =>
    some (.done (.object ((key, tree) :: rev).reverse) frames)
  | _, _ => none

/-- The tree that has been read, if nothing around it is open. -/
def finish? : Reader → Option Tree
  | .done tree [] => some tree
  | _ => none

end Reader

def ofTokens? (tokens : List Token) : Option Tree :=
  (tokens.foldlM Reader.next? (.value [])).bind Reader.finish?

/-- The tree of a text. -/
def ofChars? (cs : List Char) : Option Tree := (Token.tokens? cs).bind ofTokens?

/-! ## Values -/

/-- The value of a numeral, unless it is too large. -/
def numberValue? (x : Numeral) : Option Json :=
  match x.integer? with
  | some n => some (.int n)
  | none => if x.isFinite then some (.real x) else none

mutual

/-- The value of a tree in which arrays and objects nest at most `depth` deep. -/
def value? (depth : Nat) : Tree → Option Json
  | .null => some .null
  | .bool b => some (.bool b)
  | .number x => numberValue? x
  | .string s => (StringItem.text? s).map fun cs => .string (String.ofList cs)
  | .array items =>
    match depth with
    | 0 => none
    | depth + 1 => (values? depth items).map .array
  | .object fields =>
    match depth with
    | 0 => none
    | depth + 1 => (fieldValues? depth fields).map .ofFields

def values? (depth : Nat) : List Tree → Option (List Json)
  | [] => some []
  | t :: ts => do
    let v ← value? depth t
    let vs ← values? depth ts
    some (v :: vs)

def fieldValues? (depth : Nat) : List (List StringItem × Tree) → Option (List (String × Json))
  | [] => some []
  | f :: fs => do
    let v ← fieldValue? depth f
    let vs ← fieldValues? depth fs
    some (v :: vs)

def fieldValue? (depth : Nat) : List StringItem × Tree → Option (String × Json)
  | (name, t) => do
    let name ← StringItem.text? name
    let v ← value? depth t
    some (String.ofList name, v)

end

/-! ## Facts -/

theorem ofTokens?_append (ts us : List Token) : ofTokens? (ts ++ us) =
    (ts.foldlM Reader.next? (.value [])).bind fun r =>
      (us.foldlM Reader.next? r).bind Reader.finish? := by
  simp only [ofTokens?, List.foldlM_append, Option.bind_eq_bind, Option.bind_assoc]

end Tree

/-- Arrays and objects nest at most this deep. -/
def depthLimit : Nat := 127

/-- The value of a text. -/
def ofChars? (cs : List Char) : Option Json := (Tree.ofChars? cs).bind (Tree.value? depthLimit)

/-- The value of a text. -/
def ofText? (text : String) : Option Json := ofChars? text.toList

mutual

/-- A value as a tree that stands for it. -/
def tree : Json → Tree
  | .null => .null
  | .bool b => .bool b
  | .int n => .number (Numeral.ofInt n)
  | .real x => .number x
  | .string s => .string (s.toList.map .char)
  | .array items => .array (trees items)
  | .object fields => .object (fieldTrees fields)

def trees : List Json → List Tree
  | [] => []
  | v :: vs => tree v :: trees vs

def fieldTrees : List (String × Json) → List (List StringItem × Tree)
  | [] => []
  | f :: fs => fieldTree f :: fieldTrees fs

def fieldTree : String × Json → List StringItem × Tree
  | (name, v) => (name.toList.map .char, tree v)

end

end Krl.Json
