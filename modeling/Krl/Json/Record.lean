import Krl.Json.Tree

/-!
# Records

A record has fields with known names. JSON writes it as an object, in which unknown names do not
matter but no known name may be repeated, or as an array of the values in the order of the names.

* `ofTree?_array`: an array gives the values by their position, and may not have more of them.
* `required_eq_some_iff`: when a field that has to be there can be read.
-/

set_option autoImplicit false

namespace Krl.Json

/-- The values that a tree gives for the names of a record. -/
structure Record where
  /-- Were the values given by name, not by position? -/
  named : Bool
  values : List (Option Tree)

namespace Record

/-- The only value of a name; `none` if the name is repeated. -/
def unique? (fields : List (List Char × Tree)) (name : String) : Option (Option Tree) :=
  match fields.filter fun f => f.1 == name.toList with
  | [] => some none
  | [f] => some (some f.2)
  | _ => none

/-- The values that the tree gives for these names. -/
def ofTree? (names : List String) : Tree → Option Record
  | .array items =>
    if items.length ≤ names.length then
      some ⟨false, (List.range names.length).map (items[·]?)⟩
    else none
  | .object fields => do
    let fields ← fields.mapM fun f => (StringItem.text? f.1).map fun name => (name, f.2)
    let values ← names.mapM (unique? fields)
    some ⟨true, values⟩
  | _ => none

/-- The value at an index of the names, if it was given. -/
def at? (r : Record) (i : Nat) : Option Tree := r.values[i]?.join

/-! ## Fields -/

variable {α : Type}

/-- A field that has to be there. -/
def required (r : Record) (i : Nat) (read : Tree → Option α) : Option α :=
  (r.at? i).bind read

/-- A field that may be `null`, or absent if its record is written with names. -/
def optional (r : Record) (i : Nat) (read : Tree → Option α) : Option (Option α) :=
  match r.at? i with
  | none => if r.named then some none else none
  | some .null => some none
  | some t => (read t).map some

/-- A field that may be absent, and has a value then. -/
def withDefault (r : Record) (i : Nat) (default : α) (read : Tree → Option α) : Option α :=
  match r.at? i with
  | none => some default
  | some t => read t

end Record

/-! ## Values of fields -/

namespace Tree

/-- What is read where `null` stands for nothing. -/
def nullable {α : Type} (read : Tree → Option α) : Tree → Option (Option α)
  | .null => some none
  | t => (read t).map some

def text? : Tree → Option (List Char)
  | .string s => StringItem.text? s
  | _ => none

def string? (t : Tree) : Option String := t.text?.map String.ofList

/-- A number without sign, fraction and exponent, below the bound. -/
def natBelow? (bound : Nat) : Tree → Option Nat
  | .number x => x.natural?.filter (· < bound)
  | _ => none

/-- A number of 32 bits. -/
def word? (t : Tree) : Option UInt32 := (t.natBelow? UInt32.size).map UInt32.ofNat

/-- A number of 64 bits. -/
def nat? (t : Tree) : Option Nat := t.natBelow? UInt64.size

def list? {α : Type} (read : Tree → Option α) : Tree → Option (List α)
  | .array items => items.mapM read
  | _ => none

end Tree

/-! ## Facts -/

namespace Record

theorem ofTree?_array {names : List String} {items : List Tree} {r : Record}
    (h : ofTree? names (.array items) = some r) :
    items.length ≤ names.length ∧ r.named = false ∧ ∀ i < names.length, r.at? i = items[i]? := by
  simp only [ofTree?] at h
  split at h
  · next hle =>
    cases h
    refine ⟨hle, rfl, fun i hi => ?_⟩
    simp [at?, hi]
  · simp at h

theorem required_eq_some_iff {α : Type} {r : Record} {i : Nat} {read : Tree → Option α} {a : α} :
    r.required i read = some a ↔ ∃ t, r.at? i = some t ∧ read t = some a := by
  simp [required, Option.bind_eq_some_iff]

end Record

end Krl.Json
