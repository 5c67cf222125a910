import Krl.Json.Numeral

/-!
# JSON values

The fields of an object stand in ascending order of their names, each name once. Numbers that are
integers of 64 bits are kept as such; all others are kept as they are written.

* `get?_insertField`: a field reads back what was last written to it.
-/

set_option autoImplicit false

namespace Krl

inductive Json where
  | null
  | bool (b : Bool)
  | int (n : Int)
  | real (x : Json.Numeral)
  | string (s : String)
  | array (items : List Json)
  | object (fields : List (String × Json))
deriving Repr

namespace Json

instance : Inhabited Json := ⟨.null⟩

/-- Write a field, in place of one of that name or where the order wants it. -/
def insertField (name : String) (value : Json) : List (String × Json) → List (String × Json)
  | [] => [(name, value)]
  | (k, v) :: fields =>
    if name < k then (name, value) :: (k, v) :: fields
    else if name = k then (name, value) :: fields
    else (k, v) :: insertField name value fields

/-- The fields of an object that are written in this order: the last one of a name counts. -/
def fieldsOf (fields : List (String × Json)) : List (String × Json) :=
  fields.foldl (fun acc f => insertField f.1 f.2 acc) []

/-- The object with these fields. -/
def ofFields (fields : List (String × Json)) : Json := .object (fieldsOf fields)

def ofNat (n : Nat) : Json := .int n

/-- `null` stands for nothing. -/
def ofOption {α : Type} (f : α → Json) : Option α → Json
  | none => .null
  | some a => f a

def ofList {α : Type} (f : α → Json) (items : List α) : Json := .array (items.map f)

/-! ## Access -/

def fields? : Json → Option (List (String × Json))
  | .object fields => some fields
  | _ => none

def items? : Json → Option (List Json)
  | .array items => some items
  | _ => none

def string? : Json → Option String
  | .string s => some s
  | _ => none

/-- An integer that is not negative. -/
def nat? : Json → Option Nat
  | .int n => if 0 ≤ n then some n.toNat else none
  | _ => none

/-- The field of that name, where the value is an object that has it. -/
def get? (value : Json) (name : String) : Option Json :=
  value.fields?.bind (·.lookup name)

/-! ## Facts -/

theorem lookup_field (key name : String) (value : Json) (fields : List (String × Json)) :
    ((name, value) :: fields).lookup key =
      if key = name then some value else fields.lookup key := by
  rw [List.lookup_cons]
  by_cases h : key = name
  · simp [h]
  · simp [h, beq_eq_false_iff_ne.2 h]

theorem lookup_insertField (name key : String) (value : Json) (fields : List (String × Json)) :
    (insertField name value fields).lookup key =
      if key = name then some value else fields.lookup key := by
  induction fields with
  | nil => simp [insertField, lookup_field]
  | cons f fields ih =>
    rcases f with ⟨k, v⟩
    simp only [insertField]
    split
    · rw [lookup_field]
    split
    · next hk =>
      subst hk
      simp only [lookup_field]
      split <;> rfl
    · next hk =>
      simp only [lookup_field, ih]
      by_cases h : key = k
      · subst h; simp [Ne.symm hk]
      · simp [h]

theorem get?_insertField (name key : String) (value : Json) (fields : List (String × Json)) :
    (object (insertField name value fields)).get? key =
      if key = name then some value else (object fields).get? key :=
  lookup_insertField name key value fields

end Json

end Krl
