/-!
# Built-in operators

The names of the operators that the language provides on its own types of value.

* `mem_names_iff`: a name is listed exactly if some type has it.
-/

set_option autoImplicit false

namespace Krl.Operators

def onSets : List String :=
  ["intersection", "union", "difference", "has", "once", "duplicates", "unique"]

def onMaps : List String :=
  ["get", "delete", "filter", "keys", "length", "map", "put", "set", "values"]

/-- Operators on values of every type. -/
def universal : List String := ["as", "defaultsTo", "encode", "isnull", "klog", "typeof"]

def onNumbers : List String := ["chr", "range", "sprintf"]

def onStrings : List String :=
  ["capitalize", "decode", "extract", "lc", "length", "match", "ord", "replace", "split",
    "sprintf", "substr", "uc"]

def onArrays : List String :=
  ["all", "any", "append", "collect", "filter", "head", "index", "join", "length", "map", "none",
    "notall", "pairwise", "reduce", "reverse", "slice", "splice", "sort", "tail"]

/-- Every operator name, where it is first listed. -/
def names : List String :=
  (onSets ++ onMaps ++ universal ++ onNumbers ++ onStrings ++ onArrays).eraseDups

/-- Is the name that of a built-in operator? -/
def isBuiltin (name : String) : Bool := names.contains name

/-! ## Facts -/

theorem mem_names_iff (name : String) :
    name ∈ names ↔ name ∈ onSets ∨ name ∈ onMaps ∨ name ∈ universal ∨ name ∈ onNumbers ∨
      name ∈ onStrings ∨ name ∈ onArrays := by
  simp [names]

theorem isBuiltin_iff (name : String) : isBuiltin name = true ↔ name ∈ names := by
  simp [isBuiltin]

end Krl.Operators
