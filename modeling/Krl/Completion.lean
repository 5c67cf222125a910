import Krl.Node
import Krl.Operators
import Krl.Token

/-!
# Completions

What an editor may offer at the cursor: names from the tree of a ruleset, names from its tokens
where there is no tree, or the built-in operators.

* `firstOfEach_nodup`: a label is offered once.
* `ofOperators_labels`: every built-in operator is offered.
-/

set_option autoImplicit false

namespace Krl

namespace Completion

inductive Kind where
  | function
  | reference
  | text
deriving DecidableEq, Repr

def Kind.name : Kind → String
  | .function => "Function"
  | .reference => "Reference"
  | .text => "Text"

end Completion

structure Completion where
  label : String
  kind : Completion.Kind
  /-- What is inserted, where that is not the label. -/
  insertText : Option String := none
deriving DecidableEq, Repr

namespace Completion

/-- The first item of each label that is not among those seen. -/
def firstOfEach (seen : List String) : List Completion → List Completion
  | [] => []
  | item :: items =>
    if seen.contains item.label then firstOfEach seen items
    else item :: firstOfEach (item.label :: seen) items

/-! ## From a tree -/

/-- An identifier is a reference, unless it is the name of a built-in operator. -/
def reference? : Node → Option Completion
  | .identifier value _ =>
    if Operators.isBuiltin value then none else some ⟨value, .reference, none⟩
  | _ => none

/-- The references in a tree, in the order of a walk. -/
def references (n : Node) : List Completion := n.walk.filterMap reference?

/-- A declaration whose right side is a function defines its left side's name. -/
def definition? : Node → Option Completion
  | .declaration left (.function ..) _ => left.name?.map fun name => ⟨name, .function, none⟩
  | _ => none

/-- The names that a tree mentions, in the order of a walk. Only an entry of the global block itself
defines a function. -/
def mentions : Node → List Completion
  | .ruleset rid metaBlock globals rules _ =>
    (rid.toList ++ metaBlock.toList).flatMap references ++
      globals.flatMap (fun n => (definition? n).toList ++ references n) ++
      rules.flatMap references
  | n => references n

/-- The completions of a tree. -/
def ofNode (n : Node) : List Completion := firstOfEach [] (mentions n)

/-! ## From tokens -/

/-- The symbols of a list of tokens, each with whether the keyword `function` follows it. That
keyword is part of the definition, and no symbol of its own. -/
def namesOfTokens : List Token → List (List Char × Bool)
  | [] => []
  | [t] => if t.kind = .symbol then [(t.text, false)] else []
  | t :: u :: ts =>
    if t.kind ≠ .symbol then namesOfTokens (u :: ts)
    else if u.kind = .symbol ∧ u.text = ['f', 'u', 'n', 'c', 't', 'i', 'o', 'n'] then
      (t.text, true) :: namesOfTokens ts
    else (t.text, false) :: namesOfTokens (u :: ts)

/-- The completions of a list of tokens: first the functions that it defines, then all other
symbols. -/
def ofTokens (tokens : List Token) : List Completion :=
  let names := namesOfTokens tokens
  let functions := ((names.filter (·.2)).map (·.1)).eraseDups
  let others := ((names.filter fun n => !n.2).map (·.1)).eraseDups
  functions.map (fun name => ⟨String.ofList name, .function, none⟩) ++
    (others.filter fun name => !functions.contains name).map
      fun name => ⟨String.ofList name, .text, none⟩

/-! ## Operators -/

/-- The built-in operators as calls. -/
def ofOperators : List Completion :=
  Operators.names.map fun name => ⟨name, .function, some s!"{name}("⟩

/-! ## Facts -/

theorem firstOfEach_nodup (seen : List String) (items : List Completion) :
    ((firstOfEach seen items).map label).Nodup ∧
      ∀ item ∈ firstOfEach seen items, item.label ∉ seen := by
  induction items generalizing seen with
  | nil => simp [firstOfEach]
  | cons item items ih =>
    simp only [firstOfEach]
    split
    · exact ih seen
    · next h =>
      have ⟨h₁, h₂⟩ := ih (item.label :: seen)
      refine ⟨List.nodup_cons.2 ⟨?_, h₁⟩, ?_⟩
      · intro hmem
        obtain ⟨other, hother, hlabel⟩ := List.mem_map.1 hmem
        exact h₂ other hother (by simp [hlabel])
      · intro other hother
        rcases List.mem_cons.1 hother with rfl | hother
        · simpa using h
        · exact fun hseen => h₂ other hother (List.mem_cons_of_mem _ hseen)

theorem ofOperators_labels : ofOperators.map label = Operators.names := by
  simp [ofOperators, Function.comp_def]

end Completion

end Krl
