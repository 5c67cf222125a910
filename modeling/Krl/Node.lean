/-!
# Nodes of a ruleset

The tree of a ruleset, as far as tools look at it: the types of node that outlines and completions
need have a form of their own, and every other type is kept with its child nodes.

* `size_lt_of_mem_children`: a child is smaller than its parent.
* `walkStack_nil`, `walkStack_cons`: how a walk goes on.
* `walk_eq`: a walk visits a node, and then walks through its children.
-/

set_option autoImplicit false

namespace Krl

/-- A range of character offsets, the end not included. -/
structure Span where
  start : Nat
  stop : Nat
deriving DecidableEq, Repr

inductive Node where
  | ruleset (rid metaBlock : Option Node) (globals rules : List Node) (span : Option Span)
  | rulesetId (value : String) (span : Span)
  | rulesetMeta (properties : List Node) (span : Span)
  | metaProperty (key : String) (keySpan : Span) (value : Option Node) (span : Option Span)
  | declaration (left right : Node) (span : Span)
  | defAction (id : Node) (children : List Node) (span : Span)
  | function (children : List Node) (span : Option Span)
  | rule (name : Node) (children : List Node) (span : Span)
  | identifier (value : String) (span : Option Span)
  /-- A node of a type without a form of its own. -/
  | other (type : String) (children : List Node) (span : Option Span)
deriving Repr

namespace Node

/-- The name of a node's type. -/
def tag : Node → String
  | ruleset .. => "Ruleset"
  | rulesetId .. => "RulesetID"
  | rulesetMeta .. => "RulesetMeta"
  | metaProperty .. => "RulesetMetaProperty"
  | declaration .. => "Declaration"
  | defAction .. => "DefAction"
  | function .. => "Function"
  | rule .. => "Rule"
  | identifier .. => "Identifier"
  | other type .. => type

def span? : Node → Option Span
  | rulesetId _ span | rulesetMeta _ span | declaration _ _ span | defAction _ _ span
  | rule _ _ span => some span
  | ruleset _ _ _ _ span | metaProperty _ _ _ span | function _ span | identifier _ span
  | other _ _ span => span

/-- The name that an identifier or the id of a ruleset carries. -/
def name? : Node → Option String
  | identifier value _ | rulesetId value _ => some value
  | _ => none

/-- The nodes directly below, in the order of the fields that hold them. -/
def children : Node → List Node
  | ruleset rid metaBlock globals rules _ => rid.toList ++ metaBlock.toList ++ globals ++ rules
  | rulesetMeta properties _ => properties
  | metaProperty _ _ value _ => value.toList
  | declaration left right _ => [left, right]
  | defAction id children _ | rule id children _ => id :: children
  | function children _ | other _ children _ => children
  | rulesetId .. | identifier .. => []

/-! ## Size -/

mutual

/-- The number of nodes of a tree. -/
def size : Node → Nat
  | ruleset rid metaBlock globals rules _ =>
    sizeOption rid + sizeOption metaBlock + sizeAll globals + sizeAll rules + 1
  | rulesetMeta properties _ => sizeAll properties + 1
  | metaProperty _ _ value _ => sizeOption value + 1
  | declaration left right _ => size left + size right + 1
  | defAction id children _ | rule id children _ => size id + sizeAll children + 1
  | function children _ | other _ children _ => sizeAll children + 1
  | rulesetId .. | identifier .. => 1

/-- The number of nodes of several trees. -/
def sizeAll : List Node → Nat
  | [] => 0
  | n :: ns => size n + sizeAll ns

def sizeOption : Option Node → Nat
  | none => 0
  | some n => size n

end

@[simp] theorem sizeAll_nil : sizeAll [] = 0 := by simp [sizeAll]

@[simp] theorem sizeAll_cons (n : Node) (ns : List Node) :
    sizeAll (n :: ns) = n.size + sizeAll ns := by
  simp [sizeAll]

@[simp] theorem sizeAll_append (ns ms : List Node) :
    sizeAll (ns ++ ms) = sizeAll ns + sizeAll ms := by
  induction ns with
  | nil => simp
  | cons n ns ih => simp [ih]; omega

@[simp] theorem sizeAll_toList (n : Option Node) : sizeAll n.toList = sizeOption n := by
  cases n <;> simp [sizeOption]

/-- A tree has one node more than those below it have together. -/
theorem size_eq (n : Node) : n.size = sizeAll n.children + 1 := by
  cases n <;> simp [size, children, Nat.add_assoc]

theorem size_le_sizeAll {n : Node} {ns : List Node} (h : n ∈ ns) : n.size ≤ sizeAll ns := by
  induction ns with
  | nil => simp at h
  | cons m ns ih =>
    rcases List.mem_cons.1 h with rfl | h
    · simp
    · have := ih h
      simp
      omega

theorem size_lt_of_mem_children {n child : Node} (h : child ∈ n.children) :
    child.size < n.size := by
  have := size_le_sizeAll h
  have := size_eq n
  omega

/-! ## Walks -/

/-- Visit the nodes on a stack and all below them: the top of the stack first, and behind it its
children, then the rest of the stack. -/
def walkStack (stack : List Node) (visited : Array Node) : Array Node :=
  match stack with
  | [] => visited
  | n :: stack => walkStack (n.children ++ stack) (visited.push n)
termination_by sizeAll stack
decreasing_by
  have := size_eq n
  simp
  omega

/-- The node and all below it, each in front of its children. -/
def walk (n : Node) : List Node := (walkStack [n] #[]).toList

@[simp] theorem walkStack_nil (visited : Array Node) : walkStack [] visited = visited := by
  rw [walkStack]

theorem walkStack_cons (n : Node) (stack : List Node) (visited : Array Node) :
    walkStack (n :: stack) visited = walkStack (n.children ++ stack) (visited.push n) := by
  rw [walkStack]

/-- A stack is walked through from its top to its bottom, tree by tree. -/
theorem toList_walkStack (stack : List Node) (visited : Array Node) :
    (walkStack stack visited).toList = visited.toList ++ stack.flatMap walk := by
  induction hsize : sizeAll stack using Nat.strongRecOn generalizing stack visited with
  | _ size ih =>
    subst hsize
    cases stack with
    | nil => simp
    | cons n stack =>
      -- the children of the top are fewer nodes also where nothing lies below the top
      have hn := size_eq n
      have hwalk : n.walk = n :: n.children.flatMap walk := by
        rw [walk, walkStack_cons, List.append_nil, ih _ (by rw [sizeAll_cons]; omega) _ _ rfl]
        rfl
      rw [walkStack_cons, ih _ (by rw [sizeAll_append, sizeAll_cons]; omega) _ _ rfl,
        List.flatMap_append, List.flatMap_cons, hwalk, Array.toList_push]
      simp only [List.append_assoc, List.cons_append, List.nil_append]

/-- A walk visits a node, and then walks through its children. -/
theorem walk_eq (n : Node) : n.walk = n :: n.children.flatMap walk := by
  rw [walk, walkStack_cons, List.append_nil, toList_walkStack]
  rfl

theorem mem_walk_self (n : Node) : n ∈ n.walk := by
  rw [walk_eq]
  exact List.mem_cons_self

theorem mem_walk_of_mem_children {n child m : Node} (hchild : child ∈ n.children)
    (h : m ∈ child.walk) : m ∈ n.walk := by
  rw [walk_eq]
  exact List.mem_cons_of_mem _ (List.mem_flatMap.2 ⟨child, hchild, h⟩)

end Node

end Krl
