import Krl.Node
import Mathlib.Data.List.FinRange
import Mathlib.Data.List.Nodup
import Mathlib.Logic.Function.Iterate

/-!
# The order of a walk

A walk keeps a stack of the trees that are still to be walked through (`Walking`). Each round takes
one tree off and puts those right below it on. Then there is one node less on the stack
(`Walking.sizeAll_round`), and what will have been visited in the end is the same
(`Walking.walkStack_round`). Nodes of a tree may be alike; what tells them apart are their places.

* `walk_eq_subtrees`: a walk visits what recursion over the tree lists.
* `Walking.stack_rounds_eq_nil_iff`: its loop ends after as many rounds as there are nodes.
* `map_nodeAt?_places`, `pairwise_places`: it visits the nodes at the places of the tree, a node in
  front of those below it, and those below a child in front of those below its later siblings.
* `walk_in_order`: all of this together.
-/

set_option autoImplicit false

namespace Krl.Node

/-- What holds of a tree if it holds of its children holds of all trees. -/
@[elab_as_elim]
theorem induction_children {P : Node → Prop}
    (step : ∀ n : Node, (∀ child ∈ n.children, P child) → P n) (n : Node) : P n := by
  induction hsize : n.size using Nat.strongRecOn generalizing n with
  | _ size ih =>
    subst hsize
    exact step n fun child hchild => ih _ (size_lt_of_mem_children hchild) child rfl

/-! ## Recursion over the tree -/

mutual

/-- A tree and all below it: the tree itself, then what each of its parts lists. -/
def subtrees : Node → List Node
  | n@(ruleset rid metaBlock globals rules _) =>
    n :: (subtreesOption rid ++ subtreesOption metaBlock ++ subtreesAll globals ++
      subtreesAll rules)
  | n@(rulesetMeta properties _) => n :: subtreesAll properties
  | n@(metaProperty _ _ value _) => n :: subtreesOption value
  | n@(declaration left right _) => n :: (subtrees left ++ subtrees right)
  | n@(defAction id children _) | n@(rule id children _) =>
    n :: (subtrees id ++ subtreesAll children)
  | n@(function children _) | n@(other _ children _) => n :: subtreesAll children
  | n@(rulesetId ..) | n@(identifier ..) => [n]

/-- Several trees and all below them, tree by tree. -/
def subtreesAll : List Node → List Node
  | [] => []
  | n :: ns => subtrees n ++ subtreesAll ns

def subtreesOption : Option Node → List Node
  | none => []
  | some n => subtrees n

end

theorem subtreesAll_eq_flatMap (ns : List Node) : subtreesAll ns = ns.flatMap subtrees := by
  induction ns with
  | nil => rw [subtreesAll, List.flatMap_nil]
  | cons n ns ih => rw [subtreesAll, ih, List.flatMap_cons]

theorem subtreesOption_eq_flatMap (n : Option Node) :
    subtreesOption n = n.toList.flatMap subtrees := by
  cases n <;> simp [subtreesOption]

/-- The parts are the children, from left to right. -/
theorem subtrees_eq (n : Node) : n.subtrees = n :: n.children.flatMap subtrees := by
  cases n <;>
    simp [subtrees, children, subtreesAll_eq_flatMap, subtreesOption_eq_flatMap]

theorem walk_eq_subtrees (n : Node) : n.walk = n.subtrees := by
  induction n using induction_children with
  | step n ih => rw [walk_eq, subtrees_eq, List.flatMap_congr ih]

/-! ## Rounds of the loop -/

theorem sizeAll_reverse (ns : List Node) : sizeAll ns.reverse = sizeAll ns := by
  induction ns with
  | nil => rfl
  | cons n ns ih => simp [ih, Nat.add_comm]

theorem sizeAll_eq_zero_iff {ns : List Node} : sizeAll ns = 0 ↔ ns = [] := by
  cases ns with
  | nil => simp
  | cons n ns => simp [size_eq n]

/-- A walk that is under way. The stack grows at its end. -/
structure Walking where
  stack : List Node
  visited : Array Node

namespace Walking

def start (n : Node) : Walking := ⟨[n], #[]⟩

/-- One round of the loop: the node at the end of the stack is taken off and visited, and its
children are put on, the last of them first. With nothing on the stack the walk is over. -/
def round (w : Walking) : Walking :=
  match w.stack.getLast? with
  | none => w
  | some n => ⟨w.stack.dropLast ++ n.children.reverse, w.visited.push n⟩

theorem round_concat (stack : List Node) (n : Node) (visited : Array Node) :
    round ⟨stack ++ [n], visited⟩ = ⟨stack ++ n.children.reverse, visited.push n⟩ := by
  simp [round]

/-- What a walk will have visited in the end stays the same. -/
theorem walkStack_round (w : Walking) :
    walkStack w.round.stack.reverse w.round.visited = walkStack w.stack.reverse w.visited := by
  obtain ⟨stack, visited⟩ := w
  rcases stack.eq_nil_or_concat' with rfl | ⟨stack, n, rfl⟩
  · rfl
  · rw [round_concat]
    simp [walkStack_cons]

/-- There is one node less to visit. -/
theorem sizeAll_round (w : Walking) : sizeAll w.round.stack = sizeAll w.stack - 1 := by
  obtain ⟨stack, visited⟩ := w
  rcases stack.eq_nil_or_concat' with rfl | ⟨stack, n, rfl⟩
  · rfl
  · rw [round_concat]
    simp [sizeAll_reverse, size_eq n]

theorem walkStack_rounds (w : Walking) (rounds : Nat) :
    walkStack (round^[rounds] w).stack.reverse (round^[rounds] w).visited =
      walkStack w.stack.reverse w.visited := by
  induction rounds with
  | zero => rfl
  | succ rounds ih => rw [Function.iterate_succ_apply', walkStack_round, ih]

theorem sizeAll_rounds (w : Walking) (rounds : Nat) :
    sizeAll (round^[rounds] w).stack = sizeAll w.stack - rounds := by
  induction rounds with
  | zero => rfl
  | succ rounds ih => rw [Function.iterate_succ_apply', sizeAll_round, ih, Nat.sub_sub]

/-- The walk is over after as many rounds as the tree has nodes, and not before. -/
theorem stack_rounds_eq_nil_iff (n : Node) (rounds : Nat) :
    (round^[rounds] (start n)).stack = [] ↔ n.size ≤ rounds := by
  rw [← sizeAll_eq_zero_iff, sizeAll_rounds, Nat.sub_eq_zero_iff_le]
  simp [start]

theorem visited_rounds (n : Node) : (round^[n.size] (start n)).visited.toList = n.walk := by
  have hrun := walkStack_rounds (start n) n.size
  rw [(stack_rounds_eq_nil_iff n n.size).2 (Nat.le_refl _), List.reverse_nil, walkStack_nil] at hrun
  rw [hrun]
  rfl

end Walking

/-! ## Places -/

/-- The node at a place. A place is the way down from the root, as the number of the child to go to
at each node. -/
def nodeAt? (n : Node) : List Nat → Option Node
  | [] => some n
  | i :: place => n.children[i]?.bind fun child => child.nodeAt? place

/-- The places of a tree: that of its root, then those in each child, from left to right. -/
def places (n : Node) : List (List Nat) :=
  [] :: (List.finRange n.children.length).flatMap fun i =>
    (places n.children[i.val]).map (i.val :: ·)
termination_by n.size
decreasing_by exact size_lt_of_mem_children (List.getElem_mem _)

/-- A place is in front of those below it, and places in a child are in front of those in a later
child of the same node. -/
inductive Before : List Nat → List Nat → Prop
  | below (place : List Nat) (i : Nat) (rest : List Nat) : Before place (place ++ i :: rest)
  | beside (place : List Nat) {i j : Nat} (h : i < j) (rest rest' : List Nat) :
    Before (place ++ i :: rest) (place ++ j :: rest')

theorem Before.cons {p q : List Nat} (h : Before p q) (i : Nat) : Before (i :: p) (i :: q) := by
  cases h with
  | below _ j rest => exact .below (i :: p) j rest
  | beside place h rest rest' => exact .beside (i :: place) h rest rest'

theorem Before.ne {p q : List Nat} (h : Before p q) : p ≠ q := by
  cases h with
  | below place i rest => simp
  | beside place h rest rest' => simp [Nat.ne_of_lt h]

theorem places_eq (n : Node) : n.places = [] :: (List.finRange n.children.length).flatMap fun i =>
    (places n.children[i.val]).map (i.val :: ·) := by
  rw [places]

theorem cons_mem_places_iff {n : Node} {i : Nat} {place : List Nat} : i :: place ∈ n.places ↔
    ∃ child, n.children[i]? = some child ∧ place ∈ child.places := by
  rw [places_eq, List.mem_cons, List.mem_flatMap]
  constructor
  · rintro (hnil | ⟨j, -, hplace⟩)
    · cases hnil
    · obtain ⟨rest, hrest, hcons⟩ := List.mem_map.1 hplace
      cases hcons
      exact ⟨_, List.getElem?_eq_getElem j.isLt, hrest⟩
  · rintro ⟨child, hchild, hplace⟩
    obtain ⟨hi, rfl⟩ := List.getElem?_eq_some_iff.1 hchild
    exact .inr ⟨⟨i, hi⟩, List.mem_finRange _, List.mem_map_of_mem hplace⟩

/-- The places of a tree are those at which it has a node. -/
theorem mem_places_iff {n : Node} {place : List Nat} :
    place ∈ n.places ↔ (n.nodeAt? place).isSome := by
  -- along the way down: only the child that it goes through matters, so no induction on the tree
  induction place generalizing n with
  | nil =>
    rw [places_eq]
    simp [nodeAt?]
  | cons i place ih =>
    rw [cons_mem_places_iff, nodeAt?]
    cases n.children[i]? with
    | none => simp
    | some child => simp [ih]

theorem pairwise_places (n : Node) : n.places.Pairwise Before := by
  induction n using induction_children with
  | step n ih =>
    rw [places_eq, List.pairwise_cons, List.pairwise_flatMap]
    refine ⟨fun place hplace => ?_, fun i _ => ?_, ?_⟩
    · obtain ⟨i, -, hplace⟩ := List.mem_flatMap.1 hplace
      obtain ⟨rest, -, rfl⟩ := List.mem_map.1 hplace
      exact .below [] i rest
    · exact List.pairwise_map.2 ((ih _ (List.getElem_mem _)).imp fun h => h.cons i)
    · refine (List.pairwise_lt_finRange _).imp fun {i j} hij p hp q hq => ?_
      obtain ⟨rest, -, rfl⟩ := List.mem_map.1 hp
      obtain ⟨rest', -, rfl⟩ := List.mem_map.1 hq
      exact .beside [] hij rest rest'

/-- A walk visits the nodes at the places of the tree, in the order of the places. -/
theorem map_nodeAt?_places (n : Node) : n.places.map n.nodeAt? = n.walk.map some := by
  induction n using induction_children with
  | step n ih =>
    -- the places in a child lead to the nodes that they lead to from there
    have hbelow : ∀ i : Fin n.children.length,
        (n.children[i.val].places.map (i.val :: ·)).map n.nodeAt? =
          n.children[i.val].walk.map some := by
      intro i
      rw [← ih _ (List.getElem_mem _), List.map_map]
      refine List.map_congr_left fun place _ => ?_
      rw [Function.comp_apply, nodeAt?, List.getElem?_eq_getElem i.isLt, Option.bind_some]
    rw [places_eq, walk_eq, List.map_cons, List.map_cons, List.map_flatMap, List.map_flatMap,
      List.flatMap_congr fun i _ => hbelow i]
    conv_rhs => rw [← List.map_getElem_finRange n.children, List.flatMap_map]
    rfl

/-- A walk visits what recursion over the tree lists: the node itself, then what each of its
children lists. Its loop ends after as many rounds as there are nodes, no sooner, and has visited
them all by then. They are the nodes at the places of the tree, each place once, a node in front of
those below it and all in a child in front of all in a later one. -/
theorem walk_in_order (n : Node) :
    n.walk = n.subtrees ∧ n.subtrees = n :: n.children.flatMap subtrees ∧
      (∀ rounds, (Walking.round^[rounds] (.start n)).stack = [] ↔ n.size ≤ rounds) ∧
      (Walking.round^[n.size] (.start n)).visited.toList = n.walk ∧
      n.places.map n.nodeAt? = n.walk.map some ∧ n.places.Nodup ∧ n.places.Pairwise Before ∧
      ∀ place, place ∈ n.places ↔ (n.nodeAt? place).isSome :=
  ⟨walk_eq_subtrees n, subtrees_eq n, Walking.stack_rounds_eq_nil_iff n, Walking.visited_rounds n,
    map_nodeAt?_places n, (pairwise_places n).imp Before.ne, pairwise_places n,
    fun _ => mem_places_iff⟩

end Krl.Node
