import Krl.Proofs.Completion.Functions
import Mathlib.Logic.Relation

/-!
# Labels of the completions of a tree

Which labels are offered for a tree, whatever they are offered as. The items are those of the
identifiers, in the order of a walk, with those of the functions among them, and the first of each
label is kept. So a label is offered exactly if an identifier anywhere in the tree has it, other
than as the name of an operator, or an entry of the global block defines a function of that name.

* `mem_walk_iff_inTree`: a walk visits the nodes of a tree.
* `labels_ofNode`: no label is offered twice, and those that are offered are the names of
  identifiers and of functions; no operator is offered as a reference.
-/

set_option autoImplicit false

namespace Krl

namespace Node

/-! ## The nodes of a tree -/

/-- The node stands in the tree: it is the root, or a child of a node that does. -/
def InTree (root n : Node) : Prop :=
  Relation.ReflTransGen (fun parent child => child ∈ parent.children) root n

/-- A walk visits the nodes of a tree. -/
theorem mem_walk_iff_inTree {root n : Node} : n ∈ root.walk ↔ InTree root n := by
  constructor
  · intro hn
    induction hsize : root.size using Nat.strongRecOn generalizing root with
    | _ size ih =>
      subst hsize
      rw [walk_eq, List.mem_cons, List.mem_flatMap] at hn
      rcases hn with rfl | ⟨child, hchild, hn⟩
      · exact .refl
      · exact .head hchild (ih _ (size_lt_of_mem_children hchild) hn rfl)
  · intro h
    induction h using Relation.ReflTransGen.head_induction_on with
    | refl => exact mem_walk_self n
    | head hchild _ ih => exact mem_walk_of_mem_children hchild ih

/-- The entries of the global block, if the node is a ruleset. -/
def globalEntries : Node → List Node
  | ruleset _ _ globals _ _ => globals
  | _ => []

end Node

namespace Completion

/-! ## Items and labels -/

variable {name : String} {n : Node} {item : Completion}

/-- The labels that are kept are those of all items, but for those seen before. -/
theorem mem_map_label_firstOfEach {seen : List String} {items : List Completion} :
    name ∈ (firstOfEach seen items).map label ↔ name ∉ seen ∧ name ∈ items.map label := by
  constructor
  · intro h
    obtain ⟨item, hitem, rfl⟩ := List.mem_map.1 h
    obtain ⟨hseen, hfind⟩ := mem_firstOfEach_iff.1 hitem
    exact ⟨hseen, List.mem_map_of_mem (List.mem_of_find?_eq_some hfind)⟩
  · rintro ⟨hseen, h⟩
    obtain ⟨item, hitem, rfl⟩ := List.mem_map.1 h
    -- the first item of the label is kept, and it need not be this one
    have hsome : (items.find? fun i => i.label == item.label).isSome :=
      List.find?_isSome.2 ⟨item, hitem, beq_self_eq_true _⟩
    obtain ⟨first, hfirst⟩ := Option.isSome_iff_exists.1 hsome
    have hlabel : first.label = item.label := by simpa using List.find?_some hfirst
    rw [← hlabel] at hseen hfirst ⊢
    exact List.mem_map_of_mem (mem_firstOfEach_iff.2 ⟨hseen, hfirst⟩)

/-- What a tree refers to is what its root is, and what the trees below it refer to. -/
theorem references_eq (n : Node) :
    references n = (reference? n).toList ++ n.children.flatMap references := by
  rw [references, Node.walk_eq, List.filterMap_cons, List.filterMap_flatMap]
  cases reference? n <;> rfl

/-- The items of a tree are those of its identifiers, and those of the functions that the entries
of its global block define. -/
theorem mem_mentions_iff : item ∈ mentions n ↔
    item ∈ references n ∨ ∃ entry ∈ n.globalEntries, definition? entry = some item := by
  cases n with
  | ruleset rid metaBlock globals rules span =>
    have hentries : item ∈ globals.flatMap (fun n => (definition? n).toList ++ references n) ↔
        item ∈ globals.flatMap references ∨ ∃ entry ∈ globals, definition? entry = some item := by
      simp only [List.mem_flatMap, List.mem_append, Option.mem_toList, and_or_left, exists_or]
      exact or_comm
    have hself : reference? (.ruleset rid metaBlock globals rules span) = none := rfl
    rw [references_eq, mentions, Node.children, Node.globalEntries, hself, Option.toList_none,
      List.nil_append]
    simp only [List.flatMap_append, List.mem_append, hentries]
    rw [← or_assoc, or_right_comm]
  | _ => simp [mentions, Node.globalEntries]

theorem label_mem_references_iff : name ∈ (references n).map label ↔
    (∃ span, n.InTree (.identifier name span)) ∧ name ∉ Operators.names := by
  simp only [← Node.mem_walk_iff_inTree, ← Operators.isBuiltin_iff, Bool.not_eq_true]
  constructor
  · intro h
    obtain ⟨item, hitem, rfl⟩ := List.mem_map.1 h
    exact (mem_references_iff.1 hitem).1
  · intro h
    exact List.mem_map.2 ⟨⟨name, .reference, none⟩, mem_references_iff.2 ⟨h, rfl⟩, rfl⟩

theorem mem_labels_iff : name ∈ (ofNode n).map label ↔
    (∃ span, n.InTree (.identifier name span)) ∧ name ∉ Operators.names ∨
      ∃ entry ∈ n.globalEntries, Defines name entry := by
  rw [ofNode, mem_map_label_firstOfEach, ← label_mem_references_iff]
  simp only [List.not_mem_nil, not_false_eq_true, true_and, List.mem_map, mem_mentions_iff]
  constructor
  · rintro ⟨item, href | ⟨entry, hentry, hdefinition⟩, rfl⟩
    · exact .inl ⟨item, href, rfl⟩
    · exact .inr ⟨entry, hentry, (definition?_eq_some_iff.1 hdefinition).1⟩
  · rintro (⟨item, href, rfl⟩ | ⟨entry, hentry, hdefines⟩)
    · exact ⟨item, .inl href, rfl⟩
    · exact ⟨⟨name, .function, none⟩,
        .inr ⟨entry, hentry, definition?_eq_some_iff.2 ⟨hdefines, rfl⟩⟩, rfl⟩

/-- No label is offered twice for a tree. The labels are the names of identifiers anywhere in the
tree, without those of operators, and the names of the functions that entries of the global block
of the root define, whatever these are called; no operator is offered as a reference. -/
theorem labels_ofNode (n : Node) :
    ((ofNode n).map label).Nodup ∧
      (∀ name, name ∈ (ofNode n).map label ↔
        (∃ span, n.InTree (.identifier name span)) ∧ name ∉ Operators.names ∨
          ∃ entry ∈ n.globalEntries, Defines name entry) ∧
      ∀ item ∈ ofNode n, item.kind = .reference → item.label ∉ Operators.names := by
  refine ⟨(firstOfEach_nodup [] (mentions n)).1, fun name => mem_labels_iff, ?_⟩
  intro item hitem hkind
  have hmentioned := List.mem_of_find?_eq_some (mem_firstOfEach_iff.1 hitem).2
  rcases mem_mentions_iff.1 hmentioned with href | ⟨entry, -, hdefinition⟩
  · exact (label_mem_references_iff.1 (List.mem_map_of_mem href)).2
  · rw [(definition?_eq_some_iff.1 hdefinition).2] at hkind
    cases hkind

end Completion

end Krl
