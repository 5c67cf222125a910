import Krl.Proofs.Json.Parts
import Krl.Proofs.Node.Acceptance
import Mathlib.Data.List.Forall2

/-!
# What a walk visits

The reading descends from an object to its child nodes, and a walk from a node to its children.
Child for child the two agree (`ReadAs.children`), since each step of the reading gives the nodes
of the objects that it is asked for, in their order. So a walk visits what the reading has descended
to, each object once and in front of what is found below it.

* `mem_walk_iff`: a walk visits the nodes of what is reached, and no others.
* `tags_of_walk`: the types that a walk meets are the tags of the objects, in their order.
* `tags_of_walk_of_ofText?`: so it is for a tree that is read from a text.
-/

set_option autoImplicit false

namespace Krl.Node

/-! ## The objects of a tree -/

/-- The tag of a value that has one. -/
def tagOf? (value : Json) : Option String := value.fields?.bind tag?

/-- The fields of an object in ascending order of their names. -/
def ascending (fields : Fields) : Fields := fields.mergeSort fun f g => f.1 ≤ g.1

/-- The child nodes of a value; where all fields are looked into, the order is that of their
names. -/
def descend (value : Json) : List Json :=
  match value with
  | .object fields =>
    match tag? fields with
    | some type => childNodes type (ascending fields)
    | none => []
  | _ => []

theorem sizeOf_lt_of_mem_descend {value w : Json} (h : w ∈ descend value) :
    sizeOf w < sizeOf value := by
  unfold descend at h
  split at h
  · split at h
    · obtain ⟨f, hf, hw⟩ := exists_field_of_childNodes h
      exact sizeOf_lt_of_mem_field (List.mem_mergeSort.1 hf) hw
    · cases h
  · cases h

/-- A value and all that is descended to from it, each object in front of what is found below. -/
def preorder (value : Json) : List Json :=
  value :: (descend value).attach.flatMap fun w => preorder w.1
termination_by sizeOf value
decreasing_by exact sizeOf_lt_of_mem_descend w.2

theorem preorder_eq (value : Json) :
    preorder value = value :: (descend value).flatMap preorder := by
  rw [preorder]
  simp only [List.flatMap_subtype, List.unattach_attach]

theorem ascending_eq {fields : Fields} (h : (fields.map (·.1)).Pairwise (· < ·)) :
    ascending fields = fields := by
  refine List.mergeSort_of_pairwise ((List.pairwise_map.1 h).imp fun hlt => ?_)
  exact decide_eq_true (le_of_lt hlt)

theorem descend_eq {value : Json} (h : value.Ordered) : descend value = nodesIn value := by
  cases value with
  | object fields =>
    rw [descend, ascending_eq (h fields .refl)]
    rfl
  | _ => rfl

theorem inside_of_mem_typedIn {v w : Json} (h : w ∈ typedIn v) : v.Inside w :=
  typedIn_induction (P := fun v => v.Inside w) (fun _ => .refl)
    (fun _ _ hu hw => .head hu hw) v h

theorem inside_of_mem_nodesIn {v w : Json} (h : w ∈ nodesIn v) : v.Inside w := by
  unfold nodesIn at h
  split at h
  · split at h
    · obtain ⟨f, hf, hw⟩ := exists_field_of_childNodes h
      exact .head (List.mem_map_of_mem hf) (inside_of_mem_typedIn hw)
    · cases h
  · cases h

theorem ordered_of_mem_nodesIn {v w : Json} (h : v.Ordered) (hw : w ∈ nodesIn v) : w.Ordered :=
  fun fields hinside => h fields ((inside_of_mem_nodesIn hw).trans hinside)

/-! ## Lists side by side -/

section
variable {α β γ δ : Type} {R : α → β → Prop} {P : γ → δ → Prop} {as : List α} {bs : List β}

theorem exists_of_forall₂_left (h : List.Forall₂ R as bs) {a : α} (ha : a ∈ as) :
    ∃ b ∈ bs, R a b := by
  induction h with
  | nil => cases ha
  | cons hab _ ih =>
    rcases List.mem_cons.1 ha with rfl | ha
    · exact ⟨_, List.mem_cons_self, hab⟩
    · obtain ⟨b, hb, hr⟩ := ih ha
      exact ⟨b, List.mem_cons_of_mem _ hb, hr⟩

theorem exists_of_forall₂_right (h : List.Forall₂ R as bs) {b : β} (hb : b ∈ bs) :
    ∃ a ∈ as, R a b :=
  exists_of_forall₂_left h.flip hb

theorem forall₂_flatMap {f : α → List γ} {g : β → List δ} (h : List.Forall₂ R as bs)
    (hfg : ∀ a ∈ as, ∀ b, R a b → List.Forall₂ P (f a) (g b)) :
    List.Forall₂ P (as.flatMap f) (bs.flatMap g) := by
  induction h with
  | nil => exact .nil
  | cons hab _ ih =>
    obtain ⟨hhead, htail⟩ := List.forall_mem_cons.1 hfg
    exact List.rel_append (hhead _ hab) (ih htail)

end

/-! ## Steps of the reading -/

/-- The value is read as this node. -/
def ReadAs (value : Json) (n : Node) : Prop := reading value = .node (.ok n)

section
variable {α β : Type}

theorem ok_of_bind {x : Except Malformed α} {f : α → Except Malformed β} {b : β}
    (h : (x >>= f) = .ok b) : ∃ a, x = .ok a ∧ f a = .ok b := by
  cases x with
  | error e => cases h
  | ok a => exact ⟨a, rfl, h⟩

theorem ok_of_map {x : Except Malformed α} {f : α → β} {b : β} (h : x.map f = .ok b) :
    ∃ a, x = .ok a ∧ f a = b := by
  cases x with
  | error e => cases h
  | ok a => exact ⟨a, rfl, Except.ok.inj h⟩

end

mutual

theorem forall₂_nodes : ∀ (v : Json) {ns : List Node}, (reading v).nodes = .ok ns →
    List.Forall₂ ReadAs (typedIn v) ns
  | .array items, _, h => forall₂_concat items h
  | .object fields, ns, h => by
    by_cases htyped : IsTyped (.object fields)
    · obtain ⟨result, hresult⟩ := reading_of_isTyped htyped
      rw [hresult, Reading.nodes_node] at h
      obtain ⟨n, rfl, rfl⟩ := ok_of_map h
      rw [typedIn_of_isTyped htyped]
      exact .cons hresult .nil
    · rw [reading_of_untagged htyped] at h
      cases h
      rw [typedIn_of_not_isTyped htyped (by simp)]
      exact .nil
  | .null, _, h | .bool _, _, h | .int _, _, h | .real _, _, h | .string _, _, h => by
    cases h
    exact .nil

theorem forall₂_concat : ∀ (vs : List Json) {ns : List Node},
    Reading.concat (readings vs) = .ok ns → List.Forall₂ ReadAs (typedInAll vs) ns
  | [], _, h => by
    cases h
    exact .nil
  | v :: vs, ns, h => by
    rw [readings, Reading.concat] at h
    obtain ⟨ms, hms, h⟩ := ok_of_bind h
    obtain ⟨ks, hks, h⟩ := ok_of_bind h
    cases h
    exact List.rel_append (forall₂_nodes v hms) (forall₂_concat vs hks)

end

section
variable {type : String} {fields : Fields} {field : String}

theorem forall₂_node? {found : Option Node} (h : (fieldReadings fields).node? field = .ok found) :
    List.Forall₂ ReadAs (typedAt fields field) found.toList := by
  unfold FieldReadings.node? at h
  rw [lookup_fieldReadings] at h
  cases hv : fields.lookup field with
  | none =>
    rw [hv] at h
    cases h
    simp [typedAt, hv]
  | some v =>
    rw [hv, Option.map_some] at h
    by_cases htyped : IsTyped v
    · obtain ⟨result, hresult⟩ := reading_of_isTyped htyped
      rw [hresult] at h
      obtain ⟨n, rfl, rfl⟩ := ok_of_map h
      have hone : typedAt fields field = [v] := by simp [typedAt, hv, htyped]
      rw [hone]
      exact .cons hresult .nil
    · dsimp only at h
      rw [node?_of_not_isTyped htyped] at h
      cases h
      simp [typedAt, hv, htyped]

theorem forall₂_required {n : Node} (h : (fieldReadings fields).required type field = .ok n) :
    List.Forall₂ ReadAs (typedAt fields field) [n] := by
  obtain ⟨found, hfound, h⟩ := ok_of_bind h
  cases found with
  | none => cases h
  | some m =>
    cases h
    exact forall₂_node? hfound

theorem forall₂_field {ns : List Node} (h : (fieldReadings fields).nodes field = .ok ns) :
    List.Forall₂ ReadAs (typedUnder fields field) ns := by
  unfold FieldReadings.nodes at h
  rw [lookup_fieldReadings] at h
  unfold typedUnder
  cases hv : fields.lookup field with
  | none =>
    rw [hv] at h
    cases h
    exact .nil
  | some v =>
    rw [hv] at h
    rw [Option.toList_some, typedInAll, typedInAll, List.append_nil]
    exact forall₂_nodes v h

theorem forall₂_others {named : List String} {ns : List Node}
    (h : (fieldReadings fields).others named = .ok ns) :
    List.Forall₂ ReadAs (typedBeside fields named) ns := by
  rw [others_fieldReadings] at h
  exact forall₂_concat _ h

/-! ## Children -/

/-- What there is to say of the node that an object with this tag is read as. -/
structure Assembled (type : String) (fields : Fields) (n : Node) : Prop where
  tag : n.tag = type
  children : List.Forall₂ ReadAs (childNodes type fields) n.children
  form : ∀ tag children span, n = .other tag children span → tag ∉ forms

theorem assembled {n : Node} (h : assemble type fields (fieldReadings fields) = .ok n) :
    Assembled type fields n := by
  -- One case for each type, in the order of `assemble`.
  unfold assemble at h
  split at h
  · obtain ⟨rid, hrid, h⟩ := ok_of_bind h
    obtain ⟨metaBlock, hmeta, h⟩ := ok_of_bind h
    obtain ⟨globals, hglobals, h⟩ := ok_of_bind h
    obtain ⟨rules, hrules, h⟩ := ok_of_bind h
    cases h
    refine ⟨rfl, ?_, by simp⟩
    simp only [Node.children, List.append_assoc]
    exact List.rel_append (forall₂_node? hrid) (List.rel_append (forall₂_node? hmeta)
      (List.rel_append (forall₂_field hglobals) (forall₂_field hrules)))
  · obtain ⟨value, -, h⟩ := ok_of_bind h
    obtain ⟨span, -, h⟩ := ok_of_bind h
    cases h
    exact ⟨rfl, .nil, by simp⟩
  · obtain ⟨properties, hproperties, h⟩ := ok_of_bind h
    obtain ⟨span, -, h⟩ := ok_of_bind h
    cases h
    exact ⟨rfl, forall₂_field hproperties, by simp⟩
  · obtain ⟨key, -, h⟩ := ok_of_bind h
    obtain ⟨name, -, h⟩ := ok_of_bind h
    obtain ⟨keySpan, -, h⟩ := ok_of_bind h
    obtain ⟨value, hvalue, h⟩ := ok_of_bind h
    cases h
    exact ⟨rfl, forall₂_node? hvalue, by simp⟩
  · obtain ⟨left, hleft, h⟩ := ok_of_bind h
    obtain ⟨right, hright, h⟩ := ok_of_bind h
    obtain ⟨span, -, h⟩ := ok_of_bind h
    cases h
    exact ⟨rfl, List.rel_append (forall₂_required hleft) (forall₂_required hright), by simp⟩
  · obtain ⟨id, hid, h⟩ := ok_of_bind h
    obtain ⟨children, hchildren, h⟩ := ok_of_bind h
    obtain ⟨span, -, h⟩ := ok_of_bind h
    cases h
    exact ⟨rfl, List.rel_append (forall₂_required hid) (forall₂_others hchildren), by simp⟩
  · obtain ⟨children, hchildren, h⟩ := ok_of_bind h
    cases h
    exact ⟨rfl, forall₂_others hchildren, by simp⟩
  · obtain ⟨name, hname, h⟩ := ok_of_bind h
    obtain ⟨children, hchildren, h⟩ := ok_of_bind h
    obtain ⟨span, -, h⟩ := ok_of_bind h
    cases h
    exact ⟨rfl, List.rel_append (forall₂_required hname) (forall₂_others hchildren), by simp⟩
  · obtain ⟨value, -, h⟩ := ok_of_bind h
    cases h
    exact ⟨rfl, .nil, by simp⟩
  · -- The tag is none of those named, and all fields are looked into.
    obtain ⟨children, hchildren, h⟩ := ok_of_bind h
    cases h
    have htype : type ∉ forms := by simp_all [forms]
    refine ⟨rfl, ?_, ?_⟩
    · rw [childNodes_of_not_mem_forms htype]
      exact forall₂_others hchildren
    · rintro tag _ _ ⟨⟩
      exact htype

end

/-! ## Walks -/

section
variable {value : Json} {n : Node}

theorem ReadAs.assembled (h : ReadAs value n) : ∃ fields type, value = .object fields ∧
    tag? fields = some type ∧ Assembled type fields n := by
  obtain ⟨fields, type, rfl, htag⟩ := isTyped_iff.1 (isTyped_of_reading h)
  rw [ReadAs, reading_of_tag htag, Reading.node.injEq] at h
  exact ⟨fields, type, rfl, htag, Node.assembled h⟩

theorem ReadAs.tag (h : ReadAs value n) : tagOf? value = some n.tag := by
  obtain ⟨fields, type, rfl, htag, hn⟩ := h.assembled
  rw [hn.tag]
  exact htag

/-- The child nodes of an object are read as the children of its node. -/
theorem ReadAs.children (h : ReadAs value n) : List.Forall₂ ReadAs (nodesIn value) n.children := by
  obtain ⟨fields, type, rfl, htag, hn⟩ := h.assembled
  rw [nodesIn, htag]
  exact hn.children

theorem ReadAs.unique {n' : Node} (h : ReadAs value n) (h' : ReadAs value n') : n = n' := by
  rw [ReadAs, h, Reading.node.injEq, Except.ok.injEq] at h'
  exact h'

/-- A walk visits the nodes of what is reached, and no others. -/
theorem mem_walk_iff (h : ReadAs value n) {m : Node} :
    m ∈ n.walk ↔ ∃ v, Reached value v ∧ ReadAs v m := by
  constructor
  · intro hm
    induction hsize : n.size using Nat.strongRecOn generalizing value n with
    | _ size ih =>
      subst hsize
      rw [walk_eq, List.mem_cons, List.mem_flatMap] at hm
      rcases hm with rfl | ⟨child, hchild, hm⟩
      · exact ⟨value, .refl, h⟩
      · obtain ⟨v, hv, hread⟩ := exists_of_forall₂_right h.children hchild
        obtain ⟨w, hw, hm⟩ := ih _ (size_lt_of_mem_children hchild) hread hm rfl
        exact ⟨w, .head hv hw, hm⟩
  · rintro ⟨v, hreached, hm⟩
    induction hreached using Relation.ReflTransGen.head_induction_on generalizing n with
    | refl =>
      rw [h.unique hm]
      exact mem_walk_self _
    | head hchild _ ih =>
      obtain ⟨child, hmem, hread⟩ := exists_of_forall₂_left h.children hchild
      exact mem_walk_of_mem_children hmem (ih hread)

/-- What is descended to is read as what is walked through, one after the other. -/
theorem forall₂_walk (hordered : value.Ordered) (h : ReadAs value n) :
    List.Forall₂ ReadAs (preorder value) n.walk := by
  induction hsize : sizeOf value using Nat.strongRecOn generalizing value n with
  | _ size ih =>
    subst hsize
    rw [preorder_eq, walk_eq, descend_eq hordered]
    refine .cons h (forall₂_flatMap h.children fun v hv m hm => ?_)
    exact ih _ (sizeOf_lt_of_mem_descend (descend_eq hordered ▸ hv))
      (ordered_of_mem_nodesIn hordered hv) hm rfl

theorem tags_walk (hordered : value.Ordered) (h : ReadAs value n) :
    (preorder value).map tagOf? = n.walk.map fun m => some m.tag := by
  rw [← List.forall₂_eq_eq_eq]
  exact List.forall₂_map_left_iff.2 (List.forall₂_map_right_iff.2
    ((forall₂_walk hordered h).imp fun v m hm => hm.tag))

theorem not_mem_forms_of_mem_walk (h : ReadAs value n) {type : String} {children : List Node}
    {span : Option Span} (hm : .other type children span ∈ n.walk) : type ∉ forms := by
  obtain ⟨v, -, hv⟩ := (mem_walk_iff h).1 hm
  obtain ⟨_, _, -, -, hassembled⟩ := hv.assembled
  exact hassembled.form _ _ _ rfl

end

/-- The types that a walk meets are the tags of the objects that the reading descends to: each
object counts once, in front of what is found below it. A node of a type with a form of its own has
that form. -/
theorem tags_of_walk {value : Json} {n : Node} (hordered : value.Ordered)
    (h : ofJson value = .ok n) :
    (preorder value).map tagOf? = n.walk.map (fun m => some m.tag) ∧
      ∀ type children span, .other type children span ∈ n.walk → type ∉ forms :=
  have hread : ReadAs value n := reading_of_ofJson_ok h
  ⟨tags_walk hordered hread, fun _ _ _ => not_mem_forms_of_mem_walk hread⟩

/-- So it is for every tree that is read from a text, in whatever order its fields are written. -/
theorem tags_of_walk_of_ofText? {text : String} {value : Json} {n : Node}
    (htext : Json.ofText? text = some value) (h : ofJson value = .ok n) :
    (preorder value).map tagOf? = n.walk.map (fun m => some m.tag) ∧
      ∀ type children span, .other type children span ∈ n.walk → type ∉ forms :=
  have hread : ReadAs value n := reading_of_ofJson_ok h
  ⟨tags_walk (Json.ordered_of_ofChars? htext) hread, fun _ _ _ => not_mem_forms_of_mem_walk hread⟩

/-- A ruleset with its parts in the order of their names: a function in an array of arrays, a meta
block that is none, and no rules. -/
def greeting : Json :=
  .object [
    ("global", .array [.array [.object [
      ("left", .object [("type", .string "Identifier"), ("value", .string "greet")]),
      ("loc", .object [("end", .int 20), ("start", .int 0)]),
      ("right", .object [
        ("body", .array [.int 5,
          .array [.object [("type", .string "Identifier"), ("value", .string "name")]]]),
        ("params", .object [("type", .string "Parameters")]),
        ("type", .string "Function")]),
      ("type", .string "Declaration")]]]),
    ("meta", .array []),
    ("rid", .object [("loc", .object [("end", .int 1), ("start", .int 0)]),
      ("type", .string "RulesetID"), ("value", .string "a")]),
    ("rules", .null),
    ("type", .string "Ruleset")]

theorem ordered_greeting : greeting.Ordered := by
  simp only [greeting, Json.ordered_object_iff, Json.ordered_array_iff, List.forall_mem_cons,
    Json.ordered_string, Json.ordered_int, Json.ordered_null, List.not_mem_nil, false_implies,
    implies_true, and_true, true_and]
  decide +kernel

theorem tags_of_walk_greeting : greeting.Ordered ∧ ∃ n, ofJson greeting = .ok n ∧
    n.walk.map tag = ["Ruleset", "RulesetID", "Declaration", "Identifier", "Function",
      "Identifier", "Parameters"] ∧
    (preorder greeting).map tagOf? = n.walk.map (fun m => some m.tag) := by
  refine ⟨ordered_greeting, _, rfl, ?_, (tags_of_walk ordered_greeting rfl).1⟩
  simp [walk_eq, children, tag]

end Krl.Node
