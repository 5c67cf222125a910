import Krl.Proofs.Node.Descent

/-!
# Identifiers that a walk reaches

A walk visits an identifier node for every identifier that is reached (`identifier_mem_walk_iff`).
Something that stands inside of a tree, at any depth, is reached unless there is an object on the
way to it that leaves it out: that has it in one of its fields, directly or in arrays, without
taking what it has there for a child node (`reached_or_leftOut`).

* `identifier_visited`: identifiers are visited wherever they are, in a tree in which what is left
  out holds none.
* `identifier_lost`: identifiers that a property of the meta block lists are left out.
-/

set_option autoImplicit false

namespace Krl.Node

/-- An object with the tag of identifiers and this name. -/
def IsIdentifier (name : String) (value : Json) : Prop :=
  ∃ fields, value = .object fields ∧ tag? fields = some "Identifier" ∧
    fields.lookup "value" = some (.string name)

theorem isIdentifier_iff {name : String} {value : Json} : IsIdentifier name value ↔
    tagOf? value = some "Identifier" ∧
      (value.get? "value").bind Json.string? = some name := by
  cases value with
  | object fields =>
    simp [IsIdentifier, tagOf?, Json.get?, Json.fields?, Option.bind_eq_some_iff,
      string?_eq_some_iff]
  | _ => simp [IsIdentifier, tagOf?, Json.fields?]

instance (name : String) (value : Json) : Decidable (IsIdentifier name value) :=
  decidable_of_iff _ isIdentifier_iff.symm

/-! ## What is left out -/

mutual

/-- What a field with this value has in it, directly or in arrays of any nesting. -/
def entries : Json → List Json
  | .array items => entriesAll items
  | v => [v]

def entriesAll : List Json → List Json
  | [] => []
  | v :: vs => entries v ++ entriesAll vs

end

/-- An object that is reached from the value has this in a field, and not as a child node. -/
def LeftOut (value part : Json) : Prop :=
  ∃ fields, Reached value (.object fields) ∧ (∃ f ∈ fields, part ∈ entries f.2) ∧
    part ∉ nodesIn (.object fields)

theorem entriesAll_eq_flatMap (vs : List Json) : entriesAll vs = vs.flatMap entries := by
  induction vs with
  | nil => rfl
  | cons v vs ih => rw [entriesAll, ih, List.flatMap_cons]

theorem isTyped_array (items : List Json) : ¬ IsTyped (.array items) := by
  intro h
  cases h

/-- A typed object inside of a value stands inside of an entry. -/
theorem exists_entry_of_inside {v w : Json} (h : v.Inside w) (hw : IsTyped w) :
    ∃ part ∈ entries v, part.Inside w := by
  induction h using Relation.ReflTransGen.head_induction_on with
  | refl =>
    cases w with
    | array items => exact absurd hw (isTyped_array items)
    | _ => exact ⟨_, List.mem_singleton_self _, .refl⟩
  | @head v u hu huw ih =>
    cases v with
    | array items =>
      obtain ⟨part, hpart, hinside⟩ := ih
      refine ⟨part, ?_, hinside⟩
      rw [entries, entriesAll_eq_flatMap]
      exact List.mem_flatMap.2 ⟨u, hu, hpart⟩
    | _ => exact ⟨_, List.mem_singleton_self _, .head hu huw⟩

/-- A typed object inside of a value is reached, or something that is left out has it inside. -/
theorem reached_or_leftOut {value w : Json} (h : value.Inside w) (hvalue : IsTyped value)
    (hw : IsTyped w) : Reached value w ∨ ∃ part, LeftOut value part ∧ part.Inside w := by
  induction hsize : sizeOf value using Nat.strongRecOn generalizing value with
  | _ size ih =>
    subst hsize
    obtain ⟨fields, type, rfl, htag⟩ := isTyped_iff.1 hvalue
    rcases Json.inside_iff.1 h with rfl | ⟨v, hv, hinside⟩
    · exact .inl .refl
    obtain ⟨f, hf, rfl⟩ := List.mem_map.1 hv
    obtain ⟨part, hpart, hinside⟩ := exists_entry_of_inside hinside hw
    by_cases hchild : part ∈ nodesIn (.object fields)
    · -- a child node is smaller, and what is reached from it is reached from here
      have hmem := (mem_nodesIn_of_tag htag part).1 hchild
      rcases ih _ (sizeOf_lt_of_mem_childNodes hmem) hinside (isTyped_of_mem_childNodes hmem) rfl
        with hreached | ⟨u, ⟨inner, hinner, hu⟩, hinside⟩
      · exact .inl (.head hchild hreached)
      · exact .inr ⟨u, ⟨inner, .head hchild hinner, hu⟩, hinside⟩
    · exact .inr ⟨part, ⟨fields, .refl, ⟨f, hf, hpart⟩, hchild⟩, hinside⟩

/-! ## Identifiers -/

theorem IsIdentifier.isTyped {name : String} {value : Json} (h : IsIdentifier name value) :
    IsTyped value := by
  obtain ⟨fields, rfl, htag, -⟩ := h
  exact isTyped_iff.2 ⟨fields, _, rfl, htag⟩

theorem lookup_of_requiredString {type field s : String} {fields : Fields}
    (h : requiredString type field fields = .ok s) : fields.lookup field = some (.string s) := by
  unfold requiredString at h
  split at h
  · next t ht =>
    cases h
    obtain ⟨v, hv, hstring⟩ := Option.bind_eq_some_iff.1 ht
    rw [hv, string?_eq_some_iff.1 hstring]
  · cases h

/-- What is read from an object with the tag of identifiers. -/
theorem ReadAs.identifier {fields : Fields} {m : Node} (h : ReadAs (.object fields) m)
    (htag : tag? fields = some "Identifier") :
    ∃ name, fields.lookup "value" = some (.string name) ∧
      m = .identifier name (fieldSpan? fields) := by
  rw [ReadAs, reading_of_tag htag, Reading.node.injEq] at h
  obtain ⟨name, hname, h⟩ := ok_of_bind h
  cases h
  exact ⟨name, lookup_of_requiredString hname, rfl⟩

/-- Identifier nodes are read from identifiers, and from nothing else. -/
theorem ReadAs.identifier_iff {name : String} {v : Json} {m : Node} (h : ReadAs v m) :
    (∃ span, m = .identifier name span) ↔ IsIdentifier name v := by
  constructor
  · rintro ⟨span, rfl⟩
    obtain ⟨fields, type, rfl, htag, hassembled⟩ := h.assembled
    have htype : type = "Identifier" := hassembled.tag.symm
    rw [htype] at htag
    obtain ⟨name', hname, heq⟩ := h.identifier htag
    cases heq
    exact ⟨fields, rfl, htag, hname⟩
  · rintro ⟨fields, rfl, htag, hname⟩
    obtain ⟨name', hname', rfl⟩ := h.identifier htag
    rw [hname, Option.some.injEq, Json.string.injEq] at hname'
    exact ⟨_, by rw [hname']⟩

section
variable {value : Json} {n : Node} {name : String}

/-- A walk visits the nodes of the identifiers that are reached, and no other identifier node. -/
theorem identifier_mem_walk_iff (h : ofJson value = .ok n) :
    (∃ span, .identifier name span ∈ n.walk) ↔ ∃ v, Reached value v ∧ IsIdentifier name v := by
  have hread : ReadAs value n := reading_of_ofJson_ok h
  constructor
  · rintro ⟨span, hm⟩
    obtain ⟨v, hreached, hv⟩ := (mem_walk_iff hread).1 hm
    exact ⟨v, hreached, hv.identifier_iff.1 ⟨span, rfl⟩⟩
  · rintro ⟨v, hreached, hname⟩
    obtain ⟨m, hm⟩ := IsNode.reached ⟨n, hread⟩ hreached
    obtain ⟨span, rfl⟩ := ReadAs.identifier_iff hm |>.2 hname
    exact ⟨span, (mem_walk_iff hread).2 ⟨v, hreached, hm⟩⟩

/-- In a tree in which nothing that is left out has an identifier of a name inside of it, a walk
visits an identifier node for every identifier of that name, wherever in the tree it is. -/
theorem identifier_visited (h : ofJson value = .ok n)
    (hkept : ∀ part, LeftOut value part → ∀ v, part.Inside v → ¬ IsIdentifier name v) {v : Json}
    (hinside : value.Inside v) (hv : IsIdentifier name v) :
    ∃ span, .identifier name span ∈ n.walk := by
  have hvalue : IsTyped value := isTyped_of_reading (reading_of_ofJson_ok h)
  rcases reached_or_leftOut hinside hvalue hv.isTyped with hreached | ⟨part, hpart, hbelow⟩
  · exact (identifier_mem_walk_iff h).2 ⟨v, hreached, hv⟩
  · exact absurd hv (hkept part hpart v hbelow)

/-- An identifier with this name. -/
def identifierNamed (name : String) : Json :=
  .object [("type", .string "Identifier"), ("value", .string name)]

/-- A map with an identifier in an array of arrays, and with another one in an object that has no
tag and is left out. -/
def sizes : Json :=
  .object [("else", .object [("value", identifierNamed "other")]), ("type", .string "Map"),
    ("value", .array [.int 3, .array [identifierNamed "size"]])]

theorem reached_sizes {w : Json} (h : Reached sizes w) :
    w = sizes ∨ w = identifierNamed "size" := by
  have hnodes : nodesIn sizes = [identifierNamed "size"] := rfl
  have hnone : nodesIn (identifierNamed "size") = [] := rfl
  induction h with
  | refl => exact .inl rfl
  | tail _ hw ih =>
    rcases ih with rfl | rfl
    · rw [hnodes] at hw
      exact .inr (List.mem_singleton.1 hw)
    · rw [hnone] at hw
      cases hw

theorem identifier_visited_sizes :
    (∀ part, LeftOut sizes part → ∀ v, part.Inside v → ¬ IsIdentifier "size" v) ∧
      sizes.Inside (identifierNamed "size") ∧ IsIdentifier "size" (identifierNamed "size") ∧
      ∃ n, ofJson sizes = .ok n ∧ ∃ span, .identifier "size" span ∈ n.walk := by
  have hkept : ∀ part, LeftOut sizes part → ∀ v, part.Inside v → ¬ IsIdentifier "size" v := by
    rintro part ⟨fields, hfields, ⟨f, hf, hpart⟩, hleft⟩ v hv
    have hnone : ∀ w ∈ part.within, ¬ IsIdentifier "size" w := by
      rcases reached_sizes hfields with heq | heq
      · cases heq
        simp only [List.mem_cons, List.not_mem_nil, or_false] at hf
        rcases hf with rfl | rfl | rfl
        · rw [List.mem_singleton.1 hpart]
          decide
        · rw [List.mem_singleton.1 hpart]
          decide
        · rcases List.mem_cons.1 hpart with rfl | hpart
          · decide
          · rw [List.mem_singleton.1 hpart] at hleft
            exact absurd (List.mem_singleton_self _) hleft
      · cases heq
        simp only [List.mem_cons, List.not_mem_nil, or_false] at hf
        rcases hf with rfl | rfl
        · rw [List.mem_singleton.1 hpart]
          decide
        · rw [List.mem_singleton.1 hpart]
          decide
    exact hnone v (Json.mem_within_iff.2 hv)
  have hinside : sizes.Inside (identifierNamed "size") :=
    inside_of_mem_nodesIn (List.mem_singleton_self _)
  have hidentifier : IsIdentifier "size" (identifierNamed "size") := by decide
  exact ⟨hkept, hinside, hidentifier, _, rfl, identifier_visited rfl hkept hinside hidentifier⟩

/-- A ruleset whose meta block shares an identifier: the value of the property is an array. -/
def sharing : Json :=
  .object [
    ("global", .array []),
    ("loc", .object [("end", .int 60), ("start", .int 0)]),
    ("meta", .object [
      ("loc", .object [("end", .int 45), ("start", .int 22)]),
      ("properties", .array [.object [
        ("key", .object [("loc", .object [("end", .int 35), ("start", .int 29)]),
          ("type", .string "Keyword"), ("value", .string "shares")]),
        ("loc", .object [("end", .int 41), ("start", .int 29)]),
        ("type", .string "RulesetMetaProperty"),
        ("value", .array [identifierNamed "greet"])]]),
      ("type", .string "RulesetMeta")]),
    ("rid", .object [("loc", .object [("end", .int 19), ("start", .int 8)]),
      ("type", .string "RulesetID"), ("value", .string "hello.world")]),
    ("rules", .array []),
    ("type", .string "Ruleset")]

/-- The ruleset is read, and its identifier is not among the nodes that are visited. -/
theorem identifier_lost :
    sharing.Inside (identifierNamed "greet") ∧ IsIdentifier "greet" (identifierNamed "greet") ∧
      ∃ n, ofJson sharing = .ok n ∧ ∀ span, .identifier "greet" span ∉ n.walk := by
  refine ⟨Json.mem_within_iff.1 ?_, by decide, _, rfl, by simp [walk_eq, children]⟩
  simp [sharing, Json.within, Json.withinAll, Json.withinFields, Json.withinField, identifierNamed]

end

end Krl.Node
