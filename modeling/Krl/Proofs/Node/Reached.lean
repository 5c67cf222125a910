import Krl.Node.Reading
import Mathlib.Logic.Relation

/-!
# What the reading of a tree reaches

A value is a node if it is a typed object: an object whose `type` is a string. Which of the typed
objects in it are its child nodes depends on its type (`childNodes`): some fields hold a node
directly, some hold nodes in arrays, some are not looked into. What is reached from a value are its
child nodes, their child nodes, and so on. Each type has parts without which an object is no node of
it (`mandatory`).

* `isTyped_of_mem_childNodes`: a child node is a typed object.
* `sizeOf_lt_of_mem_childNodes`: a child node is smaller than the object it is found in.
-/

set_option autoImplicit false

namespace Krl.Node

/-! ## Typed objects -/

/-- Is the value an object with a tag? -/
def IsTyped (value : Json) : Prop := ((value.fields?).bind tag?).isSome

instance (value : Json) : Decidable (IsTyped value) := inferInstanceAs (Decidable (_ = true))

mutual

/-- The typed objects that a value is or holds in arrays, in their order. -/
def typedIn : Json → List Json
  | .array items => typedInAll items
  | v => if IsTyped v then [v] else []

/-- The typed objects that several values are or hold in arrays. -/
def typedInAll : List Json → List Json
  | [] => []
  | v :: vs => typedIn v ++ typedInAll vs

end

/-- The typed object that a field holds. -/
def typedAt (fields : Fields) (name : String) : List Json :=
  (fields.lookup name).toList.filter fun v => IsTyped v

/-- The typed objects that a field holds, in arrays or directly. -/
def typedUnder (fields : Fields) (name : String) : List Json :=
  typedInAll (fields.lookup name).toList

/-- The typed objects in all fields but the tag, the place, and those named. -/
def typedBeside (fields : Fields) (named : List String) : List Json :=
  typedInAll ((fields.filter fun f => !("type" :: "loc" :: named).contains f.1).map (·.2))

/-! ## Child nodes -/

/-- The tags of the types that have a form of their own. -/
def forms : List String :=
  ["Ruleset", "RulesetID", "RulesetMeta", "RulesetMetaProperty", "Declaration", "DefAction",
    "Function", "Rule", "Identifier"]

/-- The child nodes of an object with this tag, in the order in which a node has them. -/
def childNodes (type : String) (fields : Fields) : List Json :=
  match type with
  | "Ruleset" =>
    typedAt fields "rid" ++ (typedAt fields "meta" ++
      (typedUnder fields "global" ++ typedUnder fields "rules"))
  | "RulesetMeta" => typedUnder fields "properties"
  | "RulesetMetaProperty" => typedAt fields "value"
  | "Declaration" => typedAt fields "left" ++ typedAt fields "right"
  | "DefAction" => typedAt fields "id" ++ typedBeside fields ["id"]
  | "Rule" => typedAt fields "name" ++ typedBeside fields ["name"]
  | "RulesetID" => []
  | "Identifier" => []
  | _ => typedBeside fields []

/-- The child nodes of a value. -/
def nodesIn (value : Json) : List Json :=
  match value with
  | .object fields =>
    match tag? fields with
    | some type => childNodes type fields
    | none => []
  | _ => []

/-- A value is reached from another one through child nodes. -/
def Reached (root value : Json) : Prop :=
  Relation.ReflTransGen (fun v w => w ∈ nodesIn v) root value

/-! ## Mandatory parts -/

/-- What an object can be asked to have. -/
inductive Part where
  /-- A `loc` that gives both offsets. -/
  | loc
  | string (field : String)
  | node (field : String)
  | key
  /-- A part of the object under `key`. -/
  | ofKey (part : Part)
deriving DecidableEq, Repr

namespace Part

/-- Has the object the part? -/
def Present (fields : Fields) : Part → Prop
  | loc => ∃ inner, fields.lookup "loc" = some (.object inner) ∧
      ∃ start stop : Nat, inner.lookup "start" = some (.int start) ∧
        inner.lookup "end" = some (.int stop)
  | string field => ∃ s, fields.lookup field = some (.string s)
  | node field => ∃ v, fields.lookup field = some v ∧ IsTyped v
  | key => ∃ inner, fields.lookup "key" = some (.object inner)
  | ofKey part => ∃ inner, fields.lookup "key" = some (.object inner) ∧ part.Present inner

/-- What is said of an object without the part. -/
def failure (type : String) : Part → Malformed
  | loc => .noSpan type
  | string field => .noString type field
  | node field => .noNode type field
  | key => .noKey type
  | ofKey part => part.failure type

end Part

/-- The parts without which an object with this tag is no node. -/
def mandatory (type : String) : List Part :=
  match type with
  | "RulesetID" => [.string "value", .loc]
  | "RulesetMeta" => [.loc]
  | "RulesetMetaProperty" => [.key, .ofKey (.string "value"), .ofKey .loc]
  | "Declaration" => [.node "left", .node "right", .loc]
  | "DefAction" => [.node "id", .loc]
  | "Rule" => [.node "name", .loc]
  | "Identifier" => [.string "value"]
  | _ => []

/-- Has the object all parts that its type asks for? -/
def Complete (type : String) (fields : Fields) : Prop := ∀ p ∈ mandatory type, p.Present fields

/-! ## Facts -/

theorem typedInAll_eq_flatMap (vs : List Json) : typedInAll vs = vs.flatMap typedIn := by
  induction vs with
  | nil => rfl
  | cons v vs ih => rw [typedInAll, ih, List.flatMap_cons]

theorem mem_typedInAll {vs : List Json} {w : Json} :
    w ∈ typedInAll vs ↔ ∃ v ∈ vs, w ∈ typedIn v := by
  rw [typedInAll_eq_flatMap, List.mem_flatMap]

theorem typedIn_of_isTyped {v : Json} (h : IsTyped v) : typedIn v = [v] := by
  cases v with
  | array => cases h
  | object fields => simp [typedIn, h]
  | _ => cases h

theorem typedIn_of_not_isTyped {v : Json} (h : ¬ IsTyped v) (harray : ∀ items, v ≠ .array items) :
    typedIn v = [] := by
  cases v with
  | array items => exact absurd rfl (harray items)
  | _ => simp [typedIn, h]

/-- What is found in a value is the value itself, or is found in an item of it. -/
theorem mem_typedIn_cases {v w : Json} (h : w ∈ typedIn v) :
    (w = v ∧ IsTyped v) ∨ ∃ items, v = .array items ∧ ∃ u ∈ items, w ∈ typedIn u := by
  by_cases hv : IsTyped v
  · rw [typedIn_of_isTyped hv, List.mem_singleton] at h
    exact .inl ⟨h, hv⟩
  · cases v with
    | array items =>
      rw [typedIn, mem_typedInAll] at h
      exact .inr ⟨items, rfl, h⟩
    | _ =>
      rw [typedIn_of_not_isTyped hv (by simp)] at h
      cases h

/-- Induction on the way from a value to what is found in it. -/
theorem typedIn_induction {w : Json} {P : Json → Prop} (self : IsTyped w → P w)
    (item : ∀ items u, u ∈ items → P u → P (.array items)) (v : Json) (h : w ∈ typedIn v) :
    P v := by
  induction hn : sizeOf v using Nat.strongRecOn generalizing v with
  | _ n ih =>
    subst hn
    rcases mem_typedIn_cases h with ⟨rfl, hv⟩ | ⟨items, rfl, u, hu, hw⟩
    · exact self hv
    · have hlt := List.sizeOf_lt_of_mem hu
      refine item items u hu (ih _ ?_ u hw rfl)
      simp only [Json.array.sizeOf_spec]
      omega

theorem sizeOf_le_of_mem_typedIn {v w : Json} (h : w ∈ typedIn v) : sizeOf w ≤ sizeOf v := by
  refine typedIn_induction (P := fun v => sizeOf w ≤ sizeOf v) (fun _ => Nat.le_refl _) ?_ v h
  intro items u hu hle
  have hlt := List.sizeOf_lt_of_mem hu
  simp only [Json.array.sizeOf_spec]
  omega

theorem isTyped_of_mem_typedIn {v w : Json} (h : w ∈ typedIn v) : IsTyped w :=
  typedIn_induction (P := fun _ => IsTyped w) id (fun _ _ _ => id) v h

section
variable {fields : Fields} {name type : String} {w : Json}

theorem mem_of_lookup (h : fields.lookup name = some w) : (name, w) ∈ fields := by
  obtain ⟨front, behind, rfl, -⟩ := List.lookup_eq_some_iff.1 h
  simp

theorem mem_typedAt : w ∈ typedAt fields name ↔ fields.lookup name = some w ∧ IsTyped w := by
  simp only [typedAt, List.mem_filter, Option.mem_toList, decide_eq_true_eq]

theorem exists_field_of_typedAt (h : w ∈ typedAt fields name) : ∃ f ∈ fields, w ∈ typedIn f.2 := by
  obtain ⟨hlookup, hw⟩ := mem_typedAt.1 h
  refine ⟨(name, w), mem_of_lookup hlookup, ?_⟩
  rw [typedIn_of_isTyped hw]
  exact List.mem_singleton_self w

theorem exists_field_of_typedUnder (h : w ∈ typedUnder fields name) :
    ∃ f ∈ fields, w ∈ typedIn f.2 := by
  obtain ⟨v, hv, hw⟩ := mem_typedInAll.1 h
  exact ⟨(name, v), mem_of_lookup (Option.mem_toList.1 hv), hw⟩

theorem exists_field_of_typedBeside {named : List String} (h : w ∈ typedBeside fields named) :
    ∃ f ∈ fields, w ∈ typedIn f.2 := by
  obtain ⟨v, hv, hw⟩ := mem_typedInAll.1 h
  obtain ⟨f, hf, rfl⟩ := List.mem_map.1 hv
  exact ⟨f, (List.mem_filter.1 hf).1, hw⟩

/-- A child node is found in one of the fields. -/
theorem exists_field_of_childNodes (h : w ∈ childNodes type fields) :
    ∃ f ∈ fields, w ∈ typedIn f.2 := by
  unfold childNodes at h
  split at h
  · simp only [List.mem_append] at h
    rcases h with h | h | h | h
    · exact exists_field_of_typedAt h
    · exact exists_field_of_typedAt h
    · exact exists_field_of_typedUnder h
    · exact exists_field_of_typedUnder h
  · exact exists_field_of_typedUnder h
  · exact exists_field_of_typedAt h
  · rcases List.mem_append.1 h with h | h
    · exact exists_field_of_typedAt h
    · exact exists_field_of_typedAt h
  · rcases List.mem_append.1 h with h | h
    · exact exists_field_of_typedAt h
    · exact exists_field_of_typedBeside h
  · rcases List.mem_append.1 h with h | h
    · exact exists_field_of_typedAt h
    · exact exists_field_of_typedBeside h
  · cases h
  · cases h
  · exact exists_field_of_typedBeside h

/-- What is found in a field is smaller than the object. -/
theorem sizeOf_lt_of_mem_field {f : String × Json} (hf : f ∈ fields) (hw : w ∈ typedIn f.2) :
    sizeOf w < sizeOf (Json.object fields) := by
  have hle := sizeOf_le_of_mem_typedIn hw
  have hlt := List.sizeOf_lt_of_mem hf
  rcases f with ⟨name, v⟩
  simp only [Prod.mk.sizeOf_spec] at hlt hle
  simp only [Json.object.sizeOf_spec]
  omega

theorem sizeOf_lt_of_mem_childNodes (h : w ∈ childNodes type fields) :
    sizeOf w < sizeOf (Json.object fields) := by
  obtain ⟨f, hf, hw⟩ := exists_field_of_childNodes h
  exact sizeOf_lt_of_mem_field hf hw

/-- An object of a type without a form of its own is looked into in all fields. -/
theorem childNodes_of_not_mem_forms (h : type ∉ forms) :
    childNodes type fields = typedBeside fields [] := by
  unfold childNodes
  split <;> first | rfl | exact absurd (by decide) h

/-- Nothing is asked of an object of a type without a form of its own. -/
theorem mandatory_of_not_mem_forms (h : type ∉ forms) : mandatory type = [] := by
  unfold mandatory
  split <;> first | rfl | exact absurd (by decide) h

theorem isTyped_of_mem_childNodes (h : w ∈ childNodes type fields) : IsTyped w := by
  obtain ⟨f, -, hw⟩ := exists_field_of_childNodes h
  exact isTyped_of_mem_typedIn hw

end

end Krl.Node
