import Krl.Json.Tree
import Mathlib.Data.String.Basic
import Mathlib.Logic.Relation

/-!
# Parts of a JSON value

What stands inside of a value, at any depth. The objects of a value that was read from a text have
their fields in ascending order of their names: every object is made field by field with
`insertField`, which keeps that order.

* `ordered_of_ofChars?`: all objects inside of a value that was read are in order.
-/

set_option autoImplicit false

namespace Krl.Json

/-! ## Inside of a value -/

/-- The items of an array, the values of an object's fields. -/
def parts : Json → List Json
  | .array items => items
  | .object fields => fields.map (·.2)
  | _ => []

/-- A value stands inside of another one, at any depth and in any field; a value is inside of
itself. -/
def Inside (value part : Json) : Prop := Relation.ReflTransGen (fun v w => w ∈ v.parts) value part

/-- Have all objects inside of the value their fields in ascending order, each name once? -/
def Ordered (value : Json) : Prop :=
  ∀ fields, value.Inside (.object fields) → (fields.map (·.1)).Pairwise (· < ·)

theorem inside_iff {value w : Json} :
    value.Inside w ↔ w = value ∨ ∃ part ∈ value.parts, part.Inside w := by
  constructor
  · intro h
    rcases h.cases_head with rfl | ⟨part, hpart, hw⟩
    · exact .inl rfl
    · exact .inr ⟨part, hpart, hw⟩
  · rintro (rfl | ⟨part, hpart, hw⟩)
    · exact .refl
    · exact .head hpart hw

mutual

/-- All that stands inside of a value. -/
def within : Json → List Json
  | .array items => .array items :: withinAll items
  | .object fields => .object fields :: withinFields fields
  | v => [v]

def withinAll : List Json → List Json
  | [] => []
  | v :: vs => within v ++ withinAll vs

def withinFields : List (String × Json) → List Json
  | [] => []
  | f :: fs => withinField f ++ withinFields fs

def withinField : String × Json → List Json
  | (_, v) => within v

end

theorem withinAll_eq_flatMap (vs : List Json) : withinAll vs = vs.flatMap within := by
  induction vs with
  | nil => rfl
  | cons v vs ih => rw [withinAll, ih, List.flatMap_cons]

theorem withinFields_eq_flatMap (fs : List (String × Json)) :
    withinFields fs = (fs.map (·.2)).flatMap within := by
  induction fs with
  | nil => rfl
  | cons f fs ih => rw [withinFields, withinField, ih, List.map_cons, List.flatMap_cons]

theorem within_eq (value : Json) : value.within = value :: value.parts.flatMap within := by
  cases value with
  | array items => rw [within, withinAll_eq_flatMap, parts]
  | object fields => rw [within, withinFields_eq_flatMap, parts]
  | _ => rfl

theorem sizeOf_lt_of_mem_parts {value part : Json} (h : part ∈ value.parts) :
    sizeOf part < sizeOf value := by
  cases value with
  | array items =>
    have hlt : sizeOf part < sizeOf items := List.sizeOf_lt_of_mem h
    simp only [Json.array.sizeOf_spec]
    omega
  | object fields =>
    obtain ⟨⟨name, v⟩, hf, rfl⟩ := List.mem_map.1 h
    have hlt := List.sizeOf_lt_of_mem hf
    simp only [Prod.mk.sizeOf_spec] at hlt
    simp only [Json.object.sizeOf_spec]
    omega
  | _ => cases h

theorem mem_within_iff {value w : Json} : w ∈ value.within ↔ value.Inside w := by
  induction hsize : sizeOf value using Nat.strongRecOn generalizing value with
  | _ size ih =>
    subst hsize
    rw [within_eq, inside_iff, List.mem_cons, List.mem_flatMap]
    refine or_congr_right (exists_congr fun part => and_congr_right fun hpart => ?_)
    exact ih _ (sizeOf_lt_of_mem_parts hpart) rfl

theorem Ordered.part {value part : Json} (h : value.Ordered) (hpart : part ∈ value.parts) :
    part.Ordered :=
  fun fields hinside => h fields (.head hpart hinside)

/-- A value without parts is in order, unless it is an object. -/
theorem ordered_of_parts {value : Json} (hparts : value.parts = [])
    (hobject : ∀ fields, value ≠ .object fields) : value.Ordered := by
  intro fields hinside
  rcases inside_iff.1 hinside with hself | ⟨part, hpart, -⟩
  · exact absurd hself.symm (hobject fields)
  · rw [hparts] at hpart
    cases hpart

@[simp] theorem ordered_null : Json.null.Ordered := ordered_of_parts rfl (by simp)

@[simp] theorem ordered_bool (b : Bool) : (Json.bool b).Ordered := ordered_of_parts rfl (by simp)

@[simp] theorem ordered_int (n : Int) : (Json.int n).Ordered := ordered_of_parts rfl (by simp)

@[simp] theorem ordered_real (x : Numeral) : (Json.real x).Ordered :=
  ordered_of_parts rfl (by simp)

@[simp] theorem ordered_string (s : String) : (Json.string s).Ordered :=
  ordered_of_parts rfl (by simp)

@[simp] theorem ordered_array_iff {items : List Json} :
    (Json.array items).Ordered ↔ ∀ v ∈ items, v.Ordered := by
  refine ⟨fun h v hv => h.part hv, fun h fields hinside => ?_⟩
  rcases inside_iff.1 hinside with hself | ⟨part, hpart, hw⟩
  · cases hself
  · exact h part hpart fields hw

@[simp] theorem ordered_object_iff {fields : List (String × Json)} : (Json.object fields).Ordered ↔
    (fields.map (·.1)).Pairwise (· < ·) ∧ ∀ f ∈ fields, f.2.Ordered := by
  refine ⟨fun h => ⟨h fields .refl, fun f hf => h.part (List.mem_map_of_mem hf)⟩, ?_⟩
  rintro ⟨hnames, hvalues⟩ inner hinside
  rcases inside_iff.1 hinside with hself | ⟨part, hpart, hw⟩
  · cases hself
    exact hnames
  · obtain ⟨f, hf, rfl⟩ := List.mem_map.1 hpart
    exact hvalues f hf inner hw

/-! ## Fields in order -/

section
variable {name : String} {value : Json} {fields : List (String × Json)} {f : String × Json}

theorem mem_insertField (h : f ∈ insertField name value fields) :
    f = (name, value) ∨ f ∈ fields := by
  induction fields with
  | nil => exact .inl (List.mem_singleton.1 h)
  | cons g fields ih =>
    rcases g with ⟨k, v⟩
    simp only [insertField] at h
    split at h
    · exact List.mem_cons.1 h
    split at h
    · rcases List.mem_cons.1 h with rfl | h
      · exact .inl rfl
      · exact .inr (List.mem_cons_of_mem _ h)
    · rcases List.mem_cons.1 h with rfl | h
      · exact .inr List.mem_cons_self
      · exact (ih h).imp_right (List.mem_cons_of_mem _)

theorem pairwise_insertField (h : (fields.map (·.1)).Pairwise (· < ·)) :
    ((insertField name value fields).map (·.1)).Pairwise (· < ·) := by
  induction fields with
  | nil => exact List.pairwise_singleton _ _
  | cons g fields ih =>
    rcases g with ⟨k, v⟩
    rw [List.map_cons, List.pairwise_cons] at h
    obtain ⟨hk, hfields⟩ := h
    simp only [insertField]
    split
    · next hlt =>
      refine List.pairwise_cons.2 ⟨?_, List.pairwise_cons.2 ⟨hk, hfields⟩⟩
      intro m hm
      rcases List.mem_cons.1 hm with rfl | hm
      · exact hlt
      · exact hlt.trans (hk m hm)
    split
    · next heq =>
      subst heq
      exact List.pairwise_cons.2 ⟨hk, hfields⟩
    · next hlt hne =>
      refine List.pairwise_cons.2 ⟨?_, ih hfields⟩
      intro m hm
      obtain ⟨f, hf, rfl⟩ := List.mem_map.1 hm
      rcases mem_insertField hf with rfl | hf
      · exact lt_of_le_of_ne (not_lt.1 hlt) (Ne.symm hne)
      · exact hk f.1 (List.mem_map_of_mem hf)

end

theorem ordered_ofFields {fields : List (String × Json)} (h : ∀ f ∈ fields, f.2.Ordered) :
    (ofFields fields).Ordered := by
  have key : ∀ (fs acc : List (String × Json)), (acc.map (·.1)).Pairwise (· < ·) →
      (∀ f ∈ acc, f.2.Ordered) → (∀ f ∈ fs, f.2.Ordered) →
      (Json.object (fs.foldl (fun acc f => insertField f.1 f.2 acc) acc)).Ordered := by
    intro fs
    induction fs with
    | nil => exact fun acc hnames hacc _ => ordered_object_iff.2 ⟨hnames, hacc⟩
    | cons f fs ih =>
      intro acc hnames hacc hfs
      obtain ⟨hf, hfs⟩ := List.forall_mem_cons.1 hfs
      refine ih _ (pairwise_insertField hnames) (fun g hg => ?_) hfs
      rcases mem_insertField hg with rfl | hg
      · exact hf
      · exact hacc g hg
  exact key fields [] List.Pairwise.nil (by simp) h

/-! ## Values that are read -/

namespace Tree

mutual

theorem ordered_value? : ∀ (depth : Nat) (t : Tree) {v : Json}, t.value? depth = some v →
    v.Ordered
  | _, .null, _, h => by
    cases h
    exact ordered_null
  | _, .bool _, _, h => by
    cases h
    exact ordered_bool _
  | depth, .number x, v, h => by
    rw [value?, numberValue?] at h
    split at h
    · cases h
      exact ordered_int _
    · split at h
      · cases h
        exact ordered_real x
      · cases h
  | depth, .string s, v, h => by
    rw [value?, Option.map_eq_some_iff] at h
    obtain ⟨cs, -, rfl⟩ := h
    exact ordered_string _
  | 0, .array _, _, h => by cases h
  | depth + 1, .array items, v, h => by
    rw [value?, Option.map_eq_some_iff] at h
    obtain ⟨vs, hvs, rfl⟩ := h
    exact ordered_array_iff.2 (ordered_values? depth items hvs)
  | 0, .object _, _, h => by cases h
  | depth + 1, .object fields, v, h => by
    rw [value?, Option.map_eq_some_iff] at h
    obtain ⟨fs, hfs, rfl⟩ := h
    exact ordered_ofFields (ordered_fieldValues? depth fields hfs)

theorem ordered_values? : ∀ (depth : Nat) (ts : List Tree) {vs : List Json},
    values? depth ts = some vs → ∀ v ∈ vs, v.Ordered
  | _, [], _, h => by
    cases h
    simp
  | depth, t :: ts, vs, h => by
    simp only [values?, Option.bind_eq_bind, Option.bind_eq_some_iff, Option.some.injEq] at h
    obtain ⟨v, hv, ws, hws, rfl⟩ := h
    exact List.forall_mem_cons.2 ⟨ordered_value? depth t hv, ordered_values? depth ts hws⟩

theorem ordered_fieldValues? : ∀ (depth : Nat) (fs : List (List StringItem × Tree))
    {gs : List (String × Json)}, fieldValues? depth fs = some gs → ∀ g ∈ gs, g.2.Ordered
  | _, [], _, h => by
    cases h
    simp
  | depth, f :: fs, gs, h => by
    simp only [fieldValues?, Option.bind_eq_bind, Option.bind_eq_some_iff, Option.some.injEq] at h
    obtain ⟨g, hg, hs, hhs, rfl⟩ := h
    exact List.forall_mem_cons.2 ⟨ordered_fieldValue? depth f hg, ordered_fieldValues? depth fs hhs⟩

theorem ordered_fieldValue? : ∀ (depth : Nat) (f : List StringItem × Tree) {g : String × Json},
    fieldValue? depth f = some g → g.2.Ordered
  | depth, (name, t), g, h => by
    simp only [fieldValue?, Option.bind_eq_bind, Option.bind_eq_some_iff, Option.some.injEq] at h
    obtain ⟨key, -, v, hv, rfl⟩ := h
    exact ordered_value? depth t hv

end

end Tree

/-- In a value that was read from a text, all objects have their fields in order. -/
theorem ordered_of_ofChars? {cs : List Char} {value : Json} (h : ofChars? cs = some value) :
    value.Ordered := by
  obtain ⟨t, -, ht⟩ := Option.bind_eq_some_iff.1 h
  exact Tree.ordered_value? _ t ht

end Krl.Json
