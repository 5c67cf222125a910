import Krl.Proofs.Json.Records
import Mathlib.Data.List.Induction

/-!
# Reading back what is printed

A value can be read from a text if its objects have their fields in order, its integers fit 64 bits,
its other numbers are finite, and it does not nest too deep (`Readable`). What is printed for such a
value is read as that value, in every style.

* `fieldsOf_eq_self`: fields in order are the fields of their object.
* `readable_ofFields`: an object that is made field by field can be read.
* `ofChars?_write`: what is printed is read back.
-/

set_option autoImplicit false

namespace Krl.Json

/-! ## The fields of an object -/

section
variable {fields : List (String × Json)}

theorem fieldsOf_concat (fields : List (String × Json)) (f : String × Json) :
    fieldsOf (fields ++ [f]) = insertField f.1 f.2 (fieldsOf fields) := by
  simp [fieldsOf]

theorem insertField_of_lt {name : String} (value : Json) (h : ∀ f ∈ fields, f.1 < name) :
    insertField name value fields = fields ++ [(name, value)] := by
  induction fields with
  | nil => rfl
  | cons f fields ih =>
    obtain ⟨hf, hfields⟩ := List.forall_mem_cons.1 h
    rw [insertField, if_neg (lt_asymm hf), if_neg hf.ne', ih hfields]
    rfl

theorem fieldsOf_eq_self (h : (fields.map (·.1)).Pairwise (· < ·)) : fieldsOf fields = fields := by
  induction fields using List.reverseRecOn with
  | nil => rfl
  | append_singleton fields f ih =>
    rw [List.map_append, List.pairwise_append] at h
    obtain ⟨hfields, -, hlast⟩ := h
    rw [fieldsOf_concat, ih hfields]
    refine insertField_of_lt f.2 fun g hg => ?_
    exact hlast g.1 (List.mem_map_of_mem hg) f.1 (List.mem_singleton.2 rfl)

theorem pairwise_fieldsOf (fields : List (String × Json)) :
    ((fieldsOf fields).map (·.1)).Pairwise (· < ·) := by
  induction fields using List.reverseRecOn with
  | nil => exact .nil
  | append_singleton fields f ih =>
    rw [fieldsOf_concat]
    exact pairwise_insertField ih

theorem mem_of_mem_fieldsOf {f : String × Json} (h : f ∈ fieldsOf fields) : f ∈ fields := by
  induction fields using List.reverseRecOn with
  | nil => cases h
  | append_singleton fields g ih =>
    rw [fieldsOf_concat] at h
    rcases mem_insertField h with rfl | h
    · exact List.mem_append_right _ (List.mem_singleton.2 rfl)
    · exact List.mem_append_left _ (ih h)

/-- Of the fields of a name, the last one counts. -/
theorem get?_ofFields (fields : List (String × Json)) (key : String) :
    (ofFields fields).get? key = fields.reverse.lookup key := by
  induction fields using List.reverseRecOn with
  | nil => rfl
  | append_singleton fields f ih =>
    rw [ofFields, fieldsOf_concat, get?_insertField, List.reverse_append, List.reverse_singleton,
      List.singleton_append, lookup_field, ← ih, ofFields]

end

/-! ## Values that can be read -/

/-- There are texts from which the value can be read where arrays and objects may nest so deep. -/
inductive Readable : Nat → Json → Prop
  | null {depth : Nat} : Readable depth .null
  | bool {depth : Nat} (b : Bool) : Readable depth (.bool b)
  | int {depth : Nat} {n : Int} (hlow : -(UInt64.size / 2 : Nat) ≤ n) (hhigh : n < UInt64.size) :
      Readable depth (.int n)
  | real {depth : Nat} {x : Numeral} (htext : x.IsText x.toChars) (hinteger : x.integer? = none)
      (hfinite : x.isFinite = true) : Readable depth (.real x)
  | string {depth : Nat} (s : String) : Readable depth (.string s)
  | array {depth : Nat} {items : List Json} (h : ∀ v ∈ items, Readable depth v) :
      Readable (depth + 1) (.array items)
  | object {depth : Nat} {fields : List (String × Json)}
      (hnames : (fields.map (·.1)).Pairwise (· < ·)) (h : ∀ f ∈ fields, Readable depth f.2) :
      Readable (depth + 1) (.object fields)

section
variable {depth : Nat} {v : Json} {t : Tree}

theorem readable_ofFields {fields : List (String × Json)}
    (h : ∀ f ∈ fields, Readable depth f.2) : Readable (depth + 1) (ofFields fields) :=
  .object (pairwise_fieldsOf fields) fun f hf => h f (mem_of_mem_fieldsOf hf)

theorem readable_ofList {α : Type} {f : α → Json} {as : List α}
    (h : ∀ a ∈ as, Readable depth (f a)) : Readable (depth + 1) (ofList f as) :=
  .array (List.forall_mem_map.2 h)

theorem Readable.proper (h : Readable depth v) : v.Proper := by
  induction h with
  | real htext _ _ =>
    intro y hy
    rcases inside_iff.1 hy with heq | ⟨part, hpart, -⟩
    · cases heq
      exact htext
    · cases hpart
  | array _ ih =>
    intro y hy
    rcases inside_iff.1 hy with heq | ⟨part, hpart, hinside⟩
    · cases heq
    · exact ih part hpart y hinside
  | object _ _ ih =>
    intro y hy
    rcases inside_iff.1 hy with heq | ⟨part, hpart, hinside⟩
    · cases heq
    · obtain ⟨f, hf, rfl⟩ := List.mem_map.1 hpart
      exact ih f hf y hinside
  | _ =>
    intro y hy
    rcases inside_iff.1 hy with heq | ⟨part, hpart, -⟩
    · cases heq
    · cases hpart

/-! ## What a tree stands for -/

theorem integer?_ofInt {n : Int} (hlow : -(UInt64.size / 2 : Nat) ≤ n) (hhigh : n < UInt64.size) :
    (Numeral.ofInt n).integer? = some n := by
  have hwhole : Numeral.number 0 (Numeral.ofInt n).whole = n.natAbs := number_toDigits n.natAbs
  have hread : (Numeral.ofInt n).integer? =
      if n < 0 then
        if 0 < n.natAbs ∧ n.natAbs ≤ UInt64.size / 2 then some (-(n.natAbs : Int)) else none
      else if n.natAbs < UInt64.size then some (n.natAbs : Int) else none := by
    unfold Numeral.integer?
    rw [hwhole]
    simp only [Numeral.ofInt, Numeral.ofNat, List.isEmpty_nil, Option.isNone_none, Bool.and_self,
      if_true, decide_eq_true_eq]
  by_cases hn : n < 0
  · have hbound : 0 < n.natAbs ∧ n.natAbs ≤ UInt64.size / 2 := by omega
    have habs : -(n.natAbs : Int) = n := by omega
    rw [hread, if_pos hn, if_pos hbound, habs]
  · have hbound : n.natAbs < UInt64.size := by omega
    have habs : (n.natAbs : Int) = n := by omega
    rw [hread, if_neg hn, if_pos hbound, habs]

theorem values?_of_stands {ts : List Tree} {vs : List Json} (h : List.Forall₂ Stands ts vs)
    (hvs : ∀ v ∈ vs, ∀ {t : Tree}, Stands t v → t.value? depth = some v) :
    Tree.values? depth ts = some vs := by
  induction h with
  | nil => rfl
  | cons ht _ ih =>
    obtain ⟨hv, hrest⟩ := List.forall_mem_cons.1 hvs
    rw [Tree.values?, hv ht, ih hrest]
    rfl

theorem fieldValues?_of_stands {fs : List (List StringItem × Tree)} {gs : List (String × Json)}
    (h : List.Forall₂ (Named Stands) fs gs)
    (hgs : ∀ g ∈ gs, ∀ {t : Tree}, Stands t g.2 → t.value? depth = some g.2) :
    Tree.fieldValues? depth fs = some gs := by
  induction h with
  | nil => rfl
  | cons hf _ ih =>
    obtain ⟨hname, ht⟩ := hf
    obtain ⟨hg, hrest⟩ := List.forall_mem_cons.1 hgs
    simp [Tree.fieldValues?, Tree.fieldValue?, hname, hg ht, ih hrest]

/-- A tree has the value that it stands for. -/
theorem value?_of_stands (h : Readable depth v) (ht : Stands t v) : t.value? depth = some v := by
  induction h generalizing t with
  | null => cases ht; rfl
  | bool b => cases ht; rfl
  | int hlow hhigh =>
    cases ht
    rw [Tree.value?, Tree.numberValue?, integer?_ofInt hlow hhigh]
  | real _ hinteger hfinite =>
    cases ht
    rw [Tree.value?, Tree.numberValue?, hinteger]
    exact if_pos hfinite
  | string s =>
    cases ht with
    | string htext => rw [Tree.value?, htext, Option.map_some, String.ofList_toList]
  | array _ ih =>
    cases ht with
    | array hitems => rw [Tree.value?, values?_of_stands hitems ih, Option.map_some]
  | object hnames _ ih =>
    cases ht with
    | object hfields =>
      rw [Tree.value?, fieldValues?_of_stands hfields ih, Option.map_some, ofFields,
        fieldsOf_eq_self hnames]

/-- What is printed for a value is read as that value. -/
theorem ofChars?_write {style : Style} (hstyle : style.Blank) (h : Readable depthLimit v) :
    ofChars? (write style 0 v) = some v := by
  obtain ⟨t, ht, hstands⟩ := exists_ofChars? (isText_write hstyle 0 v h.proper)
  rw [ofChars?, ht]
  exact value?_of_stands h hstands

theorem ofText?_pretty (h : Readable depthLimit v) : ofText? v.pretty = some v := by
  rw [ofText?, pretty, String.toList_ofList]
  exact ofChars?_write Style.blank_pretty h

end

end Krl.Json
