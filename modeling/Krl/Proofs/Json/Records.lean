import Krl.Json.Record
import Krl.Proofs.Json.Reading
import Mathlib.Data.List.Forall2

/-!
# Reading records back

What is read from a tree that stands for a value, where the value is a record, a list or a plain
value that somebody has written. Fields with names that are not known may stand anywhere in the
object of a record.

* `exists_record`: a record is read, and each known field with what stands for its value.
-/

set_option autoImplicit false

namespace Krl.Json

/-! ## Written records -/

/-- The values of the fields of this name, in order. -/
def valuesOf (fields : List (String × Json)) (name : String) : List Json :=
  (fields.filter (·.1 == name)).map (·.2)

/-- An object that has exactly these values for each of the known names; it may have any others. -/
inductive IsRecord (known : List (String × List Json)) : Json → Prop
  | mk {fields : List (String × Json)} (h : ∀ k ∈ known, valuesOf fields k.1 = k.2) :
      IsRecord known (.object fields)

/-- The values of a field that need not be there: none, `null`, or one that is meant. -/
inductive IsOptional {α : Type} (R : α → Json → Prop) : Option α → List Json → Prop
  | absent : IsOptional R none []
  | null : IsOptional R none [.null]
  | present {a : α} {v : Json} (h : R a v) : IsOptional R (some a) [v]

/-- The values of a field that may be left out where it has its default. -/
inductive IsDefaulted {α : Type} (R : α → Json → Prop) (default : α) : α → List Json → Prop
  | absent : IsDefaulted R default default []
  | present {a : α} {v : Json} (h : R a v) : IsDefaulted R default a [v]

/-- An array with a value for each member of the list, in order. -/
inductive IsList {α : Type} (R : α → Json → Prop) : List α → Json → Prop
  | mk {as : List α} {vs : List Json} (h : List.Forall₂ R as vs) : IsList R as (.array vs)

theorem length_le_one_of_isOptional {α : Type} {R : α → Json → Prop} {found : Option α}
    {vs : List Json} (h : IsOptional R found vs) : vs.length ≤ 1 := by
  cases h <;> simp

theorem length_le_one_of_isDefaulted {α : Type} {R : α → Json → Prop} {default a : α}
    {vs : List Json} (h : IsDefaulted R default a vs) : vs.length ≤ 1 := by
  cases h <;> simp

/-! ## Values read back -/

/-- What is written as such a value is read from every tree that stands for it. -/
def Recovers {α : Type} (R : α → Json → Prop) (read : Tree → Option α) : Prop :=
  ∀ {a : α} {v : Json} {t : Tree}, R a v → Stands t v → read t = some a

theorem recovers_string : Recovers (fun s v => v = .string s) Tree.string? := by
  rintro s v t rfl ht
  cases ht with
  | string h => rw [Tree.string?, Tree.text?, h, Option.map_some, String.ofList_toList]

theorem number_toDigits (n : Nat) :
    Numeral.number 0 ((Nat.toDigits 10 n).map Numeral.digit) = n := by
  have hdigit : ∀ m ∈ List.range 10, Numeral.digit (Nat.digitChar m) = m := by decide
  induction n using Nat.strong_induction_on with
  | _ n ih =>
    by_cases hn : n < 10
    · rw [Nat.toDigits_of_lt_base hn, List.map_singleton, hdigit n (List.mem_range.2 hn),
        Numeral.number]
      simp
    · have hlast := hdigit (n % 10) (List.mem_range.2 (by omega))
      have hfront := ih (n / 10) (by omega)
      rw [Nat.toDigits_of_base_le (by decide) (by omega), List.map_append, List.map_singleton,
        hlast, Numeral.number, List.foldl_append]
      rw [Numeral.number] at hfront
      rw [hfront, List.foldl_cons, List.foldl_nil]
      omega

theorem natural?_ofInt (n : Nat) : (Numeral.ofInt n).natural? = some n := by
  simp [Numeral.natural?, Numeral.ofInt, Numeral.ofNat, number_toDigits]

theorem recovers_word : Recovers (fun (w : UInt32) v => v = .int w.toNat) Tree.word? := by
  rintro w v t rfl ht
  cases ht with
  | int =>
    rw [Tree.word?, Tree.natBelow?, natural?_ofInt, Option.filter_some,
      if_pos (by simpa using w.toNat_lt), Option.map_some, UInt32.ofNat_toNat]

theorem recovers_list {α : Type} {R : α → Json → Prop} {read : Tree → Option α}
    (h : Recovers R read) : Recovers (IsList R) (Tree.list? read) := by
  rintro as v t ⟨hvs⟩ ht
  cases ht with
  | @array ts vs hts =>
    rw [Tree.list?]
    induction hvs generalizing ts with
    | nil =>
      cases hts
      rfl
    | cons ha _ ih =>
      cases hts with
      | cons ht hts => rw [List.mapM_cons, h ha ht, ih hts]; rfl

/-! ## Records read back -/

section
variable {α : Type} {R : α → Json → Prop} {read : Tree → Option α} {r : Record} {i : Nat}
  {a : α} {vs : List Json}

theorem unique?_eq {fields : List (List Char × Tree)} {all : List (String × Json)} (name : String)
    (h : List.Forall₂ (fun f g => f.1 = g.1.toList ∧ Stands f.2 g.2) fields all)
    (hone : (valuesOf all name).length ≤ 1) :
    ∃ found, Record.unique? fields name = some found ∧
      Option.Rel Stands found (valuesOf all name).head? := by
  have hfilter : List.Forall₂ (fun f g => f.1 = g.1.toList ∧ Stands f.2 g.2)
      (fields.filter (·.1 == name.toList)) (all.filter (·.1 == name)) := by
    refine List.rel_filter ?_ h
    rintro f g ⟨hname, -⟩
    simp [hname, String.toList_inj]
  rw [valuesOf, List.length_map] at hone
  rw [valuesOf, Record.unique?]
  generalize fields.filter (·.1 == name.toList) = given at hfilter
  generalize all.filter (·.1 == name) = written at hfilter hone
  cases hfilter with
  | nil => exact ⟨none, rfl, .none⟩
  | cons hfirst hrest =>
    cases hrest with
    | nil => exact ⟨_, rfl, .some hfirst.2⟩
    | cons => simp at hone

/-- The values that are found for the names of a record. -/
theorem exists_values {fields : List (List Char × Tree)} {all : List (String × Json)}
    (hfields : List.Forall₂ (fun f g => f.1 = g.1.toList ∧ Stands f.2 g.2) fields all)
    {known : List (String × List Json)} (h : ∀ k ∈ known, valuesOf all k.1 = k.2)
    (hone : ∀ k ∈ known, k.2.length ≤ 1) :
    ∃ values, (known.map (·.1)).mapM (Record.unique? fields) = some values ∧
      ∀ (i : Nat) (k : String × List Json), known[i]? = some k →
        Option.Rel Stands values[i]?.join k.2.head? := by
  induction known with
  | nil => exact ⟨[], rfl, by simp⟩
  | cons k known ih =>
    obtain ⟨hk, hknown⟩ := List.forall_mem_cons.1 h
    obtain ⟨honek, honeknown⟩ := List.forall_mem_cons.1 hone
    obtain ⟨values, hvalues, hrel⟩ := ih hknown honeknown
    obtain ⟨found, hfound, hfirst⟩ := unique?_eq k.1 hfields (by rw [hk]; exact honek)
    refine ⟨found :: values, by rw [List.map_cons, List.mapM_cons, hfound, hvalues]; rfl, ?_⟩
    rintro (_ | i) k' hk'
    · cases hk'
      rwa [hk] at hfirst
    · exact hrel i k' hk'

/-- A record is read from a tree that stands for it, and with it what stands for the values of its
known fields. -/
theorem exists_record {known : List (String × List Json)} {v : Json} {t : Tree}
    (h : IsRecord known v) (hone : ∀ k ∈ known, k.2.length ≤ 1) (ht : Stands t v) :
    ∃ r, Record.ofTree? (known.map (·.1)) t = some r ∧ r.named = true ∧
      ∀ (i : Nat) (k : String × List Json), known[i]? = some k →
        Option.Rel Stands (r.at? i) k.2.head? := by
  obtain @⟨all, hknown⟩ := h
  cases ht with
  | @object fs _ hfs =>
    have hfields : ∃ fields : List (List Char × Tree),
        (fs.mapM fun f => (StringItem.text? f.1).map fun name => (name, f.2)) = some fields ∧
          List.Forall₂ (fun f g => f.1 = g.1.toList ∧ Stands f.2 g.2) fields all := by
      clear hknown
      induction hfs with
      | nil => exact ⟨[], rfl, .nil⟩
      | cons hf _ ih =>
        obtain ⟨hname, hvalue⟩ := hf
        obtain ⟨fields, hfields, hrel⟩ := ih
        refine ⟨(_, _) :: fields, ?_, .cons ⟨rfl, hvalue⟩ hrel⟩
        rw [List.mapM_cons, hname, hfields]
        rfl
    obtain ⟨fields, hread, hrel⟩ := hfields
    obtain ⟨values, hvalues, hat⟩ := exists_values hrel hknown hone
    refine ⟨⟨true, values⟩, ?_, rfl, hat⟩
    rw [Record.ofTree?, hread, Option.bind_eq_bind, Option.bind_some, hvalues]
    rfl

theorem required_eq {v : Json} (hread : Recovers R read)
    (hat : Option.Rel Stands (r.at? i) (some v)) (h : R a v) : r.required i read = some a := by
  rw [Record.required]
  generalize r.at? i = given at hat
  cases hat with
  | some ht => exact hread h ht

theorem optional_eq {found : Option α} (hread : Recovers R read) (hnull : read .null = none)
    (hnamed : r.named = true) (hat : Option.Rel Stands (r.at? i) vs.head?)
    (h : IsOptional R found vs) : r.optional i read = some found := by
  rw [Record.optional]
  generalize r.at? i = given at hat
  cases h with
  | absent =>
    cases hat
    rw [hnamed]
    rfl
  | null =>
    cases hat with
    | some ht =>
      cases ht
      rfl
  | present h =>
    cases hat with
    | @some t _ ht =>
      have ha := hread h ht
      split
      · next heq => cases heq
      · next heq =>
        cases heq
        rw [hnull] at ha
        cases ha
      · next heq =>
        cases heq
        rw [ha]
        rfl

theorem withDefault_eq {default : α} (hread : Recovers R read)
    (hat : Option.Rel Stands (r.at? i) vs.head?) (h : IsDefaulted R default a vs) :
    r.withDefault i default read = some a := by
  rw [Record.withDefault]
  generalize r.at? i = given at hat
  cases h with
  | absent =>
    cases hat
    rfl
  | present h =>
    cases hat with
    | some ht => exact hread h ht

end

end Krl.Json
