import Krl.Proofs.Json.Records

/-!
# Reading a value by its shape

Values, lists and records are read from a value just if it has their shape (`Decodes`), so a value
of any other shape is refused. A record may be an object that has its fields by name, with any other
fields between them, or an array that has them by place (`HasFields`).

* `decodes_string`, `decodes_count`, `decodes_list`: what is read from values that are no records.
* `ofTree?_eq_some_iff`: which values are records.
* `withDefault_iff`, `withDefault_nullable_iff`: what is read from a field that may be left out.
-/

set_option autoImplicit false

namespace Krl.Json

/-- What is read from a value is what it means, and nothing is read from a value without meaning. -/
def Decodes {α : Type} (R : α → Json → Prop) (read : Tree → Option α) : Prop :=
  ∀ {a : α} {v : Json}, read v.tree = some a ↔ R a v

theorem mapM_eq_some_iff {α β : Type} {f : α → Option β} {as : List α} {bs : List β} :
    as.mapM f = some bs ↔ List.Forall₂ (fun a b => f a = some b) as bs := by
  induction as generalizing bs with
  | nil => simp [eq_comm]
  | cons a as ih =>
    rw [List.mapM_cons]
    simp only [Option.bind_eq_bind, Option.bind_eq_some_iff, Option.pure_def, Option.some.injEq, ih,
      List.forall₂_cons_left_iff]
    constructor
    · rintro ⟨b, hb, bs, hbs, rfl⟩
      exact ⟨b, bs, hb, hbs, rfl⟩
    · rintro ⟨b, bs, hb, hbs, rfl⟩
      exact ⟨b, hb, bs, hbs, rfl⟩

/-! ## Strings, numbers and lists -/

/-- A number of 64 bits that has neither sign nor fraction nor exponent. -/
inductive IsCount : Nat → Json → Prop
  | int {n : Nat} (h : n < UInt64.size) : IsCount n (.int n)
  /-- A number that is kept as it is written may be one too. -/
  | real {digits : List Nat} (h : Numeral.number 0 digits < UInt64.size) :
      IsCount (Numeral.number 0 digits) (.real ⟨false, digits, [], none⟩)

theorem trees_eq_map (vs : List Json) : trees vs = vs.map tree := by
  induction vs with
  | nil => rfl
  | cons v vs ih => rw [trees, ih, List.map_cons]

theorem fieldTrees_eq_map (fields : List (String × Json)) :
    fieldTrees fields = fields.map fun f => (f.1.toList.map .char, f.2.tree) := by
  induction fields with
  | nil => rfl
  | cons f fields ih => rw [fieldTrees, ih, List.map_cons, fieldTree]

theorem text?_map_char (cs : List Char) : StringItem.text? (cs.map .char) = some cs := by
  induction cs with
  | nil => rfl
  | cons c cs ih => rw [List.map_cons, StringItem.text?, ih, Option.map_some]

theorem decodes_string : Decodes (fun s v => v = .string s) Tree.string? := by
  intro s v
  cases v with
  | string t =>
    rw [tree, Tree.string?, Tree.text?, text?_map_char, Option.map_some, String.ofList_toList]
    simp
  | _ => simp [tree, Tree.string?, Tree.text?]

theorem natural?_eq_some_iff {x : Numeral} {n : Nat} : x.natural? = some n ↔
    ∃ digits, x = ⟨false, digits, [], none⟩ ∧ Numeral.number 0 digits = n := by
  rcases x with ⟨negative, whole, fraction, exponent⟩
  simp only [Numeral.natural?, Option.ite_none_right_eq_some, Bool.and_eq_true, Bool.not_eq_true',
    List.isEmpty_iff, Option.isNone_iff_eq_none, Option.some.injEq, Numeral.mk.injEq]
  constructor
  · rintro ⟨⟨⟨hsign, hfraction⟩, hexponent⟩, hn⟩
    exact ⟨whole, ⟨hsign, rfl, hfraction, hexponent⟩, hn⟩
  · rintro ⟨digits, ⟨hsign, rfl, hfraction, hexponent⟩, hn⟩
    exact ⟨⟨⟨hsign, hfraction⟩, hexponent⟩, hn⟩

theorem natural?_ofInt_iff {m : Int} {n : Nat} : (Numeral.ofInt m).natural? = some n ↔ m = n := by
  by_cases hm : 0 ≤ m
  · obtain ⟨k, rfl⟩ := Int.eq_ofNat_of_zero_le hm
    rw [natural?_ofInt, Option.some.injEq]
    omega
  · have hsign : (Numeral.ofInt m).negative = true := by
      simp only [Numeral.ofInt, decide_eq_true_eq]
      omega
    refine iff_of_false (fun h => ?_) (by omega)
    obtain ⟨digits, heq, -⟩ := natural?_eq_some_iff.1 h
    rw [heq] at hsign
    cases hsign

theorem nat?_eq_some_iff {x : Numeral} {n : Nat} :
    Tree.nat? (.number x) = some n ↔ x.natural? = some n ∧ n < UInt64.size := by
  rw [Tree.nat?, Tree.natBelow?, Option.filter_eq_some_iff, decide_eq_true_eq]

theorem decodes_count : Decodes IsCount Tree.nat? := by
  intro n v
  cases v with
  | int m =>
    rw [tree, nat?_eq_some_iff, natural?_ofInt_iff]
    constructor
    · rintro ⟨rfl, hn⟩
      exact .int hn
    · rintro ⟨hn⟩
      exact ⟨rfl, hn⟩
  | real x =>
    rw [tree, nat?_eq_some_iff, natural?_eq_some_iff]
    constructor
    · rintro ⟨⟨digits, rfl, rfl⟩, hn⟩
      exact .real hn
    · intro h
      cases h with
      | real hn => exact ⟨⟨_, rfl, rfl⟩, hn⟩
  | _ => exact iff_of_false nofun nofun

theorem decodes_list {α : Type} {R : α → Json → Prop} {read : Tree → Option α}
    (h : Decodes R read) : Decodes (IsList R) (Tree.list? read) := by
  intro as v
  cases v with
  | array items =>
    have hitems : List.Forall₂ (fun t a => read t = some a) (trees items) as ↔
        List.Forall₂ R as items := by
      have hread : (fun v a => read (tree v) = some a) = flip R := by
        funext v a
        exact propext h
      rw [trees_eq_map, List.forall₂_map_left_iff, hread]
      exact ⟨.flip, .flip⟩
    rw [tree, Tree.list?, mapM_eq_some_iff, hitems]
    constructor
    · exact .mk
    · rintro ⟨hall⟩
      exact hall
  | _ => refine iff_of_false (fun h => ?_) (fun h => ?_) <;> cases h

/-! ## Records -/

/-- The values that a record has for each of its names: the values of the fields of that name in an
object, one value for each of the first names in an array. -/
inductive HasFields (names : List String) : List (List Json) → Json → Prop
  | named {fields : List (String × Json)} :
      HasFields names (names.map (valuesOf fields)) (.object fields)
  | placed {items : List Json} {absent : Nat} (h : items.length + absent = names.length) :
      HasFields names (items.map ([·]) ++ List.replicate absent []) (.array items)

/-- What stands for the first of the values of a field. -/
def firstTree? (vs : List Json) : Option Tree := vs.head?.map tree

/-- The values of a known field are read if there is at most one. -/
theorem unique?_eq_some_iff {fields : List (String × Json)} {name : String} {found : Option Tree} :
    Record.unique? (fields.map fun f => (f.1.toList, f.2.tree)) name = some found ↔
      (valuesOf fields name).length ≤ 1 ∧ firstTree? (valuesOf fields name) = found := by
  have hfilter : (fields.map fun f => (f.1.toList, f.2.tree)).filter (·.1 == name.toList) =
      (fields.filter (·.1 == name)).map fun f => (f.1.toList, f.2.tree) := by
    rw [List.filter_map]
    congr 2
    funext f
    simp [String.toList_inj]
  rw [Record.unique?, hfilter, valuesOf]
  generalize fields.filter (·.1 == name) = given
  rcases given with _ | ⟨f, _ | ⟨g, rest⟩⟩
  · simp [firstTree?]
  · simp [firstTree?]
  · simp

theorem mapM_text?_fieldTrees (fields : List (String × Json)) :
    ((fieldTrees fields).mapM fun f => (StringItem.text? f.1).map fun name => (name, f.2)) =
      some (fields.map fun f => (f.1.toList, f.2.tree)) := by
  rw [fieldTrees_eq_map, mapM_eq_some_iff, List.forall₂_map_left_iff, List.forall₂_map_right_iff,
    List.forall₂_same]
  intro f _
  rw [text?_map_char, Option.map_some]

theorem mapM_unique?_eq_some_iff {names : List String} {fields : List (String × Json)}
    {values : List (Option Tree)} :
    names.mapM (Record.unique? (fields.map fun f => (f.1.toList, f.2.tree))) = some values ↔
      (∀ vs ∈ names.map (valuesOf fields), vs.length ≤ 1) ∧
        (names.map (valuesOf fields)).map firstTree? = values := by
  rw [mapM_eq_some_iff]
  simp only [unique?_eq_some_iff]
  induction names generalizing values with
  | nil => simp [eq_comm]
  | cons name names ih =>
    rw [List.forall₂_cons_left_iff]
    simp only [ih, List.map_cons, List.forall_mem_cons]
    constructor
    · rintro ⟨found, rest, ⟨hone, rfl⟩, ⟨hall, rfl⟩, rfl⟩
      exact ⟨⟨hone, hall⟩, rfl⟩
    · rintro ⟨⟨hone, hall⟩, rfl⟩
      exact ⟨_, _, ⟨hone, rfl⟩, ⟨hall, rfl⟩, rfl⟩

/-- An array gives its values to the first names. -/
theorem map_getElem?_range {items : List Json} {n : Nat} (h : items.length ≤ n) :
    (List.range n).map ((trees items)[·]?) =
      (items.map ([·]) ++ List.replicate (n - items.length) []).map firstTree? := by
  refine List.ext_getElem (by simp [h]) fun i hi _ => ?_
  rw [List.getElem_map, List.getElem_range, List.getElem_map, trees_eq_map, List.getElem?_map]
  by_cases hitem : i < items.length
  · rw [List.getElem_append_left (by simpa using hitem), List.getElem?_eq_getElem hitem]
    simp [firstTree?]
  · rw [List.getElem_append_right (by simpa using hitem), List.getElem?_eq_none (by omega)]
    simp [firstTree?]

theorem ofTree?_object_eq_some_iff {names : List String} {fields : List (String × Json)}
    {r : Record} : Record.ofTree? names (tree (.object fields)) = some r ↔
      (∀ vs ∈ names.map (valuesOf fields), vs.length ≤ 1) ∧
        r = ⟨true, (names.map (valuesOf fields)).map firstTree?⟩ := by
  rw [tree, Record.ofTree?, mapM_text?_fieldTrees]
  simp only [Option.bind_eq_bind, Option.bind_some, Option.bind_eq_some_iff,
    mapM_unique?_eq_some_iff, Option.some.injEq]
  constructor
  · rintro ⟨values, ⟨hone, rfl⟩, rfl⟩
    exact ⟨hone, rfl⟩
  · rintro ⟨hone, rfl⟩
    exact ⟨_, ⟨hone, rfl⟩, rfl⟩

theorem ofTree?_array_eq_some_iff {names : List String} {items : List Json} {r : Record} :
    Record.ofTree? names (tree (.array items)) = some r ↔
      items.length ≤ names.length ∧ r = ⟨false, (items.map ([·]) ++
        List.replicate (names.length - items.length) []).map firstTree?⟩ := by
  have hlength : (trees items).length = items.length := by rw [trees_eq_map, List.length_map]
  simp only [tree, Record.ofTree?, hlength, Option.ite_none_right_eq_some, Option.some.injEq]
  constructor
  · rintro ⟨hle, rfl⟩
    exact ⟨hle, by rw [map_getElem?_range hle]⟩
  · rintro ⟨hle, rfl⟩
    exact ⟨hle, by rw [map_getElem?_range hle]⟩

theorem length_le_one_of_mem_placed {items : List Json} {absent : Nat} {vs : List Json}
    (h : vs ∈ items.map ([·]) ++ List.replicate absent []) : vs.length ≤ 1 := by
  rcases List.mem_append.1 h with h | h
  · obtain ⟨v, -, rfl⟩ := List.mem_map.1 h
    exact Nat.le_refl 1
  · rw [List.eq_of_mem_replicate h]
    exact Nat.zero_le 1

/-- A record is read from a value that has its fields, each of them at most once. -/
theorem ofTree?_eq_some_iff {names : List String} {v : Json} {r : Record} :
    Record.ofTree? names v.tree = some r ↔
      ∃ given, HasFields names given v ∧ (∀ vs ∈ given, vs.length ≤ 1) ∧
        r = ⟨v.fields?.isSome, given.map firstTree?⟩ := by
  cases v with
  | object fields =>
    rw [ofTree?_object_eq_some_iff]
    constructor
    · rintro ⟨hone, rfl⟩
      exact ⟨_, .named, hone, rfl⟩
    · rintro ⟨given, hfields, hone, rfl⟩
      cases hfields with
      | named => exact ⟨hone, rfl⟩
  | array items =>
    rw [ofTree?_array_eq_some_iff]
    constructor
    · rintro ⟨hle, rfl⟩
      exact ⟨_, .placed (Nat.add_sub_of_le hle), fun vs => length_le_one_of_mem_placed, rfl⟩
    · rintro ⟨given, hfields, -, rfl⟩
      cases hfields with
      | @placed _ absent h =>
        have habsent : absent = names.length - items.length := by omega
        rw [habsent]
        exact ⟨by omega, rfl⟩
  | _ =>
    refine iff_of_false nofun ?_
    rintro ⟨given, hfields, -⟩
    cases hfields

theorem not_hasFields_null (names : List String) (given : List (List Json)) :
    ¬ HasFields names given .null := nofun

theorem length_of_hasFields {names : List String} {given : List (List Json)} {v : Json}
    (h : HasFields names given v) : given.length = names.length := by
  cases h with
  | named => rw [List.length_map]
  | placed h => rw [List.length_append, List.length_map, List.length_replicate, h]

section
variable {α : Type} {R : α → Json → Prop} {read : Tree → Option α} {r : Record} {i : Nat}
  {vs : List Json}

theorem withDefault_eq_some_iff {default a : α} (hat : r.at? i = firstTree? vs)
    (hone : vs.length ≤ 1) : r.withDefault i default read = some a ↔
      (vs = [] ∧ default = a) ∨ ∃ v, vs = [v] ∧ read v.tree = some a := by
  rw [Record.withDefault, hat]
  rcases vs with _ | ⟨v, _ | ⟨w, vs⟩⟩
  · simp [firstTree?]
  · simp [firstTree?]
  · simp at hone

theorem withDefault_iff {default a : α} (hread : Decodes R read)
    (hat : r.at? i = firstTree? vs) (hone : vs.length ≤ 1) :
    r.withDefault i default read = some a ↔ IsDefaulted R default a vs := by
  rw [withDefault_eq_some_iff hat hone]
  constructor
  · rintro (⟨rfl, rfl⟩ | ⟨v, rfl, hv⟩)
    · exact .absent
    · exact .present (hread.1 hv)
  · intro h
    cases h with
    | absent => exact .inl ⟨rfl, rfl⟩
    | present ha => exact .inr ⟨_, rfl, hread.2 ha⟩

theorem nullable_iff {found : Option α} {v : Json} (hread : Decodes R read)
    (hnull : ∀ a, ¬ R a .null) :
    Tree.nullable read v.tree = some found ↔ IsOptional R found [v] := by
  cases v with
  | null =>
    constructor
    · rintro ⟨⟩
      exact .null
    · intro h
      cases h with
      | null => rfl
      | present ha => exact absurd ha (hnull _)
  | _ =>
    show (read (tree _)).map some = some found ↔ _
    rw [Option.map_eq_some_iff]
    constructor
    · rintro ⟨a, ha, rfl⟩
      exact .present (hread.1 ha)
    · intro h
      cases h with
      | present ha => exact ⟨_, hread.2 ha, rfl⟩

/-- A field that may be absent, or hold `null`. -/
theorem withDefault_nullable_iff {found : Option α} (hread : Decodes R read)
    (hnull : ∀ a, ¬ R a .null) (hat : r.at? i = firstTree? vs) (hone : vs.length ≤ 1) :
    r.withDefault i none (Tree.nullable read) = some found ↔ IsOptional R found vs := by
  rw [withDefault_eq_some_iff hat hone]
  constructor
  · rintro (⟨rfl, rfl⟩ | ⟨v, rfl, hv⟩)
    · exact .absent
    · exact (nullable_iff hread hnull).1 hv
  · intro h
    cases h with
    | absent => exact .inl ⟨rfl, rfl⟩
    | null => exact .inr ⟨_, rfl, rfl⟩
    | present ha => exact .inr ⟨_, rfl, (nullable_iff hread hnull).2 (.present ha)⟩

end

end Krl.Json
