import Krl.Completion
import Krl.Node.Reading

/-!
# Functions among the completions

Of several items with one label the first is offered (`mem_firstOfEach_iff`), so an item for a
function is offered exactly if nothing in front of it has its label. The items of a ruleset stand in
the order of a walk: those of its id and its meta block, then those of the entries of the global
block, each with the function that it defines in front of what it refers to, and then those of the
rules.

* `mem_functions_iff`: the functions that are offered are those that no identifier in front of their
  definition refers to, and those with the name of an operator.
* `functions_shadowed`: a function that an earlier entry refers to is offered as a reference.
-/

set_option autoImplicit false

namespace Krl.Completion

/-! ## The first item of each label -/

theorem mem_firstOfEach_iff {seen : List String} {items : List Completion} {item : Completion} :
    item ∈ firstOfEach seen items ↔
      item.label ∉ seen ∧ items.find? (fun i => i.label == item.label) = some item := by
  induction items generalizing seen with
  | nil => simp [firstOfEach]
  | cons first items ih =>
    by_cases hlabel : first.label = item.label
    · -- the first item has the label: no later one is offered
      rw [List.find?_cons_of_pos (by simpa using hlabel), Option.some.injEq, firstOfEach]
      split
      · next hseen =>
        rw [ih]
        simp_all
      · next hseen =>
        rw [List.mem_cons, ih]
        simp_all [eq_comm]
    · rw [List.find?_cons_of_neg (by simpa using hlabel), firstOfEach]
      split
      · exact ih
      · rw [List.mem_cons, ih]
        have hne : item ≠ first := by
          rintro rfl
          exact hlabel rfl
        simp [hne, Ne.symm hlabel]

/-! ## What an entry offers -/

/-- The entry declares the name, and its right side is a function. -/
def Defines (name : String) (entry : Node) : Prop :=
  ∃ left children place span, entry = .declaration left (.function children place) span ∧
    left.name? = some name

/-- An identifier in the tree has the name. -/
def RefersTo (name : String) (n : Node) : Prop := ∃ span, .identifier name span ∈ n.walk

/-- Identifiers in the tree that have the name are none that is offered. -/
def Silent (name : String) (n : Node) : Prop :=
  RefersTo name n → Operators.isBuiltin name = true

/-- The items of an entry of the global block. -/
def offers (entry : Node) : List Completion := (definition? entry).toList ++ references entry

section
variable {name : String} {n : Node} {item : Completion}

theorem definition?_eq_some_iff :
    definition? n = some item ↔ Defines item.label n ∧ item = ⟨item.label, .function, none⟩ := by
  constructor
  · intro h
    unfold definition? at h
    split at h
    · obtain ⟨name, hname, rfl⟩ := Option.map_eq_some_iff.1 h
      exact ⟨⟨_, _, _, _, rfl, hname⟩, rfl⟩
    · cases h
  · rintro ⟨⟨left, children, place, span, rfl, hname⟩, hitem⟩
    rw [definition?, hname, Option.map_some, ← hitem]

theorem mem_references_iff : item ∈ references n ↔
    (RefersTo item.label n ∧ Operators.isBuiltin item.label = false) ∧
      item = ⟨item.label, .reference, none⟩ := by
  simp only [references, List.mem_filterMap]
  constructor
  · rintro ⟨m, hm, href⟩
    unfold reference? at href
    split at href
    · split at href
      · cases href
      · next hbuiltin =>
        cases href
        exact ⟨⟨⟨_, hm⟩, by simpa using hbuiltin⟩, rfl⟩
    · cases href
  · rintro ⟨⟨⟨span, hm⟩, hbuiltin⟩, hitem⟩
    exact ⟨_, hm, by rw [reference?, hbuiltin, hitem]; rfl⟩

theorem kind_of_mem_references (h : item ∈ references n) : item.kind = .reference := by
  rw [(mem_references_iff.1 h).2]

theorem find?_references_eq_none :
    (references n).find? (fun i => i.label == name) = none ↔ Silent name n := by
  simp only [List.find?_eq_none, beq_iff_eq]
  constructor
  · intro h hrefers
    cases hbuiltin : Operators.isBuiltin name with
    | true => rfl
    | false =>
      exact absurd rfl
        (h ⟨name, .reference, none⟩ (mem_references_iff.2 ⟨⟨hrefers, hbuiltin⟩, rfl⟩))
  · rintro h item hitem rfl
    obtain ⟨⟨hrefers, hbuiltin⟩, -⟩ := mem_references_iff.1 hitem
    rw [h hrefers] at hbuiltin
    cases hbuiltin

/-- Among the items of an entry, a function is the first one of its label only as the one that the
entry defines. -/
theorem find?_offers_eq_some (hkind : item.kind = .function) :
    (offers n).find? (fun i => i.label == item.label) = some item ↔ Defines item.label n ∧
      item = ⟨item.label, .function, none⟩ := by
  rw [← definition?_eq_some_iff, offers, List.find?_append, Option.or_eq_some_iff]
  constructor
  · rintro (h | ⟨-, h⟩)
    · exact Option.mem_toList.1 (List.mem_of_find?_eq_some h)
    · have href := kind_of_mem_references (List.mem_of_find?_eq_some h)
      rw [hkind] at href
      cases href
  · intro h
    left
    simp [h]

theorem find?_offers_eq_none :
    (offers n).find? (fun i => i.label == name) = none ↔ ¬ Defines name n ∧ Silent name n := by
  rw [offers, List.find?_append, Option.or_eq_none_iff, find?_references_eq_none]
  refine and_congr_left fun _ => ?_
  simp only [List.find?_eq_none, Option.mem_toList, beq_iff_eq]
  constructor
  · intro h hdefines
    exact h ⟨name, .function, none⟩ (definition?_eq_some_iff.2 ⟨hdefines, rfl⟩) rfl
  · rintro h item hitem rfl
    exact h (definition?_eq_some_iff.1 hitem).1

end

/-! ## Functions -/

section
variable {name : String} {rid metaBlock : Option Node} {globals rules : List Node}
  {span : Option Span} {item : Completion}

theorem mem_ofNode_iff (hkind : item.kind = .function) :
    item ∈ ofNode (.ruleset rid metaBlock globals rules span) ↔
      (∀ n ∈ rid.toList ++ metaBlock.toList, Silent item.label n) ∧
        globals.findSome? (fun n => (offers n).find? (fun i => i.label == item.label)) =
          some item := by
  have hreferences : ∀ {ns : List Node},
      (ns.flatMap references).find? (fun i => i.label == item.label) ≠ some item := by
    intro ns h
    obtain ⟨n, -, hn⟩ := List.mem_flatMap.1 (List.mem_of_find?_eq_some h)
    have href := kind_of_mem_references hn
    rw [hkind] at href
    cases href
  rw [ofNode, mem_firstOfEach_iff, mentions, List.find?_append, List.find?_append]
  simp only [Option.or_eq_some_iff, Option.or_eq_none_iff, hreferences, false_or, and_false,
    or_false, List.not_mem_nil, not_false_eq_true, true_and]
  simp only [List.find?_flatMap, List.findSome?_eq_none_iff, find?_references_eq_none]
  rfl

/-- An entry that defines a name has a first one in front of it, or is that itself. -/
theorem exists_first (earlier : List Node) {entry : Node} (later : List Node)
    (h : Defines name entry) : ∃ before first behind,
      earlier ++ entry :: later = before ++ first :: behind ∧ Defines name first ∧
        (∀ n ∈ before, ¬ Defines name n) ∧ ∀ n ∈ before, n ∈ earlier := by
  induction earlier with
  | nil => exact ⟨[], entry, later, rfl, h, by simp, by simp⟩
  | cons n earlier ih =>
    by_cases hn : Defines name n
    · exact ⟨[], n, earlier ++ entry :: later, rfl, hn, by simp, by simp⟩
    · obtain ⟨before, first, behind, heq, hfirst, hnot, hmem⟩ := ih
      refine ⟨n :: before, first, behind, by rw [List.cons_append, heq]; rfl, hfirst, ?_, ?_⟩
      · exact List.forall_mem_cons.2 ⟨hn, hnot⟩
      · exact List.forall_mem_cons.2
          ⟨List.mem_cons_self, fun m hm => List.mem_cons_of_mem _ (hmem m hm)⟩

/-- The functions that are offered for a ruleset are those that an entry of the global block
defines, and that no identifier refers to in the id, in the meta block or in an earlier entry; what
has the name of an operator may be referred to. -/
theorem mem_functions_iff (name : String) (rid metaBlock : Option Node) (globals rules : List Node)
    (span : Option Span) :
    name ∈ ((ofNode (.ruleset rid metaBlock globals rules span)).filter
        (·.kind = .function)).map label ↔
      ∃ earlier entry later, globals = earlier ++ entry :: later ∧ Defines name entry ∧
        ∀ n ∈ rid.toList ++ metaBlock.toList ++ earlier,
          RefersTo name n → Operators.isBuiltin name = true := by
  simp only [List.mem_map, List.mem_filter, decide_eq_true_eq]
  constructor
  · rintro ⟨item, ⟨hitem, hkind⟩, rfl⟩
    obtain ⟨houter, hfind⟩ := (mem_ofNode_iff hkind).1 hitem
    obtain ⟨earlier, entry, later, rfl, hentry, hearlier⟩ := List.findSome?_eq_some_iff.1 hfind
    refine ⟨earlier, entry, later, rfl, ((find?_offers_eq_some hkind).1 hentry).1, ?_⟩
    intro n hn
    rcases List.mem_append.1 hn with hn | hn
    · exact houter n hn
    · exact (find?_offers_eq_none.1 (hearlier n hn)).2
  · rintro ⟨earlier, entry, later, rfl, hdefines, hsilent⟩
    obtain ⟨before, first, behind, heq, hfirst, hnot, hmem⟩ :=
      exists_first earlier later hdefines
    refine ⟨⟨name, .function, none⟩, ⟨(mem_ofNode_iff rfl).2 ⟨?_, ?_⟩, rfl⟩, rfl⟩
    · exact fun n hn => hsilent n (List.mem_append_left _ hn)
    · rw [heq]
      refine List.findSome?_eq_some_iff.2 ⟨before, first, behind, rfl, ?_, ?_⟩
      · exact (find?_offers_eq_some rfl).2 ⟨hfirst, rfl⟩
      · intro n hn
        exact find?_offers_eq_none.2 ⟨hnot n hn, hsilent n (List.mem_append_right _ (hmem n hn))⟩

/-- A ruleset whose global block declares `x` as `f`, and then `f` as a function. -/
def forward : Json :=
  .object [
    ("global", .array [
      .object [
        ("left", .object [("type", .string "Identifier"), ("value", .string "x")]),
        ("loc", .object [("end", .int 5), ("start", .int 0)]),
        ("right", .object [("type", .string "Identifier"), ("value", .string "f")]),
        ("type", .string "Declaration")],
      .object [
        ("left", .object [("type", .string "Identifier"), ("value", .string "f")]),
        ("loc", .object [("end", .int 26), ("start", .int 6)]),
        ("right", .object [("body", .array []), ("params", .array []),
          ("type", .string "Function")]),
        ("type", .string "Declaration")]]),
    ("rules", .array []),
    ("type", .string "Ruleset")]

/-- The ruleset is read and defines a function, and none is offered. -/
theorem functions_shadowed :
    ∃ rid metaBlock globals rules span,
      Node.ofJson forward = .ok (.ruleset rid metaBlock globals rules span) ∧
        (∃ entry ∈ globals, Defines "f" entry) ∧
        (ofNode (.ruleset rid metaBlock globals rules span)).map (fun i => (i.label, i.kind)) =
          [("x", .reference), ("f", .reference)] := by
  refine ⟨_, _, _, _, _, rfl, ⟨_, List.mem_cons_of_mem _ List.mem_cons_self, ?_⟩, ?_⟩
  · exact ⟨_, _, _, _, rfl, rfl⟩
  · have hx : Operators.isBuiltin "x" = false := by decide +kernel
    have hf : Operators.isBuiltin "f" = false := by decide +kernel
    have hrefx : ∀ span, reference? (.identifier "x" span) = some ⟨"x", .reference, none⟩ := by
      intro span
      rw [reference?, hx]
      rfl
    have hreff : ∀ span, reference? (.identifier "f" span) = some ⟨"f", .reference, none⟩ := by
      intro span
      rw [reference?, hf]
      rfl
    simp only [ofNode, mentions, List.cons_append, List.nil_append, List.append_nil,
      List.flatMap_cons, List.flatMap_nil, Option.toList_none]
    simp only [references, Node.walk_eq, Node.children, List.flatMap_cons, List.flatMap_nil,
      List.cons_append, List.nil_append, List.append_nil, List.filterMap_cons, hrefx, hreff]
    rfl

end

end Krl.Completion
