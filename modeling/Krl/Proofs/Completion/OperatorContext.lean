import Krl.OperatorContext

/-!
# The language of operator contexts

An operator is being applied at the end of a text that ends with the end of an expression, a point
and the start of a name, with blanks around the point (`Applied`). That is the pattern that is
looked for, with its classes of characters spelled out.

* `holds_iff_applied`: just those texts are recognised.
* `holds_language`: and they are, whatever else stands in front of them.
-/

set_option autoImplicit false

namespace Krl.OperatorContext

/-! ## The language -/

/-- An ASCII letter. -/
def IsLetter (c : Char) : Prop := 'a' ≤ c ∧ c ≤ 'z' ∨ 'A' ≤ c ∧ c ≤ 'Z'

/-- The last character of an expression: of a name, a number, a string or a template, or a closing
bracket. -/
def IsEnd (c : Char) : Prop :=
  IsLetter c ∨ '0' ≤ c ∧ c ≤ '9' ∨ c ∈ ['_', '$', ')', ']', '}', '"', '>']

/-- A character with the property `White_Space`: a control that moves on, the separator of lines or
of paragraphs, or one of those of words. -/
def IsWhite (c : Char) : Prop :=
  0x09 ≤ c.toNat ∧ c.toNat ≤ 0x0D ∨ c.toNat = 0x85 ∨ c.toNat ∈ [0x2028, 0x2029] ∨
    c.toNat ∈ [0x20, 0xA0, 0x1680, 0x202F, 0x205F, 0x3000] ∨ 0x2000 ≤ c.toNat ∧ c.toNat ≤ 0x200A

/-- A text that ends with an expression, a point, and as much of a name as has been typed. -/
inductive Applied : List Char → Prop
  | mk {front before behind name : List Char} {last : Char} (hlast : IsEnd last)
      (hbefore : ∀ c ∈ before, IsWhite c) (hbehind : ∀ c ∈ behind, IsWhite c)
      (hname : ∀ c ∈ name, IsLetter c ∨ c = '_' ∨ c = '$') :
      Applied (front ++ [last] ++ before ++ ['.'] ++ behind ++ name)

theorem Applied.append_left {text : List Char} (h : Applied text) (front : List Char) :
    Applied (front ++ text) := by
  obtain @⟨between, before, behind, name, last, hlast, hbefore, hbehind, hname⟩ := h
  have hmore : Applied ((front ++ between) ++ [last] ++ before ++ ['.'] ++ behind ++ name) :=
    .mk hlast hbefore hbehind hname
  simpa only [List.append_assoc] using hmore

/-! ## Characters -/

section
variable {c : Char}

theorem isAlpha_iff : c.isAlpha = true ↔ IsLetter c := by
  have hupper : c.isUpper = true ↔ 'A' ≤ c ∧ c ≤ 'Z' := decide_eq_true_iff
  have hlower : c.isLower = true ↔ 'a' ≤ c ∧ c ≤ 'z' :=
    Bool.and_eq_true_iff.trans (and_congr decide_eq_true_iff decide_eq_true_iff)
  exact (Bool.or_eq_true_iff.trans (or_congr hupper hlower)).trans or_comm

theorem isAlphanum_iff : c.isAlphanum = true ↔ IsLetter c ∨ '0' ≤ c ∧ c ≤ '9' := by
  have hdigit : c.isDigit = true ↔ '0' ≤ c ∧ c ≤ '9' :=
    Bool.and_eq_true_iff.trans (and_congr decide_eq_true_iff decide_eq_true_iff)
  exact Bool.or_eq_true_iff.trans (or_congr isAlpha_iff hdigit)

theorem isNamePart_iff : isNamePart c = true ↔ IsLetter c ∨ c = '_' ∨ c = '$' := by
  simp only [isNamePart, Bool.or_eq_true, isAlpha_iff, decide_eq_true_eq, or_assoc]

theorem endsExpression_iff : endsExpression c = true ↔ IsEnd c := by
  simp only [endsExpression, Bool.or_eq_true, isAlphanum_iff, decide_eq_true_eq, IsEnd,
    List.mem_cons, List.not_mem_nil, or_false, or_assoc]

theorem isBlank_iff : Text.isBlank c = true ↔ IsWhite c := by
  simp only [Text.isBlank, Text.blankRanges, List.any_cons, List.any_nil, Bool.or_false,
    Bool.or_eq_true, Bool.and_eq_true, decide_eq_true_eq, IsWhite, List.mem_cons,
    List.not_mem_nil, or_false]
  omega

end

/-! ## Matches -/

theorem matches_pattern_iff {found : List Char} : Text.Matches pattern found ↔
    ∃ last before behind name, found = [last] ++ before ++ ['.'] ++ behind ++ name ∧
      endsExpression last = true ∧ (∀ c ∈ before, Text.isBlank c = true) ∧
      (∀ c ∈ behind, Text.isBlank c = true) ∧ ∀ c ∈ name, isNamePart c = true := by
  unfold pattern
  constructor
  · intro h
    obtain _ | ⟨hlast, h⟩ := h
    cases h with
    | many hbefore h =>
      obtain _ | ⟨hpoint, h⟩ := h
      cases h with
      | many hbehind h =>
        cases h with
        | many hname h =>
          cases h
          refine ⟨_, _, _, _, ?_, hlast, hbefore, hbehind, hname⟩
          simp [of_decide_eq_true hpoint]
  · rintro ⟨last, before, behind, name, rfl, hlast, hbefore, hbehind, hname⟩
    have hpattern : Text.Matches pattern (last :: (before ++ '.' :: (behind ++ (name ++ [])))) :=
      .one hlast (.many hbefore (.one rfl (.many hbehind (.many hname .nil))))
    simpa [pattern] using hpattern

theorem holds_iff_applied {text : List Char} : holds text = true ↔ Applied text := by
  unfold holds
  rw [Text.endsWith_iff]
  constructor
  · rintro ⟨front, found, rfl, hfound⟩
    obtain ⟨last, before, behind, name, rfl, hlast, hbefore, hbehind, hname⟩ :=
      matches_pattern_iff.1 hfound
    have happlied : Applied (front ++ [last] ++ before ++ ['.'] ++ behind ++ name) :=
      .mk (endsExpression_iff.1 hlast) (fun c hc => isBlank_iff.1 (hbefore c hc))
        (fun c hc => isBlank_iff.1 (hbehind c hc)) fun c hc => isNamePart_iff.1 (hname c hc)
    simpa only [List.append_assoc] using happlied
  · rintro @⟨front, before, behind, name, last, hlast, hbefore, hbehind, hname⟩
    refine ⟨front, [last] ++ before ++ ['.'] ++ behind ++ name, by simp only [List.append_assoc],
      matches_pattern_iff.2 ⟨last, before, behind, name, rfl, endsExpression_iff.2 hlast, ?_⟩⟩
    exact ⟨fun c hc => isBlank_iff.2 (hbefore c hc), fun c hc => isBlank_iff.2 (hbehind c hc),
      fun c hc => isNamePart_iff.2 (hname c hc)⟩

/-- Just the texts of the language are recognised, and each of them behind any other text. -/
theorem holds_language (text : List Char) :
    (holds text = true ↔ Applied text) ∧
      ∀ front, holds text = true → holds (front ++ text) = true := by
  refine ⟨holds_iff_applied, fun front h => ?_⟩
  rw [holds_iff_applied] at h ⊢
  exact h.append_left front

end Krl.OperatorContext
