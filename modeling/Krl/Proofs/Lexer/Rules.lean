import Krl.Token.Lexer

/-!
# The rules of the lexer, one by one

What a lexeme can be, and under which condition.

* `scanCode_rule`: the lexeme that code starts with is that of one of the rules (`CodeRule`).
* `scanTemplate_rule`: the lexeme that template text starts with is a mark, text in front of a mark,
  or everything that is left (`TemplateRule`).
-/

set_option autoImplicit false

namespace Krl.Lexer

open Token (Kind)

/-! ## Code -/

/-- Nothing but a mark can stand here: none of the rules in front of that of marks applies. -/
structure Unclaimed (cs : List Char) : Prop where
  space : ¬ cs.head?.any isSpace
  lineComment : ¬ ['/', '/'].isPrefixOf cs
  blockComment : ¬ ['/', '*'].isPrefixOf cs
  digit : ¬ startsWithDigit cs
  point : ¬ (cs.head? = some '.' ∧ startsWithDigit cs.tail)
  quote : ¬ cs.head? = some '"'
  regexp : ¬ ['r', 'e', '#'].isPrefixOf cs
  chevron : ¬ ['<', '<'].isPrefixOf cs
  identifier : ¬ cs.head?.any isIdentifierStart

/-- The lexemes that code can start with, where `braces` are open, each with the condition under
which it is found. -/
inductive CodeRule (braces : List Nat) (cs : List Char) : Kind × Nat → Prop
  | whitespace : cs.head?.any isSpace → CodeRule braces cs (.whitespace, runLength isSpace cs)
  | lineComment : ['/', '/'].isPrefixOf cs → CodeRule braces cs (.lineComment, lineCommentLength cs)
  | blockComment {n : Nat} : ['/', '*'].isPrefixOf cs → commentEnd? 2 (cs.drop 2) = some n →
      CodeRule braces cs (.blockComment, n)
  | openComment : ['/', '*'].isPrefixOf cs → commentEnd? 2 (cs.drop 2) = none →
      CodeRule braces cs (.illegal, cs.length)
  | number : startsWithDigit cs ∨ cs.head? = some '.' ∧ startsWithDigit cs.tail →
      CodeRule braces cs (.number, numberLength cs)
  | string {n : Nat} : cs.head? = some '"' → closing? '"' 1 (cs.drop 1) = some n →
      CodeRule braces cs (.string, n)
  | openString : cs.head? = some '"' → closing? '"' 1 (cs.drop 1) = none →
      CodeRule braces cs (.illegal, cs.length)
  | regexp {n : Nat} : ['r', 'e', '#'].isPrefixOf cs → closing? '#' 3 (cs.drop 3) = some n →
      CodeRule braces cs (.regexp, n + flagsLength (cs.drop n))
  | openRegexp : ['r', 'e', '#'].isPrefixOf cs → closing? '#' 3 (cs.drop 3) = none →
      CodeRule braces cs (.illegal, cs.length)
  | chevronOpen : ['<', '<'].isPrefixOf cs → CodeRule braces cs (.chevronOpen, 2)
  | symbol : cs.head?.any isIdentifierStart → ¬ ['r', 'e', '#'].isPrefixOf cs →
      CodeRule braces cs (.symbol, runLength isIdentifierPart cs)
  | beestingClose : cs.head? = some '}' → braces.head? = some 0 →
      CodeRule braces cs (.beestingClose, 1)
  | mark {mark : List Char} : Unclaimed cs → ¬ (cs.head? = some '}' ∧ braces.head? = some 0) →
      marks.find? (·.isPrefixOf cs) = some mark → CodeRule braces cs (.raw, mark.length)
  | unknown : Unclaimed cs → marks.find? (·.isPrefixOf cs) = none →
      CodeRule braces cs (.illegal, 1)

theorem scanCode_rule (braces : List Nat) (cs : List Char) :
    CodeRule braces cs (scanCode braces cs) := by
  unfold scanCode
  refine iteInduction (fun h => .whitespace h) fun hspace => ?_
  refine iteInduction (fun h => .lineComment h) fun hline => ?_
  refine iteInduction (fun h => ?_) fun hblock => ?_
  · cases hn : commentEnd? 2 (cs.drop 2) with
    | none => exact .openComment h hn
    | some n => exact .blockComment h hn
  refine iteInduction (fun h => .number (.inl h)) fun hdigit => ?_
  refine iteInduction (fun h => .number (.inr h)) fun hpoint => ?_
  refine iteInduction (fun h => ?_) fun hquote => ?_
  · cases hn : closing? '"' 1 (cs.drop 1) with
    | none => exact .openString h hn
    | some n => exact .string h hn
  refine iteInduction (fun h => ?_) fun hregexp => ?_
  · cases hn : closing? '#' 3 (cs.drop 3) with
    | none => exact .openRegexp h hn
    | some n => exact .regexp h hn
  refine iteInduction (fun h => .chevronOpen h) fun hchevron => ?_
  refine iteInduction (fun h => .symbol h hregexp) fun hidentifier => ?_
  have hun : Unclaimed cs :=
    ⟨hspace, hline, hblock, hdigit, hpoint, hquote, hregexp, hchevron, hidentifier⟩
  refine iteInduction (fun h => .beestingClose h.1 h.2) fun hclose => ?_
  split
  · next mark hm => exact .mark hun hclose hm
  · next hm => exact .unknown hun hm

namespace CodeRule

variable {braces : List Nat} {cs : List Char} {kind : Kind} {n : Nat}

/-- No lexeme of code is a part of a template behind its opening mark. -/
theorem not_template (h : CodeRule braces cs (kind, n)) :
    kind ≠ .chevronString ∧ kind ≠ .beestingOpen ∧ kind ≠ .chevronClose := by
  cases h <;> decide

/-- An interpolation is closed only where all braces in it are. -/
theorem head?_of_beestingClose (h : CodeRule braces cs (.beestingClose, n)) :
    braces.head? = some 0 := by
  cases h with
  | beestingClose _ hb => exact hb

/-- A closing brace is a mark only where there is one to be closed, or no interpolation. -/
theorem head?_of_rightBrace (h : CodeRule braces cs (.raw, n)) (ht : cs.take n = ['}']) :
    braces.head? ≠ some 0 := by
  cases h with
  | mark _ hclose _ =>
    refine fun hb => hclose ⟨?_, hb⟩
    cases cs with
    | nil => simp at ht
    | cons c cs =>
      have := congrArg List.head? ht
      simp only [List.head?_take, List.head?_cons] at this ⊢
      split at this
      · cases this
      · exact this

end CodeRule

/-! ## Template text -/

/-- The lexemes that template text can start with, each with the condition under which it is
found. -/
inductive TemplateRule (cs : List Char) : Kind × Nat → Prop
  | mark {kind : Kind} : templateMark? cs = some kind → TemplateRule cs (kind, 2)
  | openText : templateMark? cs = none → TemplateRule cs (.illegal, cs.length)
  | text {n : Nat} : templateMark? cs = none → n = templateLength 0 cs →
      (templateMark? (cs.drop n)).isSome → TemplateRule cs (.chevronString, n)

theorem templateMark?_eq_some {cs : List Char} {kind : Kind} (h : templateMark? cs = some kind) :
    kind = .beestingOpen ∨ kind = .chevronClose := by
  unfold templateMark? at h
  split at h
  · cases h; exact .inl rfl
  split at h
  · cases h; exact .inr rfl
  · cases h

theorem templateMark?_nil : templateMark? [] = none := rfl

/-- Template text ends with the source or in front of a mark. -/
theorem templateLength_stops (n : Nat) (cs : List Char) :
    templateLength n cs = n + cs.length ∨
      (templateMark? (cs.drop (templateLength n cs - n))).isSome := by
  fun_induction templateLength n cs with
  | case1 n => exact .inl rfl
  | case2 n => exact .inl rfl
  | case3 n d cs ih =>
    have hle := (templateLength_le (n + 2) cs).1
    rw [show templateLength (n + 2) cs - n = templateLength (n + 2) cs - (n + 2) + 1 + 1 by omega]
    refine ih.imp (fun h => ?_) id
    rw [h, List.length_cons, List.length_cons]
    omega
  | case4 n c cs _ _ hm => exact .inr (by simpa using hm)
  | case5 n c cs _ _ hm ih =>
    have hle := (templateLength_le (n + 1) cs).1
    rw [show templateLength (n + 1) cs - n = templateLength (n + 1) cs - (n + 1) + 1 by omega]
    refine ih.imp (fun h => ?_) id
    rw [h, List.length_cons]
    omega

theorem scanTemplate_rule (cs : List Char) : TemplateRule cs (scanTemplate cs) := by
  unfold scanTemplate
  split
  · next kind h => exact .mark h
  next hnone =>
  have hle := (templateLength_le 0 cs).2
  have hstops := templateLength_stops 0 cs
  simp only [Nat.zero_add, Nat.sub_zero] at hle hstops
  simp only [List.isEmpty_iff, List.drop_eq_nil_iff]
  split
  · next h =>
    rw [Nat.le_antisymm hle h]
    exact .openText hnone
  · next h => exact .text hnone rfl (hstops.resolve_left (by omega))

end Krl.Lexer
