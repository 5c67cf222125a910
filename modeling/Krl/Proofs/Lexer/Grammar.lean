import Krl.Proofs.Lexer.Nesting
import Mathlib.Data.List.TakeWhile

/-!
# The grammar of lexemes

What the text of a token can be, kind by kind, and what can stand behind it (`Lexeme`). Nothing here
says how a lexeme is looked for: a language is given by the characters of the text, and "as long as
possible" by what the rest of the source does not start with.

* `CodeRule.lexeme`, `scanTemplate_lexeme`: what the rules find is a lexeme of its kind.
* `lexAll_lexemes`: every source is cut into such lexemes.
-/

set_option autoImplicit false

namespace Krl.Lexer

open Token (Kind)

/-! ## Texts and what stands behind them -/

/-- One of the marks stands at the start. -/
def StartsWith (ms : List (List Char)) (cs : List Char) : Prop := ∃ m ∈ ms, m <+: cs

/-- All characters have the property, and the next one has not. -/
structure MaximalRun (p : Char → Bool) (rest text : List Char) : Prop where
  all : ∀ c ∈ text, p c
  stops : ¬ rest.head?.any p

/-- One of the choices, and none that the rest would make longer. -/
structure LongestOf (choices : List (List Char)) (rest text : List Char) : Prop where
  mem : text ∈ choices
  longest : ∀ other ∈ choices, other <+: text ++ rest → other.length ≤ text.length

/-- Text in units, at none of which a mark starts. A unit is a backslash with the character that it
escapes, or any other character. -/
inductive Units (ms : List (List Char)) (rest : List Char) : List Char → Prop
  | nil : Units ms rest []
  | plain {c : Char} {cs : List Char} : c ≠ '\\' → ¬ StartsWith ms (c :: (cs ++ rest)) →
      Units ms rest cs → Units ms rest (c :: cs)
  | escape {c : Char} {cs : List Char} : Units ms rest cs → Units ms rest ('\\' :: c :: cs)

/-- Text to the end of the source that no mark closes. Its last character may be a backslash that
escapes nothing. -/
inductive Unclosed (ms : List (List Char)) : List Char → Prop
  | whole {us : List Char} : Units ms [] us → Unclosed ms us
  | dangling {us : List Char} : Units ms ['\\'] us → Unclosed ms (us ++ ['\\'])

/-! ## Languages -/

/-- The marks that end template text. -/
def templateMarks : List (List Char) := [['#', '{'], ['>', '>']]

/-- The flags that a regular expression can end with. -/
def flagSets : List (List Char) := [['g', 'i'], ['i', 'g'], ['g'], ['i'], []]

/-- Two slashes, a line, and the character that ends it or the end of the source. -/
inductive LineComment (rest : List Char) : List Char → Prop
  | ended {body : List Char} {c : Char} : (∀ d ∈ body, d ≠ '\n' ∧ d ≠ '\r') →
      c = '\n' ∨ c = '\r' → LineComment rest ('/' :: '/' :: (body ++ [c]))
  | last {body : List Char} : (∀ d ∈ body, d ≠ '\n' ∧ d ≠ '\r') → rest = [] →
      LineComment rest ('/' :: '/' :: body)

/-- Behind its opening mark, the closing one stands at the end and nowhere else. -/
structure BlockComment (text : List Char) : Prop where
  opens : ['/', '*'] <+: text
  length : 4 ≤ text.length
  closes : ∀ i, 2 ≤ i → (['*', '/'] <+: text.drop i ↔ i + 2 = text.length)

/-- Behind its opening mark, the closing one stands nowhere. -/
structure OpenComment (text : List Char) : Prop where
  opens : ['/', '*'] <+: text
  unclosed : ∀ i, 2 ≤ i → ¬ ['*', '/'] <+: text.drop i

/-- Digits, or a point and digits behind digits or none; no digit more, and no fraction left
behind. -/
inductive Number (rest : List Char) : List Char → Prop
  | whole {ds : List Char} : ds ≠ [] → MaximalRun Char.isDigit rest ds →
      ¬ (rest.head? = some '.' ∧ startsWithDigit rest.tail) → Number rest ds
  | fraction {ds fs : List Char} : (∀ c ∈ ds, c.isDigit) → fs ≠ [] →
      MaximalRun Char.isDigit rest fs → Number rest (ds ++ '.' :: fs)

/-- The lexemes of code and of template text, with `rest` behind them. -/
inductive Lexeme (rest : List Char) : Mode → Kind → List Char → Prop
  | whitespace {text : List Char} : text ≠ [] → MaximalRun isSpace rest text →
      Lexeme rest .code .whitespace text
  | lineComment {text : List Char} : LineComment rest text → Lexeme rest .code .lineComment text
  | blockComment {text : List Char} : BlockComment text → Lexeme rest .code .blockComment text
  | number {text : List Char} : Number rest text → Lexeme rest .code .number text
  | string {us : List Char} : Units [['"']] ['"'] us →
      Lexeme rest .code .string ('"' :: (us ++ ['"']))
  | regexp {us flags : List Char} : Units [['#']] ['#'] us → LongestOf flagSets rest flags →
      Lexeme rest .code .regexp ('r' :: 'e' :: '#' :: (us ++ '#' :: flags))
  | symbol {c : Char} {cs : List Char} : isIdentifierStart c → MaximalRun isIdentifierPart rest cs →
      ¬ (c :: cs = ['r', 'e'] ∧ rest.head? = some '#') → Lexeme rest .code .symbol (c :: cs)
  | chevronOpen : Lexeme rest .code .chevronOpen ['<', '<']
  | beestingClose : Lexeme rest .code .beestingClose ['}']
  | raw {text : List Char} : LongestOf marks rest text → Unclaimed (text ++ rest) →
      Lexeme rest .code .raw text
  | unknown {c : Char} : ¬ StartsWith marks (c :: rest) → Unclaimed (c :: rest) →
      Lexeme rest .code .illegal [c]
  | openComment {text : List Char} : OpenComment text → rest = [] →
      Lexeme rest .code .illegal text
  | openString {text : List Char} : Unclosed [['"']] text → rest = [] →
      Lexeme rest .code .illegal ('"' :: text)
  | openRegexp {text : List Char} : Unclosed [['#']] text → rest = [] →
      Lexeme rest .code .illegal ('r' :: 'e' :: '#' :: text)
  | chevronString {text : List Char} : text ≠ [] → Units templateMarks rest text →
      StartsWith templateMarks rest → Lexeme rest .template .chevronString text
  | beestingOpen : Lexeme rest .template .beestingOpen ['#', '{']
  | chevronClose : Lexeme rest .template .chevronClose ['>', '>']
  | openText {text : List Char} : text ≠ [] → Unclosed templateMarks text → rest = [] →
      Lexeme rest .template .illegal text

/-! ## Runs of characters -/

section
variable {p : Char → Bool} {text rest : List Char}

theorem maximalRun_takeWhile (p : Char → Bool) (cs : List Char) :
    MaximalRun p (cs.dropWhile p) (cs.takeWhile p) := by
  refine ⟨fun c hc => List.mem_takeWhile_imp hc, fun h => ?_⟩
  have hnot := List.head?_dropWhile_not p cs
  cases hd : (cs.dropWhile p).head? with
  | none => simp [hd] at h
  | some c => simp_all

theorem MaximalRun.takeWhile_append (h : MaximalRun p rest text) :
    (text ++ rest).takeWhile p = text := by
  have hrest : rest.takeWhile p = [] := by
    cases rest with
    | nil => rfl
    | cons c cs =>
      have hc := h.stops
      simp only [List.head?_cons, Option.any_some] at hc
      simp [hc]
  rw [List.takeWhile_append_of_pos h.all, hrest, List.append_nil]

theorem MaximalRun.runLength_append (h : MaximalRun p rest text) :
    runLength p (text ++ rest) = text.length := by
  rw [runLength, h.takeWhile_append]

theorem runLength_cons_of_pos {c : Char} (hc : p c) (cs : List Char) :
    runLength p (c :: cs) = (c :: cs.takeWhile p).length := by
  rw [runLength, List.takeWhile_cons_of_pos hc]

theorem isIdentifierPart_of_start {c : Char} (h : isIdentifierStart c) : isIdentifierPart c := by
  simp only [isIdentifierStart, isIdentifierPart, Char.isAlphanum, Bool.or_eq_true] at h ⊢
  exact h.imp (Or.imp .inl id) id

end

/-! ## Line comments -/

/-- The characters of a line. -/
def inLine (c : Char) : Bool := c != '\n' && c != '\r'

theorem inLine_iff {c : Char} : inLine c ↔ c ≠ '\n' ∧ c ≠ '\r' := by
  simp [inLine]

/-- The length of a line comment whose line is known. -/
theorem lineCommentLength_append {body tail : List Char} (h : MaximalRun inLine tail body) :
    lineCommentLength ('/' :: '/' :: (body ++ tail)) =
      if tail = [] then body.length + 2 else body.length + 3 := by
  have hopen : MaximalRun inLine tail ('/' :: '/' :: body) := by
    refine ⟨?_, h.stops⟩
    intro c hc
    rcases List.mem_cons.1 hc with rfl | hc
    · rfl
    rcases List.mem_cons.1 hc with rfl | hc
    · rfl
    · exact h.all c hc
  have hrun : runLength (fun c => c != '\n' && c != '\r') ('/' :: '/' :: (body ++ tail)) =
      ('/' :: '/' :: body).length := hopen.runLength_append
  have hdrop : ('/' :: '/' :: (body ++ tail)).drop ('/' :: '/' :: body).length = tail := by
    simp
  simp only [lineCommentLength, hrun, hdrop, List.isEmpty_iff]
  simp only [List.length_cons]

theorem lineComment_split (tail : List Char) : ∃ text rest, '/' :: '/' :: tail = text ++ rest ∧
    text.length = lineCommentLength ('/' :: '/' :: tail) ∧ LineComment rest text := by
  have hrun := maximalRun_takeWhile inLine tail
  have htail : tail.takeWhile inLine ++ tail.dropWhile inLine = tail :=
    List.takeWhile_append_dropWhile
  have hbody : ∀ d ∈ tail.takeWhile inLine, d ≠ '\n' ∧ d ≠ '\r' :=
    fun d hd => inLine_iff.1 (hrun.all d hd)
  generalize tail.takeWhile inLine = body at hrun htail hbody
  generalize tail.dropWhile inLine = behind at hrun htail
  subst htail
  rw [lineCommentLength_append hrun]
  cases behind with
  | nil => exact ⟨'/' :: '/' :: body, [], by simp, by simp, .last hbody rfl⟩
  | cons c rest =>
    have hc : c = '\n' ∨ c = '\r' := by
      have hstop := hrun.stops
      simp only [List.head?_cons, Option.any_some, inLine_iff, not_and_or, not_not] at hstop
      exact hstop
    exact ⟨'/' :: '/' :: (body ++ [c]), rest, by simp, by simp, .ended hbody hc⟩

/-! ## Block comments -/

/-- The end that is found is that of the first closing mark. -/
theorem commentEnd?_eq_some_iff {n m : Nat} {cs : List Char} : commentEnd? n cs = some m ↔
    ∃ i, m = n + i + 2 ∧ ['*', '/'] <+: cs.drop i ∧ ∀ j < i, ¬ ['*', '/'] <+: cs.drop j := by
  induction cs generalizing n with
  | nil => simp [commentEnd?]
  | cons c cs ih =>
    have hhead : ['*', '/'] <+: c :: cs ↔ c = '*' ∧ cs.head? = some '/' := by
      cases cs <;> simp [List.cons_prefix_cons, eq_comm]
    rw [commentEnd?]
    split
    · next hc =>
      constructor
      · intro h
        cases h
        exact ⟨0, rfl, hhead.2 hc, by simp⟩
      · rintro ⟨i, rfl, -, hfirst⟩
        cases i with
        | zero => rfl
        | succ i => exact absurd (hhead.2 hc) (hfirst 0 (Nat.succ_pos i))
    · next hc =>
      rw [ih]
      constructor
      · rintro ⟨i, rfl, hi, hfirst⟩
        refine ⟨i + 1, by omega, hi, fun j hj => ?_⟩
        cases j with
        | zero => exact fun h => hc (hhead.1 h)
        | succ j => exact hfirst j (Nat.lt_of_succ_lt_succ hj)
      · rintro ⟨i, rfl, hi, hfirst⟩
        cases i with
        | zero => exact absurd (hhead.1 hi) hc
        | succ i => exact ⟨i, by omega, hi, fun j hj => hfirst (j + 1) (Nat.succ_lt_succ hj)⟩

theorem commentEnd?_eq_none_iff {n : Nat} {cs : List Char} :
    commentEnd? n cs = none ↔ ∀ i, ¬ ['*', '/'] <+: cs.drop i := by
  constructor
  · intro h i
    induction i using Nat.strongRecOn with
    | _ i ih =>
      intro hi
      rw [commentEnd?_eq_some_iff.2 ⟨i, rfl, hi, ih⟩] at h
      cases h
  · intro h
    cases hm : commentEnd? n cs with
    | none => rfl
    | some m =>
      obtain ⟨i, -, hi, -⟩ := commentEnd?_eq_some_iff.1 hm
      exact absurd hi (h i)

theorem blockComment_split {tail : List Char} {n : Nat} (h : commentEnd? 2 tail = some n) :
    ∃ text rest, '/' :: '*' :: tail = text ++ rest ∧ text.length = n ∧ BlockComment text := by
  obtain ⟨i, rfl, hi, hfirst⟩ := commentEnd?_eq_some_iff.1 h
  have hlen : i + 2 ≤ tail.length := by
    have := hi.length_le
    simp only [List.length_cons, List.length_nil, List.length_drop] at this
    omega
  have htext : ('/' :: '*' :: tail.take (i + 2)).length = i + 4 := by
    simp only [List.length_cons, List.length_take]
    omega
  refine ⟨'/' :: '*' :: tail.take (i + 2), tail.drop (i + 2), by simp, by omega, ⟨?_, ?_, ?_⟩⟩
  · exact ⟨tail.take (i + 2), rfl⟩
  · omega
  · intro j hj
    obtain ⟨k, rfl⟩ : ∃ k, j = k + 2 := ⟨j - 2, by omega⟩
    have hdrop : ('/' :: '*' :: tail.take (i + 2)).drop (k + 2) =
        (tail.drop k).take (i + 2 - k) := List.drop_take
    rw [hdrop, List.prefix_take_iff, htext]
    constructor
    · rintro ⟨hk, hle⟩
      simp only [List.length_cons, List.length_nil] at hle
      by_contra hne
      exact hfirst k (by omega) hk
    · intro hk
      obtain rfl : k = i := by omega
      refine ⟨hi, ?_⟩
      simp only [List.length_cons, List.length_nil]
      omega

theorem openComment_of_eq_none {tail : List Char} (h : commentEnd? 2 tail = none) :
    OpenComment ('/' :: '*' :: tail) := by
  refine ⟨⟨tail, rfl⟩, ?_⟩
  intro i hi
  obtain ⟨k, rfl⟩ : ∃ k, i = k + 2 := ⟨i - 2, by omega⟩
  exact commentEnd?_eq_none_iff.1 h k

/-! ## Text in units -/

/-- A single character is a mark at a unit only if it is the unit. -/
theorem startsWith_singleton {q c : Char} {cs : List Char} :
    StartsWith [[q]] (c :: cs) ↔ c = q := by
  simp [StartsWith, List.cons_prefix_cons, eq_comm]

/-- What neither of the two rules for a backslash takes is another character. -/
theorem ne_backslash {c : Char} {cs : List Char} (hlast : c = '\\' → cs = [] → False)
    (hescape : ∀ d ds, c = '\\' → cs = d :: ds → False) : c ≠ '\\' := by
  rintro rfl
  cases cs with
  | nil => exact hlast rfl rfl
  | cons d ds => exact hescape d ds rfl rfl

namespace Unclosed

variable {ms : List (List Char)} {c : Char} {cs : List Char}

theorem escape (h : Unclosed ms cs) : Unclosed ms ('\\' :: c :: cs) := by
  cases h with
  | whole hus => exact .whole (.escape hus)
  | dangling hus => exact .dangling (.escape hus)

theorem plain (hc : c ≠ '\\') (hstop : ¬ StartsWith ms (c :: cs)) (h : Unclosed ms cs) :
    Unclosed ms (c :: cs) := by
  cases h with
  | whole hus => exact .whole (.plain hc (by rwa [List.append_nil]) hus)
  | dangling hus => exact .dangling (.plain hc hstop hus)

end Unclosed

theorem closing?_eq_some {q : Char} {n m : Nat} {cs : List Char} (h : closing? q n cs = some m) :
    ∃ us rest, cs = us ++ q :: rest ∧ m = n + us.length + 1 ∧ Units [[q]] [q] us := by
  fun_induction closing? q n cs with
  | case1 => cases h
  | case2 => cases h
  | case3 n d cs ih =>
    obtain ⟨us, rest, rfl, rfl, hus⟩ := ih h
    refine ⟨'\\' :: d :: us, rest, rfl, ?_, .escape hus⟩
    simp only [List.length_cons]
    omega
  | case4 n cs =>
    cases h
    exact ⟨[], cs, rfl, rfl, .nil⟩
  | case5 n c cs _ hescape hc ih =>
    obtain ⟨us, rest, rfl, rfl, hus⟩ := ih h
    refine ⟨c :: us, rest, rfl, ?_, .plain ?_ (mt startsWith_singleton.1 hc) hus⟩
    · simp only [List.length_cons]
      omega
    · exact ne_backslash (fun _ h => by simp at h) hescape

theorem unclosed_of_closing? {q : Char} {n : Nat} {cs : List Char} (h : closing? q n cs = none) :
    Unclosed [[q]] cs := by
  fun_induction closing? q n cs with
  | case1 => exact .whole .nil
  | case2 => exact .dangling .nil
  | case3 n d cs ih =>
    exact (ih h).escape
  | case4 => cases h
  | case5 n c cs hlast hescape hc ih =>
    exact (ih h).plain (ne_backslash hlast hescape) (mt startsWith_singleton.1 hc)

theorem isSome_templateMark? {cs : List Char} :
    (templateMark? cs).isSome ↔ StartsWith templateMarks cs := by
  simp only [StartsWith, templateMarks, List.mem_cons, List.not_mem_nil, or_false,
    exists_eq_or_imp, exists_eq_left, ← List.isPrefixOf_iff_prefix]
  unfold templateMark?
  split
  · next h => simp [h]
  · next h =>
    split
    · next h' => simp [h']
    · next h' => simp [h, h']

/-- Template text ends in front of a mark that starts at a unit, or nothing closes it. -/
theorem templateLength_cases (n : Nat) (cs : List Char) :
    (∃ us rest, cs = us ++ rest ∧ templateLength n cs = n + us.length ∧
      Units templateMarks rest us ∧ StartsWith templateMarks rest) ∨
    (Unclosed templateMarks cs ∧ templateLength n cs = n + cs.length) := by
  fun_induction templateLength n cs with
  | case1 n => exact .inr ⟨.whole .nil, rfl⟩
  | case2 n => exact .inr ⟨.dangling .nil, rfl⟩
  | case3 n d cs ih =>
    rcases ih with ⟨us, rest, rfl, hlen, hus, hstop⟩ | ⟨hopen, hlen⟩
    · refine .inl ⟨'\\' :: d :: us, rest, rfl, ?_, .escape hus, hstop⟩
      simp only [hlen, List.length_cons]
      omega
    · refine .inr ⟨hopen.escape, ?_⟩
      simp only [hlen, List.length_cons]
      omega
  | case4 n c cs _ _ hmark =>
    exact .inl ⟨[], c :: cs, rfl, rfl, .nil, isSome_templateMark?.1 hmark⟩
  | case5 n c cs hlast hescape hmark ih =>
    have hne : c ≠ '\\' := ne_backslash hlast hescape
    have hnot := mt isSome_templateMark?.2 hmark
    rcases ih with ⟨us, rest, rfl, hlen, hus, hstop⟩ | ⟨hopen, hlen⟩
    · refine .inl ⟨c :: us, rest, rfl, ?_, .plain hne hnot hus, hstop⟩
      simp only [hlen, List.length_cons]
      omega
    · refine .inr ⟨hopen.plain hne hnot, ?_⟩
      simp only [hlen, List.length_cons]
      omega

/-! ## Numbers -/

/-- The length of a number whose first digits are known. -/
theorem numberLength_append {ds behind : List Char} (h : MaximalRun Char.isDigit behind ds) :
    numberLength (ds ++ behind) =
      if behind.head? = some '.' ∧ startsWithDigit behind.tail then
        ds.length + 1 + runLength Char.isDigit behind.tail
      else ds.length := by
  simp only [numberLength, h.runLength_append, List.drop_left]

theorem takeWhile_isDigit_ne_nil {cs : List Char} (h : startsWithDigit cs) :
    cs.takeWhile Char.isDigit ≠ [] := by
  intro hnil
  have hpos := runLength_pos h
  rw [runLength, hnil] at hpos
  cases hpos

theorem number_split {cs : List Char}
    (h : startsWithDigit cs ∨ cs.head? = some '.' ∧ startsWithDigit cs.tail) :
    ∃ text rest, cs = text ++ rest ∧ text.length = numberLength cs ∧ Number rest text := by
  have hds := maximalRun_takeWhile Char.isDigit cs
  have hcs : cs.takeWhile Char.isDigit ++ cs.dropWhile Char.isDigit = cs :=
    List.takeWhile_append_dropWhile
  have hlen := numberLength_append hds
  rw [hcs] at hlen
  by_cases hpoint : (cs.dropWhile Char.isDigit).head? = some '.' ∧
      startsWithDigit (cs.dropWhile Char.isDigit).tail
  · obtain ⟨tail, htail⟩ : ∃ tail, cs.dropWhile Char.isDigit = '.' :: tail := by
      cases hd : cs.dropWhile Char.isDigit with
      | nil => simp [hd] at hpoint
      | cons c tail =>
        simp only [hd, List.head?_cons, Option.some.injEq] at hpoint
        exact ⟨tail, by rw [hpoint.1]⟩
    rw [if_pos hpoint] at hlen
    rw [htail] at hlen hcs hpoint
    refine ⟨cs.takeWhile Char.isDigit ++ '.' :: tail.takeWhile Char.isDigit,
      tail.dropWhile Char.isDigit, ?_, ?_, .fraction hds.all
        (takeWhile_isDigit_ne_nil hpoint.2) (maximalRun_takeWhile Char.isDigit tail)⟩
    · rw [List.append_assoc, List.cons_append, List.takeWhile_append_dropWhile, hcs]
    · rw [hlen, List.length_append, List.length_cons]
      simp only [List.tail_cons, runLength]
      omega
  · rw [if_neg hpoint] at hlen
    refine ⟨_, _, hcs.symm, hlen.symm, .whole ?_ hds hpoint⟩
    rcases h with h | h
    · exact takeWhile_isDigit_ne_nil h
    · intro hnil
      rw [hnil, List.nil_append] at hcs
      rw [hcs] at hpoint
      exact hpoint h

/-! ## Choices -/

theorem flags_split (cs : List Char) : ∃ flags rest, cs = flags ++ rest ∧
    flags.length = flagsLength cs ∧ LongestOf flagSets rest flags := by
  fun_cases flagsLength cs with
  | case1 rest => exact ⟨['g', 'i'], rest, rfl, rfl, ⟨by decide, by simp [flagSets]⟩⟩
  | case2 rest => exact ⟨['i', 'g'], rest, rfl, rfl, ⟨by decide, by simp [flagSets]⟩⟩
  | case3 rest hi =>
    refine ⟨['g'], rest, rfl, rfl, ⟨by decide, ?_⟩⟩
    cases rest with
    | nil => simp [flagSets]
    | cons c cs =>
      have hc : 'i' ≠ c := fun h => hi cs (by rw [h])
      simp [flagSets, List.cons_prefix_cons, hc]
  | case4 rest hg =>
    refine ⟨['i'], rest, rfl, rfl, ⟨by decide, ?_⟩⟩
    cases rest with
    | nil => simp [flagSets]
    | cons c cs =>
      have hc : 'g' ≠ c := fun h => hg cs (by rw [h])
      simp [flagSets, List.cons_prefix_cons, hc]
  | case5 _ _ _ hg hi =>
    refine ⟨[], cs, rfl, rfl, ⟨by decide, ?_⟩⟩
    cases cs with
    | nil => simp [flagSets]
    | cons c cs =>
      have hc : 'g' ≠ c ∧ 'i' ≠ c := ⟨fun h => hg cs (by rw [h]), fun h => hi cs (by rw [h])⟩
      simp [flagSets, List.cons_prefix_cons, hc]

/-- No operator stands in front of one that it begins. -/
theorem pairwise_marks : marks.Pairwise fun m other => ¬ m <+: other := by
  decide

/-- The first mark that the text starts with is the longest one. -/
theorem longestOf_of_find? {mark rest : List Char}
    (h : marks.find? (·.isPrefixOf (mark ++ rest)) = some mark) : LongestOf marks rest mark := by
  refine ⟨List.mem_of_find?_eq_some h, ?_⟩
  intro other hother hprefix
  obtain ⟨-, before, behind, hmarks, hbefore⟩ := List.find?_eq_some_iff_append.1 h
  have hpair := pairwise_marks
  rw [hmarks] at hother hpair
  rcases List.mem_append.1 hother with hmem | hmem
  · have := hbefore other hmem
    simp [List.isPrefixOf_iff_prefix.2 hprefix] at this
  rcases List.mem_cons.1 hmem with rfl | hmem
  · exact Nat.le_refl _
  · have hnot := (List.pairwise_cons.1 (List.pairwise_append.1 hpair).2.1).1 other hmem
    by_contra hlt
    exact hnot (List.prefix_of_prefix_length_le (List.prefix_append mark rest) hprefix (by omega))

/-- What stands behind the mark that closes a regular expression. -/
theorem drop_regexp (us behind : List Char) :
    ('r' :: 'e' :: '#' :: (us ++ '#' :: behind)).drop (3 + us.length + 1) = behind := by
  simp [Nat.add_comm 3, List.drop_append]

theorem ne_nil_of_startsWith {cs : List Char} (h : StartsWith templateMarks cs) : cs ≠ [] := by
  rintro rfl
  simp [StartsWith, templateMarks] at h

/-! ## What the rules find -/

/-- The lexeme that code starts with is one of its kind. -/
theorem CodeRule.lexeme {braces : List Nat} {cs : List Char} {kind : Kind} {n : Nat}
    (hcs : cs ≠ []) (h : CodeRule braces cs (kind, n)) :
    ∃ text rest, cs = text ++ rest ∧ text.length = n ∧ Lexeme rest .code kind text := by
  cases h with
  | whitespace h =>
    refine ⟨_, _, List.takeWhile_append_dropWhile.symm, rfl,
      .whitespace ?_ (maximalRun_takeWhile isSpace cs)⟩
    exact List.length_pos_iff.1 (runLength_pos h)
  | lineComment h =>
    obtain ⟨tail, rfl⟩ := List.isPrefixOf_iff_prefix.1 h
    obtain ⟨text, rest, hsplit, hlen, htext⟩ := lineComment_split tail
    exact ⟨text, rest, hsplit, hlen, .lineComment htext⟩
  | blockComment h hn =>
    obtain ⟨tail, rfl⟩ := List.isPrefixOf_iff_prefix.1 h
    obtain ⟨text, rest, hsplit, hlen, htext⟩ := blockComment_split hn
    exact ⟨text, rest, hsplit, hlen, .blockComment htext⟩
  | openComment h hn =>
    obtain ⟨tail, rfl⟩ := List.isPrefixOf_iff_prefix.1 h
    exact ⟨_, [], (List.append_nil _).symm, rfl, .openComment (openComment_of_eq_none hn) rfl⟩
  | number h =>
    obtain ⟨text, rest, hsplit, hlen, htext⟩ := number_split h
    exact ⟨text, rest, hsplit, hlen, .number htext⟩
  | string h hn =>
    obtain ⟨tail, rfl⟩ := List.head?_eq_some_iff.1 h
    obtain ⟨us, rest, htail, rfl, hus⟩ := closing?_eq_some hn
    rw [List.drop_succ_cons, List.drop_zero] at htail
    subst htail
    refine ⟨_, rest, ?_, ?_, .string hus⟩
    · simp
    · simp only [List.length_cons, List.length_append, List.length_nil]
      omega
  | openString h hn =>
    obtain ⟨tail, rfl⟩ := List.head?_eq_some_iff.1 h
    exact ⟨_, [], (List.append_nil _).symm, rfl, .openString (unclosed_of_closing? hn) rfl⟩
  | regexp h hn =>
    obtain ⟨tail, rfl⟩ := List.isPrefixOf_iff_prefix.1 h
    obtain ⟨us, behind, htail, rfl, hus⟩ := closing?_eq_some hn
    replace htail : tail = us ++ '#' :: behind := htail
    subst htail
    obtain ⟨flags, rest, rfl, hlen, hflags⟩ := flags_split behind
    refine ⟨_, rest, ?_, ?_, .regexp hus hflags⟩
    · simp
    · have hdrop : (['r', 'e', '#'] ++ (us ++ '#' :: (flags ++ rest))).drop (3 + us.length + 1) =
          flags ++ rest := drop_regexp us (flags ++ rest)
      rw [hdrop, ← hlen]
      simp only [List.length_cons, List.length_append]
      omega
  | openRegexp h hn =>
    obtain ⟨tail, rfl⟩ := List.isPrefixOf_iff_prefix.1 h
    exact ⟨_, [], (List.append_nil _).symm, rfl, .openRegexp (unclosed_of_closing? hn) rfl⟩
  | chevronOpen h =>
    obtain ⟨rest, rfl⟩ := List.isPrefixOf_iff_prefix.1 h
    exact ⟨['<', '<'], rest, rfl, rfl, .chevronOpen⟩
  | symbol h hregexp =>
    obtain ⟨c, cs, rfl⟩ := List.exists_cons_of_ne_nil hcs
    have hc : isIdentifierStart c := by simpa using h
    have hlen := runLength_cons_of_pos (isIdentifierPart_of_start hc) cs
    refine ⟨c :: cs.takeWhile isIdentifierPart, cs.dropWhile isIdentifierPart, ?_, hlen.symm,
      .symbol hc (maximalRun_takeWhile isIdentifierPart cs) ?_⟩
    · rw [List.cons_append, List.takeWhile_append_dropWhile]
    · rintro ⟨hre, hmark⟩
      obtain ⟨rest, hrest⟩ := List.head?_eq_some_iff.1 hmark
      have hsplit : c :: cs = ['r', 'e'] ++ '#' :: rest := by
        rw [← hre, ← hrest, List.cons_append, List.takeWhile_append_dropWhile]
      exact hregexp (List.isPrefixOf_iff_prefix.2 ⟨rest, hsplit.symm⟩)
  | beestingClose h _ =>
    obtain ⟨rest, rfl⟩ := List.head?_eq_some_iff.1 h
    exact ⟨['}'], rest, rfl, rfl, .beestingClose⟩
  | mark hun _ hm =>
    have hprefix := List.find?_some hm
    obtain ⟨rest, rfl⟩ := List.isPrefixOf_iff_prefix.1 hprefix
    exact ⟨_, rest, rfl, rfl, .raw (longestOf_of_find? hm) hun⟩
  | unknown hun hm =>
    obtain ⟨c, rest, rfl⟩ := List.exists_cons_of_ne_nil hcs
    refine ⟨[c], rest, rfl, rfl, .unknown ?_ hun⟩
    rintro ⟨m, hmem, hprefix⟩
    exact List.find?_eq_none.1 hm m hmem (List.isPrefixOf_iff_prefix.2 hprefix)

/-- The lexeme that template text starts with is one of its kind. -/
theorem scanTemplate_lexeme {cs : List Char} (hcs : cs ≠ []) :
    ∃ text rest, cs = text ++ rest ∧ text.length = (scanTemplate cs).2 ∧
      Lexeme rest .template (scanTemplate cs).1 text := by
  unfold scanTemplate
  split
  · next kind hmark =>
    unfold templateMark? at hmark
    split at hmark
    · next hprefix =>
      cases hmark
      obtain ⟨rest, rfl⟩ := List.isPrefixOf_iff_prefix.1 hprefix
      exact ⟨['#', '{'], rest, rfl, rfl, .beestingOpen⟩
    split at hmark
    · next hprefix =>
      cases hmark
      obtain ⟨rest, rfl⟩ := List.isPrefixOf_iff_prefix.1 hprefix
      exact ⟨['>', '>'], rest, rfl, rfl, .chevronClose⟩
    · cases hmark
  · next hmark =>
    have hnot : ¬ StartsWith templateMarks cs := by
      rw [← isSome_templateMark?, hmark]
      simp
    rcases templateLength_cases 0 cs with ⟨us, rest, rfl, hlen, hus, hstop⟩ | ⟨hopen, hlen⟩
    · have hne : us ≠ [] := by
        rintro rfl
        exact hnot hstop
      have hrest := ne_nil_of_startsWith hstop
      rw [hlen, Nat.zero_add]
      dsimp only
      rw [List.drop_left, if_neg (by simpa using hrest)]
      exact ⟨us, rest, rfl, rfl, .chevronString hne hus hstop⟩
    · rw [hlen, Nat.zero_add]
      dsimp only
      rw [List.drop_length, List.isEmpty_nil, if_pos rfl]
      exact ⟨cs, [], (List.append_nil _).symm, rfl, .openText hcs hopen rfl⟩

/-- A token is a lexeme of its kind, in front of the text that is left behind it. -/
theorem Config.token_lexeme {c : Config} (h : c.rest ≠ []) :
    Lexeme c.next.rest c.state.mode c.token.kind c.token.text := by
  obtain ⟨text, rest, hsplit, hlen, hlexeme⟩ : ∃ text rest, c.rest = text ++ rest ∧
      text.length = (scan c.state c.rest).2 ∧ Lexeme rest c.state.mode c.token.kind text := by
    rw [token_kind]
    unfold scan
    cases c.state.mode with
    | code => exact (scanCode_rule c.state.braces c.rest).lexeme h
    | template => exact scanTemplate_lexeme h
  have htext : c.token.text = text ∧ c.next.rest = rest := by
    refine List.append_inj ?_ ?_
    · rw [token_text_append h, hsplit]
    · rw [length_token_text h, hlen]
  rw [htext.1, htext.2]
  exact hlexeme

/-! ## The tokens of a source -/

/-- What is read behind these tokens: template text where it has been started, and up to its
mark. -/
def modeBehind (ts : List Token) : Mode :=
  match ts.getLast? with
  | some t => if t.kind.opensText ∨ t.kind = .chevronString then .template else .code
  | none => .code

/-- The last token tells in which mode the next one is found. -/
theorem Config.mode_next {c : Config} (hc : c.rest ≠ []) (hnext : c.next.rest ≠ []) :
    c.next.state.mode =
      if c.token.kind.opensText ∨ c.token.kind = .chevronString then .template else .code := by
  cases hmode : c.state.mode with
  | code =>
    have hnot := ((code_rule hmode hc).not_template).1
    have hiff := mode_next_of_code hmode
    split
    · next h => exact hiff.2 (h.resolve_right hnot)
    · next h =>
      cases hm : c.next.state.mode with
      | code => rfl
      | template => exact absurd (.inl (hiff.1 hm)) h
  | template =>
    rcases template_step hmode hc with ⟨hends, hcode⟩ | ⟨-, -, hnil⟩ | ⟨hk, -, htemplate, -⟩
    · rw [hcode]
      generalize c.token.kind = kind at hends
      cases kind <;> simp_all [Kind.endsText, Kind.opensText]
    · exact absurd hnil hnext
    · rw [htemplate, if_pos (.inr hk)]

namespace Steps

variable {source : List Char} {ts : List Token} {c : Config}

theorem mode_eq (h : Steps (.initial source) ts c) :
    c.rest ≠ [] → c.state.mode = modeBehind ts := by
  refine h.invariant (P := fun ts c => c.rest ≠ [] → c.state.mode = modeBehind ts)
    (fun _ => rfl) ?_
  intro us d _ hd hnext
  rw [Config.mode_next hd hnext, modeBehind, List.getLast?_concat]

theorem rest_eq_drop (h : Steps (.initial source) ts c) : c.rest = source.drop c.offset :=
  h.invariant (P := fun _ c => c.rest = source.drop c.offset) rfl fun _ _ hd hne =>
    Config.next_rest_eq_drop hne hd

end Steps

/-- The source is the texts of the tokens, and each of them is a lexeme of its kind, in the mode
that the tokens in front of it set and in front of what stands behind it in the source. -/
structure Lexemes (source : List Char) (tokens : List Token) : Prop where
  flatMap_text : tokens.flatMap Token.text = source
  lexeme : ∀ ts t us, tokens = ts ++ t :: us →
    Lexeme (source.drop t.stop) (modeBehind ts) t.kind t.text

/-- Every source is cut into lexemes, each as long as the source lets it be. -/
theorem lexAll_lexemes (source : String) : Lexemes source.toList (lexAll source) := by
  obtain ⟨d, hsteps, hd⟩ := steps_lexAll source
  refine ⟨hsteps.flatMap_text hd, ?_⟩
  intro ts t us heq
  rw [heq] at hsteps
  obtain ⟨c, hfront, hbehind⟩ := hsteps.split
  obtain ⟨hne, rfl, -⟩ := hbehind.of_cons
  have hlexeme := Config.token_lexeme hne
  rw [Config.next_rest_eq_drop hne hfront.rest_eq_drop, hfront.mode_eq hne] at hlexeme
  exact hlexeme

end Krl.Lexer
