import Krl.Proofs.Lexer.Grammar
import Mathlib.Data.List.Basic

/-!
# Lexemes are recognised

The grammar of lexemes determines the lexer: where a lexeme of the present mode stands in front of
text that does not make it longer, it is the one that is found. So the tokens in front of a place
depend on what stands behind it only as far as the grammar says.

* `Lexeme.scan_append`: a lexeme is found wherever it stands.
* `Covers.lexeme`: a lexeme is one in front of any text that has no more at its start, but for
  template text, which ends in front of a mark. So it does not matter what is cut off behind a
  lexeme (`covers_of_isPrefix`), or what stands behind space (`covers_of_space`).
-/

set_option autoImplicit false

namespace Krl.Lexer

open Token (Kind)

/-! ## Text in units -/

section
variable {q : Char} {us rest : List Char}

theorem closing?_cons {c : Char} (hc : c ≠ '\\') (n : Nat) (cs : List Char) :
    closing? q n (c :: cs) = if c = q then some (n + 1) else closing? q (n + 1) cs := by
  rw [closing?]
  · rintro rfl
    exact absurd rfl hc
  · rintro d ds rfl
    exact absurd rfl hc

theorem templateLength_cons {c : Char} (hc : c ≠ '\\') (n : Nat) (cs : List Char) :
    templateLength n (c :: cs) =
      if (templateMark? (c :: cs)).isSome then n else templateLength (n + 1) cs := by
  rw [templateLength]
  · rintro rfl
    exact absurd rfl hc
  · rintro d ds rfl
    exact absurd rfl hc

/-- Units are passed over. -/
theorem closing?_units (h : Units [[q]] rest us) (n : Nat) (tail : List Char) :
    closing? q n (us ++ tail) = closing? q (n + us.length) tail := by
  induction h generalizing n with
  | nil => rfl
  | @plain c us hc hstop _ ih =>
    rw [List.cons_append, closing?_cons hc, if_neg (mt startsWith_singleton.2 hstop), ih,
      List.length_cons, Nat.add_right_comm, Nat.add_assoc]
  | @escape c us _ ih =>
    rw [List.cons_append, List.cons_append, closing?, ih, List.length_cons, List.length_cons]
    congr 1
    omega

theorem closing?_append (hq : q ≠ '\\') (h : Units [[q]] rest us) (n : Nat) (tail : List Char) :
    closing? q n (us ++ q :: tail) = some (n + us.length + 1) := by
  rw [closing?_units h, closing?_cons hq, if_pos rfl]

theorem Unclosed.closing? {text : List Char} (h : Unclosed [[q]] text) (n : Nat) :
    closing? q n text = none := by
  cases h with
  | whole hus =>
    have hpass := closing?_units hus n []
    rwa [List.append_nil, Lexer.closing?] at hpass
  | dangling hus => rw [closing?_units hus, Lexer.closing?]

theorem templateLength_units (h : Units templateMarks rest us) (n : Nat) :
    templateLength n (us ++ rest) = templateLength (n + us.length) rest := by
  induction h generalizing n with
  | nil => rfl
  | @plain c us hc hstop _ ih =>
    rw [List.cons_append, templateLength_cons hc, if_neg (mt isSome_templateMark?.1 hstop), ih,
      List.length_cons, Nat.add_right_comm, Nat.add_assoc]
  | @escape c us _ ih =>
    rw [List.cons_append, List.cons_append, templateLength, ih, List.length_cons, List.length_cons]
    congr 1
    omega

theorem templateLength_of_startsWith (h : StartsWith templateMarks rest) (n : Nat) :
    templateLength n rest = n := by
  have hmark := isSome_templateMark?.2 h
  obtain ⟨m, hm, tail, rfl⟩ := h
  simp only [templateMarks, List.mem_cons, List.not_mem_nil, or_false] at hm
  rcases hm with rfl | rfl
  · exact (templateLength_cons (by decide) n _).trans (if_pos hmark)
  · exact (templateLength_cons (by decide) n _).trans (if_pos hmark)

theorem Unclosed.templateLength {text : List Char} (h : Unclosed templateMarks text) (n : Nat) :
    templateLength n text = n + text.length := by
  cases h with
  | whole hus =>
    have hpass := templateLength_units hus n
    rwa [List.append_nil, Lexer.templateLength] at hpass
  | dangling hus =>
    rw [templateLength_units hus, Lexer.templateLength, List.length_append]
    rfl

end

/-! ## Comments -/

theorem LineComment.lineCommentLength {rest text : List Char} (h : LineComment rest text) :
    lineCommentLength (text ++ rest) = text.length := by
  cases h with
  | @ended body c hbody hc =>
    have hrun : MaximalRun inLine (c :: rest) body := by
      refine ⟨fun d hd => inLine_iff.2 (hbody d hd), ?_⟩
      rcases hc with rfl | rfl <;> simp [inLine]
    have hlen := lineCommentLength_append hrun
    rw [if_neg (List.cons_ne_nil c rest)] at hlen
    simpa using hlen
  | @last body hbody hrest =>
    subst hrest
    have hrun : MaximalRun inLine [] body := ⟨fun d hd => inLine_iff.2 (hbody d hd), by simp⟩
    have hlen := lineCommentLength_append hrun
    rw [if_pos rfl] at hlen
    simpa using hlen

theorem BlockComment.commentEnd? {text : List Char} (h : BlockComment text) (rest : List Char) :
    commentEnd? 2 ((text ++ rest).drop 2) = some text.length := by
  obtain ⟨⟨tail, rfl⟩, hlen, hcloses⟩ := h
  replace hlen : 2 ≤ tail.length := by
    simp only [List.length_append, List.length_cons, List.length_nil] at hlen
    omega
  replace hcloses : ∀ i, ['*', '/'] <+: tail.drop i ↔ i + 2 = tail.length := by
    intro i
    have hi := hcloses (i + 2) (Nat.le_add_left 2 i)
    simp only [List.length_append, List.length_cons, List.length_nil] at hi
    rw [show (['/', '*'] ++ tail).drop (i + 2) = tail.drop i from rfl] at hi
    rw [hi]
    omega
  show Lexer.commentEnd? 2 (tail ++ rest) = _
  refine commentEnd?_eq_some_iff.2 ⟨tail.length - 2, ?_, ?_, ?_⟩
  · simp only [List.length_append, List.length_cons, List.length_nil]
    omega
  · have hend := (hcloses (tail.length - 2)).2 (by omega)
    rw [List.drop_append_of_le_length (by omega)]
    exact hend.trans (List.prefix_append _ _)
  · intro j hj hstarts
    rw [List.drop_append_of_le_length (by omega)] at hstarts
    have hfits : ['*', '/'].length ≤ (tail.drop j).length := by
      simp only [List.length_cons, List.length_nil, List.length_drop]
      omega
    have := (hcloses j).1
      (List.prefix_of_prefix_length_le hstarts (List.prefix_append _ _) hfits)
    omega

theorem OpenComment.commentEnd? {text : List Char} (h : OpenComment text) :
    commentEnd? 2 (text.drop 2) = none := by
  refine commentEnd?_eq_none_iff.2 fun i => ?_
  rw [List.drop_drop]
  exact h.unclosed (2 + i) (Nat.le_add_right 2 i)

/-! ## Numbers and choices -/

theorem Number.numberLength {rest text : List Char} (h : Number rest text) :
    numberLength (text ++ rest) = text.length := by
  cases h with
  | whole _ hds hpoint => rw [numberLength_append hds, if_neg hpoint]
  | @fraction ds fs hds hfs hrun =>
    have hwhole : MaximalRun Char.isDigit ('.' :: (fs ++ rest)) ds := ⟨hds, by simp⟩
    have hdigit : startsWithDigit (fs ++ rest) := by
      obtain ⟨f, fs, rfl⟩ := List.exists_cons_of_ne_nil hfs
      simpa [startsWithDigit] using hrun.all f List.mem_cons_self
    rw [List.append_assoc, List.cons_append, numberLength_append hwhole, if_pos ⟨rfl, hdigit⟩,
      List.tail_cons, hrun.runLength_append, List.length_append, List.length_cons]
    omega

/-- Of two longest choices in front of one another's rest, neither is longer. -/
theorem LongestOf.unique {choices : List (List Char)} {text other rest behind : List Char}
    (h : LongestOf choices rest text) (h' : LongestOf choices behind other)
    (heq : text ++ rest = other ++ behind) : text = other := by
  have hle : text.length ≤ other.length := h'.longest text h.mem (heq ▸ List.prefix_append _ _)
  have hge : other.length ≤ text.length := h.longest other h'.mem (heq ▸ List.prefix_append _ _)
  exact (List.append_inj heq (Nat.le_antisymm hle hge)).1

theorem LongestOf.flagsLength {rest flags : List Char} (h : LongestOf flagSets rest flags) :
    flagsLength (flags ++ rest) = flags.length := by
  obtain ⟨other, behind, hsplit, hlen, hother⟩ := flags_split (flags ++ rest)
  rw [← hlen, h.unique hother hsplit]

theorem LongestOf.find? {rest mark : List Char} (h : LongestOf marks rest mark) :
    marks.find? (·.isPrefixOf (mark ++ rest)) = some mark := by
  have hstarts : mark.isPrefixOf (mark ++ rest) :=
    List.isPrefixOf_iff_prefix.2 (List.prefix_append _ _)
  cases hfound : marks.find? (·.isPrefixOf (mark ++ rest)) with
  | none => exact absurd hstarts (List.find?_eq_none.1 hfound mark h.mem)
  | some other =>
    have hother := List.find?_some hfound
    obtain ⟨behind, hbehind⟩ := List.isPrefixOf_iff_prefix.1 hother
    rw [← hbehind] at hfound
    rw [h.unique (longestOf_of_find? hfound) hbehind.symm]

/-! ## Where code starts with a lexeme -/

theorem toNat_of_isDigit {c : Char} (h : c.isDigit) : 48 ≤ c.toNat ∧ c.toNat ≤ 57 := by
  simp only [Char.isDigit, ge_iff_le, Bool.and_eq_true, decide_eq_true_eq,
    UInt32.le_iff_toNat_le] at h
  exact h

/-- Letters, `_` and `$` by their numbers. -/
theorem toNat_of_isIdentifierStart {c : Char} (h : isIdentifierStart c) :
    65 ≤ c.toNat ∧ c.toNat ≤ 122 ∨ c.toNat = 36 := by
  unfold isIdentifierStart Char.isAlpha Char.isUpper Char.isLower at h
  simp only [ge_iff_le, Bool.or_eq_true, Bool.and_eq_true, decide_eq_true_eq,
    UInt32.le_iff_toNat_le] at h
  rcases h with ((h | h) | rfl) | rfl
  · exact .inl ⟨h.1, Nat.le_trans h.2 (by decide)⟩
  · exact .inl ⟨Nat.le_trans (by decide) h.1, h.2⟩
  · exact .inl (by decide)
  · exact .inr rfl

/-- No visible ASCII character is space. -/
theorem not_isSpace_of_toNat {c : Char} (h : 33 ≤ c.toNat ∧ c.toNat ≤ 126) :
    isSpace c = false := by
  have hmark : c ≠ '\uFEFF' := by
    rintro rfl
    exact absurd h (by decide)
  simp [isSpace, Text.isBlank_eq_false_of_visible h, hmark]

section
variable {braces : List Nat} {cs : List Char}

theorem scanCode_lineComment : scanCode braces ('/' :: '/' :: cs) =
    (.lineComment, lineCommentLength ('/' :: '/' :: cs)) := by
  have hspace : isSpace '/' = false := by decide
  simp [scanCode, hspace]

theorem scanCode_blockComment : scanCode braces ('/' :: '*' :: cs) =
    closed .blockComment ('/' :: '*' :: cs) (commentEnd? 2 cs) := by
  have hspace : isSpace '/' = false := by decide
  simp [scanCode, hspace]

theorem scanCode_digit {c : Char} (h : c.isDigit) :
    scanCode braces (c :: cs) = (.number, numberLength (c :: cs)) := by
  have hnum := toNat_of_isDigit h
  have hspace : isSpace c = false := not_isSpace_of_toNat (by omega)
  have hslash : '/' ≠ c := by
    rintro rfl
    exact absurd h (by decide)
  simp [scanCode, startsWithDigit, hspace, hslash, h]

theorem scanCode_point (h : startsWithDigit cs) :
    scanCode braces ('.' :: cs) = (.number, numberLength ('.' :: cs)) := by
  have hspace : isSpace '.' = false := by decide
  have hpoint : startsWithDigit ('.' :: cs) = false := rfl
  simp [scanCode, hspace, hpoint, h]

theorem scanCode_quote : scanCode braces ('"' :: cs) =
    closed .string ('"' :: cs) (closing? '"' 1 cs) := by
  have hspace : isSpace '"' = false := by decide
  simp [scanCode, startsWithDigit, hspace]

theorem scanCode_regexp : scanCode braces ('r' :: 'e' :: '#' :: cs) =
    closed .regexp ('r' :: 'e' :: '#' :: cs) ((closing? '#' 3 cs).map fun n =>
      n + flagsLength (('r' :: 'e' :: '#' :: cs).drop n)) := by
  have hspace : isSpace 'r' = false := by decide
  simp [scanCode, startsWithDigit, hspace]

theorem scanCode_chevron : scanCode braces ('<' :: '<' :: cs) = (.chevronOpen, 2) := by
  have hspace : isSpace '<' = false := by decide
  simp [scanCode, startsWithDigit, hspace]

theorem scanCode_identifier {c : Char} (h : isIdentifierStart c)
    (hregexp : ¬ ['r', 'e', '#'].isPrefixOf (c :: cs)) :
    scanCode braces (c :: cs) = (.symbol, runLength isIdentifierPart (c :: cs)) := by
  have hnum := toNat_of_isIdentifierStart h
  have hspace : isSpace c = false := not_isSpace_of_toNat (by omega)
  have hdigit : c.isDigit = false := by
    rw [Bool.eq_false_iff]
    intro hd
    have := toNat_of_isDigit hd
    omega
  have hother : '/' ≠ c ∧ c ≠ '.' ∧ c ≠ '"' ∧ '<' ≠ c := by
    refine ⟨?_, ?_, ?_, ?_⟩ <;> rintro rfl <;> exact absurd h (by decide)
  simp [scanCode, startsWithDigit, hspace, hdigit, hregexp, h, hother]

theorem scanCode_brace (h : braces.head? = some 0) :
    scanCode braces ('}' :: cs) = (.beestingClose, 1) := by
  have hspace : isSpace '}' = false := by decide
  have hstart : isIdentifierStart '}' = false := by decide
  simp [scanCode, startsWithDigit, hspace, hstart, h]

theorem scanCode_mark {mark : List Char} (h : Unclaimed cs)
    (hbrace : ¬ (cs.head? = some '}' ∧ braces.head? = some 0))
    (hmark : marks.find? (·.isPrefixOf cs) = some mark) :
    scanCode braces cs = (.raw, mark.length) := by
  rw [scanCode, if_neg h.space, if_neg h.lineComment, if_neg h.blockComment, if_neg h.digit,
    if_neg h.point, if_neg h.quote, if_neg h.regexp, if_neg h.chevron, if_neg h.identifier,
    if_neg hbrace, hmark]

theorem scanCode_unknown (h : Unclaimed cs)
    (hbrace : ¬ (cs.head? = some '}' ∧ braces.head? = some 0))
    (hmark : marks.find? (·.isPrefixOf cs) = none) :
    scanCode braces cs = (.illegal, 1) := by
  rw [scanCode, if_neg h.space, if_neg h.lineComment, if_neg h.blockComment, if_neg h.digit,
    if_neg h.point, if_neg h.quote, if_neg h.regexp, if_neg h.chevron, if_neg h.identifier,
    if_neg hbrace, hmark]

end

/-! ## Recognition -/

theorem head?_of_mark {mark : List Char} (h : mark ∈ marks) :
    mark ≠ [] ∧ (mark.head? = some '}' → mark = ['}']) := by
  have hall : ∀ mark ∈ marks, mark ≠ [] ∧ (mark.head? = some '}' → mark = ['}']) := by decide
  exact hall mark h

theorem not_startsWith_backslash (cs : List Char) : ¬ StartsWith templateMarks ('\\' :: cs) := by
  simp [StartsWith, templateMarks, List.cons_prefix_cons]

theorem Units.not_startsWith {us rest : List Char} (h : Units templateMarks rest us)
    (hne : us ≠ []) : ¬ StartsWith templateMarks (us ++ rest) := by
  cases h with
  | nil => exact absurd rfl hne
  | plain _ hstop _ => exact hstop
  | escape => exact not_startsWith_backslash _

theorem Unclosed.not_startsWith {text : List Char} (h : Unclosed templateMarks text)
    (hne : text ≠ []) : ¬ StartsWith templateMarks text := by
  cases h with
  | whole hus =>
    have := hus.not_startsWith hne
    rwa [List.append_nil] at this
  | @dangling us hus =>
    cases us with
    | nil => exact not_startsWith_backslash []
    | cons c cs => exact hus.not_startsWith (List.cons_ne_nil c cs)

theorem templateMark?_eq_none {cs : List Char} (h : ¬ StartsWith templateMarks cs) :
    templateMark? cs = none := by
  rw [← isSome_templateMark?] at h
  simpa using h

theorem Number.scanCode_append {rest text : List Char} (h : Number rest text) (braces : List Nat) :
    scanCode braces (text ++ rest) = (.number, text.length) := by
  have hlen := h.numberLength
  have hdigits : ∀ c cs, text = c :: cs → c.isDigit →
      scanCode braces (text ++ rest) = (.number, text.length) := by
    rintro c cs rfl hc
    rw [List.cons_append] at hlen ⊢
    rw [scanCode_digit hc, hlen]
  cases h with
  | whole hne hrun _ =>
    obtain ⟨c, cs, rfl⟩ := List.exists_cons_of_ne_nil hne
    exact hdigits c cs rfl (hrun.all c List.mem_cons_self)
  | @fraction ds fs hds hne hrun =>
    cases ds with
    | nil =>
      obtain ⟨f, fs, rfl⟩ := List.exists_cons_of_ne_nil hne
      have hdigit : startsWithDigit (f :: (fs ++ rest)) := hrun.all f List.mem_cons_self
      exact (scanCode_point hdigit).trans (congrArg _ hlen)
    | cons c cs => exact hdigits c (cs ++ '.' :: fs) rfl (hds c List.mem_cons_self)

/-- No regular expression starts with an identifier that is not `re` in front of its mark. -/
theorem not_regexp_of_symbol {c : Char} {cs rest : List Char}
    (hrun : MaximalRun isIdentifierPart rest cs)
    (hre : ¬ (c :: cs = ['r', 'e'] ∧ rest.head? = some '#')) :
    ¬ ['r', 'e', '#'].isPrefixOf (c :: (cs ++ rest)) := by
  intro h
  obtain ⟨tail, htail⟩ := List.isPrefixOf_iff_prefix.1 h
  simp only [List.cons_append, List.nil_append, List.cons.injEq] at htail
  obtain ⟨rfl, htail⟩ := htail
  match cs, hrun, hre, htail with
  | [], hrun, _, htail =>
    refine hrun.stops ?_
    rw [← List.nil_append rest, ← htail]
    show isIdentifierPart 'e' = true
    decide
  | [d], _, hre, htail =>
    simp only [List.cons_append, List.nil_append, List.cons.injEq] at htail
    obtain ⟨rfl, rfl⟩ := htail
    exact hre ⟨rfl, rfl⟩
  | d :: e :: ds, hrun, _, htail =>
    simp only [List.cons_append, List.cons.injEq] at htail
    obtain ⟨-, rfl, -⟩ := htail
    exact absurd (hrun.all '#' (by simp)) (by decide)

namespace Lexeme

variable {rest text : List Char} {kind : Kind}

theorem scanCode_append {braces : List Nat} (h : Lexeme rest .code kind text)
    (hclose : kind = .beestingClose → braces.head? = some 0)
    (hmark : kind = .raw → text = ['}'] → braces.head? ≠ some 0) :
    scanCode braces (text ++ rest) = (kind, text.length) := by
  cases h with
  | whitespace hne hrun =>
    have hspace : (text ++ rest).head?.any isSpace := by
      obtain ⟨c, cs, rfl⟩ := List.exists_cons_of_ne_nil hne
      exact hrun.all c List.mem_cons_self
    rw [scanCode, if_pos hspace, hrun.runLength_append]
  | lineComment hcomment =>
    have hlen := hcomment.lineCommentLength
    obtain ⟨tail, rfl⟩ : ∃ tail, text = '/' :: '/' :: tail := by
      cases hcomment with
      | ended => exact ⟨_, rfl⟩
      | last => exact ⟨_, rfl⟩
    rw [List.cons_append, List.cons_append] at hlen ⊢
    rw [scanCode_lineComment, hlen]
  | blockComment hcomment =>
    have hlen := hcomment.commentEnd? rest
    obtain ⟨tail, rfl⟩ := hcomment.opens
    exact scanCode_blockComment.trans (congrArg _ hlen)
  | number hnumber => exact hnumber.scanCode_append braces
  | @string us hus =>
    have hlen := closing?_append (by decide) hus 1 rest
    rw [List.cons_append, List.append_assoc]
    refine scanCode_quote.trans ?_
    rw [List.singleton_append, hlen]
    simp only [closed, List.length_cons, List.length_append, List.length_nil, Prod.mk.injEq,
      true_and]
    omega
  | @regexp us flags hus hflags =>
    have hlen := closing?_append (by decide) hus 3 (flags ++ rest)
    have hsplit : 'r' :: 'e' :: '#' :: (us ++ '#' :: flags) ++ rest =
        'r' :: 'e' :: '#' :: (us ++ '#' :: (flags ++ rest)) := by
      simp
    rw [hsplit, scanCode_regexp, hlen, Option.map_some, drop_regexp, hflags.flagsLength]
    simp only [closed, List.length_cons, List.length_append, Prod.mk.injEq, true_and]
    omega
  | @symbol c cs hc hrun hre =>
    have hlen : runLength isIdentifierPart (c :: (cs ++ rest)) = (c :: cs).length := by
      rw [runLength_cons_of_pos (isIdentifierPart_of_start hc), hrun.takeWhile_append]
    refine (scanCode_identifier hc ?_).trans (congrArg _ hlen)
    exact not_regexp_of_symbol hrun hre
  | chevronOpen => exact scanCode_chevron
  | beestingClose => exact scanCode_brace (hclose rfl)
  | raw hlongest hun =>
    refine scanCode_mark hun ?_ hlongest.find?
    obtain ⟨hne, hbrace⟩ := head?_of_mark hlongest.mem
    rintro ⟨hhead, hbraces⟩
    rw [List.head?_append_of_ne_nil _ hne] at hhead
    exact hmark rfl (hbrace hhead) hbraces
  | @unknown c hnone hun =>
    refine scanCode_unknown hun ?_ ?_
    · rintro ⟨hhead, -⟩
      cases hhead
      exact hnone ⟨['}'], by decide, rest, rfl⟩
    · rw [List.find?_eq_none]
      intro m hm hstarts
      exact hnone ⟨m, hm, List.isPrefixOf_iff_prefix.1 hstarts⟩
  | openComment hcomment hrest =>
    have hlen := hcomment.commentEnd?
    obtain ⟨tail, rfl⟩ := hcomment.opens
    subst hrest
    rw [List.append_nil]
    exact scanCode_blockComment.trans (congrArg _ hlen)
  | openString hopen hrest =>
    subst hrest
    rw [List.append_nil, scanCode_quote, hopen.closing?]
    rfl
  | openRegexp hopen hrest =>
    subst hrest
    rw [List.append_nil, scanCode_regexp, hopen.closing?]
    rfl

theorem scanTemplate_append (h : Lexeme rest .template kind text) :
    scanTemplate (text ++ rest) = (kind, text.length) := by
  cases h with
  | chevronString hne hus hstop =>
    have hnone := templateMark?_eq_none (hus.not_startsWith hne)
    have hlen : templateLength 0 (text ++ rest) = text.length := by
      rw [templateLength_units hus, templateLength_of_startsWith hstop, Nat.zero_add]
    simp [scanTemplate, hnone, hlen, ne_nil_of_startsWith hstop]
  | beestingOpen => rfl
  | chevronClose => rfl
  | openText hne hopen hrest =>
    subst hrest
    have hnone := templateMark?_eq_none (hopen.not_startsWith hne)
    have hlen : templateLength 0 text = text.length := by
      rw [hopen.templateLength, Nat.zero_add]
    rw [List.append_nil]
    simp [scanTemplate, hnone, hlen]

/-- A lexeme of the present mode is found wherever it stands. A closing brace closes an
interpolation exactly if no brace is open in it. -/
theorem scan_append {st : State} (h : Lexeme rest st.mode kind text)
    (hclose : kind = .beestingClose → st.braces.head? = some 0)
    (hmark : kind = .raw → text = ['}'] → st.braces.head? ≠ some 0) :
    scan st (text ++ rest) = (kind, text.length) := by
  unfold scan
  cases hmode : st.mode with
  | code => exact (hmode ▸ h).scanCode_append hclose hmark
  | template => exact (hmode ▸ h).scanTemplate_append

end Lexeme

/-! ## Other text behind -/

/-- No character of the text is space. -/
def Visible (text : List Char) : Prop := ∀ c ∈ text, ¬ isSpace c

-- over the text, not over all characters
instance (text : List Char) : Decidable (Visible text) :=
  List.decidableBAll (fun c => ¬ isSpace c) text

theorem visible_of_mem_marks : ∀ m ∈ marks, Visible m := by decide

theorem visible_of_mem_templateMarks : ∀ m ∈ templateMarks, Visible m := by decide

theorem visible_of_mem_flagSets : ∀ flags ∈ flagSets, Visible flags := by decide

theorem not_isSpace_of_isDigit {c : Char} (h : c.isDigit) : ¬ isSpace c := by
  have := toNat_of_isDigit h
  rw [not_isSpace_of_toNat (by omega)]
  decide

theorem not_isSpace_of_isIdentifierStart {c : Char} (h : isIdentifierStart c) : ¬ isSpace c := by
  have := toNat_of_isIdentifierStart h
  rw [not_isSpace_of_toNat (by omega)]
  decide

theorem not_isSpace_of_isIdentifierPart {c : Char} (h : isIdentifierPart c) : ¬ isSpace c := by
  by_cases hstart : isIdentifierStart c
  · exact not_isSpace_of_isIdentifierStart hstart
  · refine not_isSpace_of_isDigit ?_
    simp only [isIdentifierPart, isIdentifierStart, Char.isAlphanum, Bool.or_eq_true] at h hstart
    tauto

/-- What a lexeme may not have behind it, `front` has at its start only if `rest` has: text without
space, a space, or anything at all. -/
structure Covers (rest front : List Char) : Prop where
  starts : ∀ m, Visible m → m <+: front → m <+: rest
  space : front.head?.any isSpace → rest.head?.any isSpace
  ends : rest = [] → front = []

/-- Less text has no more at its start. -/
theorem covers_of_isPrefix {rest front : List Char} (h : front <+: rest) : Covers rest front := by
  refine ⟨fun m _ hm => hm.trans h, fun hspace => ?_, fun hnil => ?_⟩
  · obtain ⟨tail, rfl⟩ := h
    cases front with
    | nil => cases hspace
    | cons c cs => exact hspace
  · subst hnil
    exact List.prefix_nil.1 h

/-- Of texts that start with space, each has no more at its start than the other. -/
theorem covers_of_space {rest front : List Char} (hrest : rest.head?.any isSpace)
    (hfront : front.head?.any isSpace) : Covers rest front := by
  refine ⟨fun m hvisible hm => ?_, fun _ => hrest, ?_⟩
  · cases m with
    | nil => exact List.nil_prefix
    | cons c m =>
      obtain ⟨tail, rfl⟩ := hm
      exact absurd hfront (hvisible c List.mem_cons_self)
  · rintro rfl
    cases hrest

namespace Covers

variable {rest front : List Char} (hcovers : Covers rest front)
include hcovers

theorem append (text : List Char) : Covers (text ++ rest) (text ++ front) := by
  induction text with
  | nil => exact hcovers
  | cons c text ih =>
    refine ⟨fun m hvisible hm => ?_, id, fun h => nomatch h⟩
    cases m with
    | nil => exact List.nil_prefix
    | cons d m =>
      obtain ⟨rfl, htail⟩ := List.cons_prefix_cons.1 hm
      refine List.cons_prefix_cons.2 ⟨rfl, ih.starts m ?_ htail⟩
      exact fun c hc => hvisible c (List.mem_cons_of_mem _ hc)

theorem isPrefixOf {m : List Char} (hvisible : Visible m) (h : m.isPrefixOf front) :
    m.isPrefixOf rest :=
  List.isPrefixOf_iff_prefix.2 (hcovers.starts m hvisible (List.isPrefixOf_iff_prefix.1 h))

theorem head? {c : Char} (hc : ¬ isSpace c) (h : front.head? = some c) : rest.head? = some c := by
  obtain ⟨cs, rfl⟩ := List.head?_eq_some_iff.1 h
  have hvisible : Visible [c] := List.forall_mem_singleton.2 hc
  obtain ⟨tail, rfl⟩ := hcovers.starts [c] hvisible ⟨cs, rfl⟩
  rfl

theorem any_head? {p : Char → Bool} (hp : ∀ c, p c → ¬ isSpace c) (h : front.head?.any p) :
    rest.head?.any p := by
  cases hc : front.head? with
  | none => simp [hc] at h
  | some c =>
    rw [hc] at h
    rw [hcovers.head? (hp c h) hc]
    exact h

theorem fraction (h : front.head? = some '.' ∧ startsWithDigit front.tail) :
    rest.head? = some '.' ∧ startsWithDigit rest.tail := by
  obtain ⟨hhead, hdigit⟩ := h
  obtain ⟨cs, rfl⟩ := List.head?_eq_some_iff.1 hhead
  cases cs with
  | nil => cases hdigit
  | cons d cs =>
    have hvisible : Visible ['.', d] := by
      have hd := not_isSpace_of_isDigit hdigit
      simpa [Visible, hd] using (by decide : ¬ isSpace '.')
    obtain ⟨tail, rfl⟩ := hcovers.starts ['.', d] hvisible ⟨cs, rfl⟩
    exact ⟨rfl, hdigit⟩

theorem startsWith {ms : List (List Char)} (hms : ∀ m ∈ ms, Visible m) (h : StartsWith ms front) :
    StartsWith ms rest := by
  obtain ⟨m, hm, hstarts⟩ := h
  exact ⟨m, hm, hcovers.starts m (hms m hm) hstarts⟩

theorem unclaimed (h : Unclaimed rest) : Unclaimed front where
  space := mt hcovers.space h.space
  lineComment := mt (hcovers.isPrefixOf (by decide)) h.lineComment
  blockComment := mt (hcovers.isPrefixOf (by decide)) h.blockComment
  digit := mt (hcovers.any_head? fun _ => not_isSpace_of_isDigit) h.digit
  point := mt hcovers.fraction h.point
  quote := mt (hcovers.head? (by decide)) h.quote
  regexp := mt (hcovers.isPrefixOf (by decide)) h.regexp
  chevron := mt (hcovers.isPrefixOf (by decide)) h.chevron
  identifier := mt (hcovers.any_head? fun _ => not_isSpace_of_isIdentifierStart) h.identifier

theorem maximalRun {p : Char → Bool} {text : List Char} (hp : ∀ c, p c → ¬ isSpace c)
    (h : MaximalRun p rest text) : MaximalRun p front text :=
  ⟨h.all, mt (hcovers.any_head? hp) h.stops⟩

theorem longestOf {choices : List (List Char)} {text : List Char}
    (hchoices : ∀ m ∈ choices, Visible m) (h : LongestOf choices rest text) :
    LongestOf choices front text := by
  refine ⟨h.mem, fun other hother hstarts => ?_⟩
  exact h.longest other hother ((hcovers.append text).starts other (hchoices other hother) hstarts)

theorem units {ms : List (List Char)} {us : List Char} (hms : ∀ m ∈ ms, Visible m)
    (h : Units ms rest us) : Units ms front us := by
  induction h with
  | nil => exact .nil
  | @plain c us hc hstop _ ih =>
    exact .plain hc (mt ((hcovers.append (c :: us)).startsWith hms) hstop) ih
  | escape _ ih => exact .escape ih

/-- A lexeme is still one in front of text that has no more at its start; only what ends template
text has to stand there as well. -/
theorem lexeme {mode : Mode} {kind : Kind} {text : List Char} (h : Lexeme rest mode kind text)
    (htext : kind = .chevronString → StartsWith templateMarks front) :
    Lexeme front mode kind text := by
  cases h with
  | whitespace hne hrun => exact .whitespace hne ⟨hrun.all, mt hcovers.space hrun.stops⟩
  | lineComment hcomment =>
    cases hcomment with
    | ended hbody hc => exact .lineComment (.ended hbody hc)
    | last hbody hrest => exact .lineComment (.last hbody (hcovers.ends hrest))
  | blockComment hcomment => exact .blockComment hcomment
  | number hnumber =>
    have hdigit : ∀ c : Char, c.isDigit → ¬ isSpace c := fun _ => not_isSpace_of_isDigit
    cases hnumber with
    | whole hne hrun hpoint =>
      exact .number (.whole hne (hcovers.maximalRun hdigit hrun) (mt hcovers.fraction hpoint))
    | fraction hds hne hrun => exact .number (.fraction hds hne (hcovers.maximalRun hdigit hrun))
  | string hus => exact .string hus
  | regexp hus hflags => exact .regexp hus (hcovers.longestOf visible_of_mem_flagSets hflags)
  | symbol hc hrun hre =>
    refine .symbol hc (hcovers.maximalRun (fun _ => not_isSpace_of_isIdentifierPart) hrun) ?_
    exact fun h => hre ⟨h.1, hcovers.head? (by decide) h.2⟩
  | chevronOpen => exact .chevronOpen
  | beestingClose => exact .beestingClose
  | raw hlongest hun =>
    refine .raw (hcovers.longestOf visible_of_mem_marks hlongest) ?_
    exact (hcovers.append text).unclaimed hun
  | @unknown c hnone hun =>
    have hcons : Covers (c :: rest) (c :: front) := hcovers.append [c]
    exact .unknown (mt (hcons.startsWith visible_of_mem_marks) hnone) (hcons.unclaimed hun)
  | openComment hcomment hrest => exact .openComment hcomment (hcovers.ends hrest)
  | openString hopen hrest => exact .openString hopen (hcovers.ends hrest)
  | openRegexp hopen hrest => exact .openRegexp hopen (hcovers.ends hrest)
  | chevronString hne hus _ =>
    exact .chevronString hne (hcovers.units visible_of_mem_templateMarks hus) (htext rfl)
  | beestingOpen => exact .beestingOpen
  | chevronClose => exact .chevronClose
  | openText hne hopen hrest => exact .openText hne hopen (hcovers.ends hrest)

end Covers

end Krl.Lexer
