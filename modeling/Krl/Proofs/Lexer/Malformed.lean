import Krl.Proofs.Lexer.Partition
import Krl.Proofs.Lexer.Recognition

/-!
# Malformed input

What becomes of text that is no lexeme. An illegal token is a character that no rule begins with
(`Stray`), and then lexing goes on behind it, or something that is opened and not closed
(`Unterminated`), which is all that is left of the source. Text is not closed if the mark that would
close it stands nowhere but where its first character is escaped; where that is, is said place by
place (`escapedAt`), and an induction on the units of the text shows that a mark at a place that is
not escaped would have stopped the scanner (`Unclosed.unmarked`).

* `lexAll_contained`: an illegal token with anything behind it is one stray character, and a longer
  one is the last token and is not closed.
-/

set_option autoImplicit false

namespace Krl.Lexer

open Token (Kind)

/-! ## Escaped characters -/

/-- Is the character at a place of the text escaped? A backslash escapes the character behind it,
unless it is escaped itself. -/
def escapedAt (text : List Char) : Nat → Bool
  | 0 => false
  | i + 1 => decide (text[i]? = some '\\') && !escapedAt text i

/-- The marks stand in the text only where they are escaped. -/
def Unmarked (ms : List (List Char)) (text : List Char) : Prop :=
  ∀ i, StartsWith ms (text.drop i) → escapedAt text i

/-- Behind a character that is not escaped, it does not matter what stands in front of it. -/
theorem escapedAt_add {text : List Char} {k : Nat} (h : escapedAt text k = false) (i : Nat) :
    escapedAt text (i + k) = escapedAt (text.drop k) i := by
  induction i with
  | zero =>
    rw [Nat.zero_add]
    exact h
  | succ i ih =>
    rw [Nat.add_right_comm, escapedAt, escapedAt, ih, List.getElem?_drop, Nat.add_comm]

section
variable {ms : List (List Char)} (hms : ∀ cs, ¬ StartsWith ms ('\\' :: cs))
include hms

/-- In text in units, a mark stands only where it is escaped: elsewhere a unit starts. -/
theorem Units.escapedAt {us rest : List Char} (h : Units ms rest us) {i : Nat}
    (hi : i < us.length) (hmark : StartsWith ms ((us ++ rest).drop i)) :
    escapedAt (us ++ rest) i := by
  induction h generalizing i with
  | nil => exact absurd hi (Nat.not_lt_zero i)
  | @plain c us hc hstop _ ih =>
    cases i with
    | zero => exact absurd hmark hstop
    | succ i =>
      have hfirst : Lexer.escapedAt (c :: (us ++ rest)) 1 = false := by simp [Lexer.escapedAt, hc]
      rw [List.cons_append, escapedAt_add hfirst]
      exact ih (Nat.lt_of_succ_lt_succ hi) hmark
  | @escape c us _ ih =>
    match i with
    | 0 => exact absurd hmark (hms _)
    | 1 => rfl
    | i + 2 =>
      have hpair : Lexer.escapedAt ('\\' :: c :: (us ++ rest)) 2 = false := by
        simp [Lexer.escapedAt]
      rw [List.cons_append, List.cons_append, escapedAt_add hpair]
      exact ih (Nat.lt_of_succ_lt_succ (Nat.lt_of_succ_lt_succ hi)) hmark

theorem not_startsWith_nil : ¬ StartsWith ms [] := by
  rintro ⟨m, hm, hprefix⟩
  exact hms [] ⟨m, hm, hprefix.trans List.nil_prefix⟩

/-- Text that is not closed has no mark that is not escaped. -/
theorem Unclosed.unmarked {text : List Char} (h : Unclosed ms text) : Unmarked ms text := by
  intro i hmark
  cases h with
  | whole hus =>
    have hi : i < text.length := by
      by_contra hge
      rw [List.drop_eq_nil_of_le (by omega)] at hmark
      exact not_startsWith_nil hms hmark
    have hescaped := hus.escapedAt hms hi
    rw [List.append_nil] at hescaped
    exact hescaped hmark
  | @dangling us hus =>
    refine hus.escapedAt hms ?_ hmark
    -- no mark starts with the last backslash, or behind it
    by_contra hge
    rw [List.drop_append, List.drop_eq_nil_of_le (by omega), List.nil_append] at hmark
    cases hk : i - us.length with
    | zero =>
      rw [hk] at hmark
      exact hms [] hmark
    | succ k =>
      rw [hk, List.drop_succ_cons, List.drop_nil] at hmark
      exact not_startsWith_nil hms hmark

end

/-! ## Illegal tokens -/

/-- The text is one character, with which no rule begins: it is no space, digit, start of an
identifier or quote, and no mark stands at its place. -/
inductive Stray : List Char → List Char → Prop
  | intro {c : Char} {rest : List Char} : ¬ isSpace c → ¬ c.isDigit → ¬ isIdentifierStart c →
      c ≠ '"' → ¬ StartsWith marks (c :: rest) → Stray (c :: rest) [c]

/-- The text is opened, and not closed: a string, a regular expression or a comment, each with the
mark that opens it, or the text of a template, behind the token that starts it. -/
inductive Unterminated (before : List Token) : List Char → Prop
  | string {body : List Char} : modeBehind before = .code → Unmarked [['"']] body →
      Unterminated before ('"' :: body)
  | regexp {body : List Char} : modeBehind before = .code → Unmarked [['#']] body →
      Unterminated before ('r' :: 'e' :: '#' :: body)
  | comment {body : List Char} : modeBehind before = .code → (∀ i, ¬ ['*', '/'] <+: body.drop i) →
      Unterminated before ('/' :: '*' :: body)
  | template {text : List Char} : EndsOpen before → Unmarked templateMarks text →
      Unterminated before text

theorem Stray.length_eq {rest text : List Char} (h : Stray rest text) : text.length = 1 := by
  cases h
  rfl

theorem Unclaimed.stray {c : Char} {rest : List Char} (h : Unclaimed (c :: rest))
    (hmark : ¬ StartsWith marks (c :: rest)) : Stray (c :: rest) [c] := by
  refine .intro h.space h.digit h.identifier ?_ hmark
  rintro rfl
  exact h.quote rfl

theorem OpenComment.unmarked {text : List Char} (h : OpenComment text) :
    ∃ body, text = '/' :: '*' :: body ∧ ∀ i, ¬ ['*', '/'] <+: body.drop i := by
  obtain ⟨⟨body, rfl⟩, hunclosed⟩ := h
  refine ⟨body, rfl, fun i => ?_⟩
  have hi := hunclosed (i + 2) (Nat.le_add_left 2 i)
  exact hi

/-- An illegal token is a stray character, or something that is not closed and takes all that is
left. -/
theorem Steps.illegal_cases {source : List Char} {ts : List Token} {c : Config}
    (h : Steps (.initial source) ts c) (hc : c.rest ≠ []) (hk : c.token.kind = .illegal) :
    Stray c.rest c.token.text ∨ c.next.rest = [] ∧ Unterminated ts c.token.text := by
  have hlexeme := Config.token_lexeme hc
  have htext := Config.token_text_append hc
  have hmode := h.mode_eq hc
  have hfollows := h.follows.text
  rw [hk] at hlexeme
  generalize c.token.text = text at hlexeme htext ⊢
  rw [← htext] at hfollows ⊢
  have hquote : ∀ q, q ≠ '\\' → ∀ cs, ¬ StartsWith [[q]] ('\\' :: cs) :=
    fun q hq cs hmark => hq (startsWith_singleton.1 hmark).symm
  generalize hst : c.state.mode = mode at hlexeme
  cases hlexeme with
  | unknown hmark hun => exact .inl (hun.stray hmark)
  | openComment hcomment hrest =>
    obtain ⟨body, rfl, hbody⟩ := hcomment.unmarked
    exact .inr ⟨hrest, .comment (hmode.symm.trans hst) hbody⟩
  | openString hopen hrest =>
    exact .inr ⟨hrest, .string (hmode.symm.trans hst) (hopen.unmarked (hquote '"' (by decide)))⟩
  | openRegexp hopen hrest =>
    exact .inr ⟨hrest, .regexp (hmode.symm.trans hst) (hopen.unmarked (hquote '#' (by decide)))⟩
  | openText hne hopen hrest =>
    refine .inr ⟨hrest, .template ?_ (hopen.unmarked not_startsWith_backslash)⟩
    refine (hfollows hst (List.append_ne_nil_of_left_ne_nil hne _)).resolve_right ?_
    rintro ⟨-, hmark⟩
    rw [hrest, List.append_nil, isSome_templateMark?] at hmark
    exact hopen.not_startsWith hne hmark

theorem illegal_of_lexAll {source : String} {ts us : List Token} {t : Token}
    (heq : lexAll source = ts ++ t :: us) (hk : t.kind = .illegal) :
    Stray (source.toList.drop t.start) t.text ∨
      us = [] ∧ t.stop = source.toList.length ∧ Unterminated ts t.text := by
  obtain ⟨c, e, hfront, hc, rfl, hus, -⟩ := exists_config_of_lexAll heq
  obtain ⟨d, hsteps, hd⟩ := steps_lexAll source
  rw [Config.token_start, ← hfront.rest_eq_drop]
  refine (hfront.illegal_cases hc hk).imp_right fun ⟨hrest, hopen⟩ => ?_
  obtain rfl := hus.of_rest_nil hrest
  refine ⟨rfl, (hsteps.partition hd).stop_of_getLast? _ ?_, hopen⟩
  rw [heq, List.getLast?_concat]

/-- Malformed input does not spread. Wherever the tokens are cut in front of an illegal one:
* if anything stands behind it, it is one character, with which no rule begins,
* if it is longer than that, it is the last token, stops with the source, and is not closed. -/
structure Contained (source : List Char) (tokens : List Token) : Prop where
  followed : ∀ ts t us, tokens = ts ++ t :: us → t.kind = .illegal → us ≠ [] →
    Stray (source.drop t.start) t.text
  longer : ∀ ts t us, tokens = ts ++ t :: us → t.kind = .illegal → 1 < t.text.length →
    us = [] ∧ t.stop = source.length ∧ Unterminated ts t.text

/-- What the lexer does not recognise in a source is single characters, and what is not closed at
its end. -/
theorem lexAll_contained (source : String) : Contained source.toList (lexAll source) := by
  refine ⟨?followed, ?longer⟩
  case followed =>
    intro ts t us heq hk hus
    exact (illegal_of_lexAll heq hk).resolve_right fun h => hus h.1
  case longer =>
    intro ts t us heq hk hlong
    refine (illegal_of_lexAll heq hk).resolve_left fun hstray => ?_
    rw [hstray.length_eq] at hlong
    exact absurd hlong (Nat.lt_irrefl 1)

end Krl.Lexer
