import Krl.Proofs.Lexer.Rules
import Krl.Proofs.Lexer.Run

/-!
# Templates nest

What a stack machine that reads only the tokens can tell about templates. Its stack counts the open
braces of each interpolation (`openBraces`). The lexer's state is the same stack, and template text
is read exactly behind a token that starts it and behind the text itself, in front of its mark
(`Follows`); both hold from the start of a source on and are kept by each step (`follows_step`).

* `lexAll_nested`: the tokens of every source obey the grammar of templates, but for the end of the
  source (`Nested`).
-/

set_option autoImplicit false

namespace Krl

namespace Token.Kind

/-- Template text starts behind a token of this kind. -/
def opensText : Kind → Bool
  | .chevronOpen => true
  | .beestingClose => true
  | _ => false

/-- Template text ends in front of a token of this kind. -/
def endsText : Kind → Bool
  | .beestingOpen => true
  | .chevronClose => true
  | _ => false

end Token.Kind

namespace Lexer

open Token (Kind)

/-! ## The stack machine -/

/-- The braces open in each interpolation, the innermost first, behind one more token. -/
def countBraces (counts : List Nat) (t : Token) : List Nat :=
  match t.kind, counts with
  | .beestingOpen, _ => 0 :: counts
  | .beestingClose, _ => counts.tail
  | .raw, n :: outer =>
    if t.text = ['{'] then (n + 1) :: outer
    else if t.text = ['}'] then (n - 1) :: outer
    else counts
  | _, _ => counts

/-- The braces open in each interpolation behind tokens. -/
def openBraces (ts : List Token) : List Nat := ts.foldl countBraces []

theorem openBraces_concat (ts : List Token) (t : Token) :
    openBraces (ts ++ [t]) = countBraces (openBraces ts) t := by
  rw [openBraces, List.foldl_append]
  rfl

/-- The lexer counts as the stack machine does. -/
theorem braces_after (st : State) (t : Token) :
    (st.after t.kind t.text).braces = countBraces st.braces t := by
  rcases st with ⟨mode, braces⟩
  rcases t with ⟨kind, text, start, stop⟩
  cases kind <;> cases braces <;> rfl

/-! ## Where template text is read -/

/-- The last token starts template text. -/
def EndsOpen (ts : List Token) : Prop := ∃ t, ts.getLast? = some t ∧ t.kind.opensText

/-- The last token is template text, behind one that starts it. -/
def EndsInText (ts : List Token) : Prop :=
  ∃ us t, ts = us ++ [t] ∧ EndsOpen us ∧ t.kind = .chevronString

theorem endsOpen_concat {ts : List Token} {t : Token} (h : t.kind.opensText) :
    EndsOpen (ts ++ [t]) := ⟨t, List.getLast?_concat, h⟩

/-- What the tokens found so far say about where a run stands. -/
structure Follows (ts : List Token) (c : Config) : Prop where
  braces : c.state.braces = openBraces ts
  text : c.state.mode = .template → c.rest ≠ [] →
    EndsOpen ts ∨ EndsInText ts ∧ (templateMark? c.rest).isSome

/-- Template text is read behind a token that starts it, and until one that ends it. -/
theorem mode_after (st : State) (kind : Kind) (text : List Char) :
    (st.after kind text).mode = .template ↔
      kind.opensText ∨ st.mode = .template ∧ kind.endsText = false := by
  cases kind <;> simp [State.after, Kind.opensText, Kind.endsText]

theorem mode_after_of_endsText {kind : Kind} (h : kind.endsText) (st : State) (text : List Char) :
    (st.after kind text).mode = .code := by
  revert h
  cases kind <;> simp [State.after, Kind.endsText]

theorem endsText_of_templateMark? {cs : List Char} {kind : Kind}
    (h : templateMark? cs = some kind) : kind.endsText := by
  rcases templateMark?_eq_some h with rfl | rfl <;> rfl

namespace Config

variable {c : Config}

theorem code_rule (hm : c.state.mode = .code) (h : c.rest ≠ []) :
    CodeRule c.state.braces c.rest (c.token.kind, c.token.text.length) := by
  have hscan : scan c.state c.rest = scanCode c.state.braces c.rest := by rw [scan, hm]
  rw [length_token_text h, token_kind, hscan]
  exact scanCode_rule _ _

theorem template_rule (hm : c.state.mode = .template) (h : c.rest ≠ []) :
    TemplateRule c.rest (c.token.kind, c.token.text.length) := by
  have hscan : scan c.state c.rest = scanTemplate c.rest := by rw [scan, hm]
  rw [length_token_text h, token_kind, hscan]
  exact scanTemplate_rule _

/-- A step of code starts template text exactly if its token does. -/
theorem mode_next_of_code (hm : c.state.mode = .code) :
    c.next.state.mode = .template ↔ c.token.kind.opensText := by
  rw [next_state, mode_after, hm]
  simp

/-- A step of template text takes the mark that ends it, or all that is left of the source, or text
in front of a mark. -/
theorem template_step (hm : c.state.mode = .template) (h : c.rest ≠ []) :
    (c.token.kind.endsText ∧ c.next.state.mode = .code) ∨
      (c.token.kind = .illegal ∧ templateMark? c.rest = none ∧ c.next.rest = []) ∨
      (c.token.kind = .chevronString ∧ templateMark? c.rest = none ∧
        c.next.state.mode = .template ∧ (templateMark? c.next.rest).isSome) := by
  have hrule := template_rule hm h
  rw [next_state, next_rest]
  generalize c.token.text.length = n at hrule
  generalize c.token.kind = kind at hrule ⊢
  cases hrule with
  | mark hmark =>
    have hends := endsText_of_templateMark? hmark
    exact .inl ⟨hends, mode_after_of_endsText hends _ _⟩
  | openText hnone => exact .inr (.inl ⟨rfl, hnone, List.drop_length⟩)
  | text hnone _ hmark => exact .inr (.inr ⟨rfl, hnone, hm, hmark⟩)

end Config

/-! ## Steps -/

theorem follows_initial (source : List Char) : Follows [] (.initial source) :=
  ⟨rfl, fun hm => nomatch hm⟩

/-- A step keeps what the tokens say about where the run stands. -/
theorem follows_step {ts : List Token} {c : Config} (h : Follows ts c) (hc : c.rest ≠ []) :
    Follows (ts ++ [c.token]) c.next := by
  refine ⟨?_, fun hm hn => ?_⟩
  · rw [Config.next_state, braces_after, h.braces, openBraces_concat]
  cases hmode : c.state.mode with
  | code => exact .inl (endsOpen_concat ((Config.mode_next_of_code hmode).1 hm))
  | template =>
    rcases Config.template_step hmode hc with ⟨-, hcode⟩ | ⟨-, -, hnil⟩ | ⟨hk, hnone, -, hmark⟩
    · rw [hm] at hcode
      cases hcode
    · exact absurd hnil hn
    · -- text is not followed by more text, since it ends in front of a mark
      have hopen : EndsOpen ts :=
        (h.text hmode hc).resolve_right fun hin => by simp [hnone] at hin
      exact .inr ⟨⟨ts, c.token, rfl, hopen, hk⟩, hmark⟩

theorem Steps.follows {source : List Char} {ts : List Token} {c : Config}
    (h : Steps (.initial source) ts c) : Follows ts c :=
  h.invariant (follows_initial source) fun _ _ => follows_step

/-! ## The grammar of templates -/

/-- The tokens go on with the mark that ends template text, behind the text if there is any. -/
def EndsText (ts : List Token) : Prop :=
  (∃ m us, ts = m :: us ∧ m.kind.endsText) ∨
    ∃ t m us, ts = t :: m :: us ∧ t.kind = .chevronString ∧ m.kind.endsText

/-- Nothing follows, or one token that matches no rule. -/
def Truncated (ts : List Token) : Prop := ts = [] ∨ ∃ t, ts = [t] ∧ t.kind = .illegal

/-- The grammar of templates. Wherever the tokens are cut in front of one of them:
* a closing brace that is a mark closes a brace of its interpolation,
* an interpolation is closed only where there is one, and all braces in it are closed,
* template text stands behind a token that starts it and in front of one that ends it,
* a token that ends template text stands behind one that starts it, with at most the text between,
* template text that has been started is ended, or else the source ends. -/
structure Nested (tokens : List Token) : Prop where
  brace : ∀ ts t us, tokens = ts ++ t :: us → t.kind = .raw → t.text = ['}'] →
    (openBraces ts).head? ≠ some 0
  close : ∀ ts t us, tokens = ts ++ t :: us → t.kind = .beestingClose →
    (openBraces ts).head? = some 0
  text : ∀ ts t us, tokens = ts ++ t :: us → t.kind = .chevronString →
    EndsOpen ts ∧ ∃ m vs, us = m :: vs ∧ m.kind.endsText
  mark : ∀ ts t us, tokens = ts ++ t :: us → t.kind.endsText → EndsOpen ts ∨ EndsInText ts
  start : ∀ ts t us, tokens = ts ++ t :: us → t.kind.opensText → EndsText us ∨ Truncated us

section
variable {c d : Config} {ts us : List Token}

/-- What follows where template text ends. -/
theorem Steps.mark_of_text (h : Steps c us d) (hd : d.rest = []) (hm : c.state.mode = .template)
    (hmark : (templateMark? c.rest).isSome) : ∃ m vs, us = m :: vs ∧ m.kind.endsText := by
  have hc : c.rest ≠ [] := fun hnil => by rw [hnil, templateMark?_nil] at hmark; cases hmark
  obtain ⟨vs, rfl, -⟩ := h.of_rest_ne_nil hc hd
  refine ⟨c.token, vs, rfl, ?_⟩
  rcases Config.template_step hm hc with ⟨hk, -⟩ | ⟨-, hnone, -⟩ | ⟨-, hnone, -⟩
  · exact hk
  · simp [hnone] at hmark
  · simp [hnone] at hmark

/-- What follows where template text starts. -/
theorem Steps.text_or_truncated (h : Steps c us d) (hd : d.rest = [])
    (hm : c.state.mode = .template) : EndsText us ∨ Truncated us := by
  by_cases hc : c.rest = []
  · exact .inr (.inl (h.of_rest_nil hc))
  obtain ⟨vs, rfl, hvs⟩ := h.of_rest_ne_nil hc hd
  rcases Config.template_step hm hc with ⟨hk, -⟩ | ⟨hk, -, hnil⟩ | ⟨hk, -, hnext, hmark⟩
  · exact .inl (.inl ⟨_, vs, rfl, hk⟩)
  · exact .inr (.inr ⟨_, by rw [hvs.of_rest_nil hnil], hk⟩)
  · obtain ⟨m, ws, rfl, hend⟩ := hvs.mark_of_text hd hnext hmark
    exact .inl (.inr ⟨_, m, ws, rfl, hk, hend⟩)

/-- Parts of a template behind its opening mark are found only where template text is read. -/
theorem Config.mode_of_part (hc : c.rest ≠ [])
    (h : c.token.kind = .chevronString ∨ c.token.kind.endsText) : c.state.mode = .template := by
  cases hm : c.state.mode with
  | template => rfl
  | code =>
    obtain ⟨h₁, h₂, h₃⟩ := (Config.code_rule hm hc).not_template
    generalize c.token.kind = kind at h h₁ h₂ h₃
    cases kind <;> simp_all [Kind.endsText]

/-- Marks other than those of templates, and the ends of interpolations, are found only in code. -/
theorem Config.mode_of_code (hc : c.rest ≠ [])
    (h : c.token.kind = .raw ∨ c.token.kind = .beestingClose) : c.state.mode = .code := by
  cases hm : c.state.mode with
  | code => rfl
  | template =>
    rcases Config.template_step hm hc with ⟨hk, -⟩ | ⟨hk, -⟩ | ⟨hk, -⟩ <;>
      rcases h with h | h <;> simp [h, Kind.endsText] at hk

/-- An interpolation is closed only where all braces in it are. -/
theorem Config.head?_of_close (hc : c.rest ≠ []) (hk : c.token.kind = .beestingClose) :
    c.state.braces.head? = some 0 := by
  have hrule := code_rule (mode_of_code hc (.inr hk)) hc
  rw [hk] at hrule
  exact hrule.head?_of_beestingClose

/-- A closing brace is a mark only where it does not close an interpolation. -/
theorem Config.head?_of_rightBrace (hc : c.rest ≠ []) (hk : c.token.kind = .raw)
    (ht : c.token.text = ['}']) : c.state.braces.head? ≠ some 0 := by
  have hrule := code_rule (mode_of_code hc (.inl hk)) hc
  rw [hk] at hrule
  refine hrule.head?_of_rightBrace ?_
  rw [← token_text_append hc, List.take_left, ht]

end

theorem Steps.nested {source : List Char} {tokens : List Token} {d : Config}
    (h : Steps (.initial source) tokens d) (hd : d.rest = []) : Nested tokens := by
  -- a cut in front of a token is a configuration that the steps pass through
  have cut : ∀ ts t us, tokens = ts ++ t :: us → ∃ c, Follows ts c ∧ c.rest ≠ [] ∧ t = c.token ∧
      Steps c.next us d := by
    intro ts t us heq
    rw [heq] at h
    obtain ⟨c, h₁, h₂⟩ := h.split
    exact ⟨c, h₁.follows, h₂.of_cons⟩
  refine ⟨?brace, ?close, ?text, ?mark, ?start⟩
  case brace =>
    intro ts t us heq hk ht
    obtain ⟨c, hf, hc, rfl, -⟩ := cut ts t us heq
    rw [← hf.braces]
    exact Config.head?_of_rightBrace hc hk ht
  case close =>
    intro ts t us heq hk
    obtain ⟨c, hf, hc, rfl, -⟩ := cut ts t us heq
    rw [← hf.braces]
    exact Config.head?_of_close hc hk
  case text =>
    intro ts t us heq hk
    obtain ⟨c, hf, hc, rfl, hus⟩ := cut ts t us heq
    have hm := Config.mode_of_part hc (.inl hk)
    rcases Config.template_step hm hc with ⟨he, -⟩ | ⟨hi, -⟩ | ⟨-, hnone, hnext, hmark⟩
    · simp [hk, Kind.endsText] at he
    · rw [hk] at hi
      cases hi
    · exact ⟨(hf.text hm hc).resolve_right fun hin => by simp [hnone] at hin,
        hus.mark_of_text hd hnext hmark⟩
  case mark =>
    intro ts t us heq hk
    obtain ⟨c, hf, hc, rfl, -⟩ := cut ts t us heq
    exact (hf.text (Config.mode_of_part hc (.inr hk)) hc).imp_right And.left
  case start =>
    intro ts t us heq hk
    obtain ⟨c, -, -, rfl, hus⟩ := cut ts t us heq
    exact hus.text_or_truncated hd ((mode_after _ _ _).2 (.inl hk))

/-- The tokens of every source obey the grammar of templates. -/
theorem lexAll_nested (source : String) : Nested (lexAll source) := by
  obtain ⟨d, hsteps, hd⟩ := steps_lexAll source
  exact hsteps.nested hd

end Lexer

end Krl
