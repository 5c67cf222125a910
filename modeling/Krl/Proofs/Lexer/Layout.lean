import Krl.Proofs.Completion.Symbols
import Krl.Proofs.Lexer.Relexing
import Mathlib.Data.List.Forall2

/-!
# Layout

How much space stands between two tokens does not matter, and what space it is. In front of the
space, no lexeme looks past its first character, and no lexeme tells one such character from another
(`covers_of_space`), so the same steps lead to it (`Steps.respace`). Space leaves the state as it is
(`Config.step_space`): behind it, the run goes on as before, at other offsets.

* `lexAll_refill`: where the text of a whitespace token gives way to other space, all other tokens
  keep their kinds and texts, those behind it are moved by the difference of the lengths, and the
  completions that the tokens give are the same.
-/

set_option autoImplicit false

namespace Krl

open Token (Kind)

namespace Lexer

/-! ## In front of space -/

theorem Lexeme.startsWith_of_text {rest text : List Char} {mode : Mode}
    (h : Lexeme rest mode .chevronString text) : StartsWith templateMarks rest := by
  cases h with
  | chevronString _ _ hmark => exact hmark

/-- Steps that lead to space find the same tokens in front of all text that starts with space. -/
theorem Steps.respace {c d : Config} {ts : List Token} {rest : List Char} (h : Steps c ts d)
    (hd : d.rest.head?.any isSpace) (hrest : rest.head?.any isSpace) :
    Steps (c.withRest (ts.flatMap Token.text ++ rest)) ts (d.withRest rest) := by
  induction h with
  | nil c => exact .nil _
  | @cons c d ts hc h ih =>
    have hthere := (covers_of_space hd hrest).append (ts.flatMap Token.text)
    have hback := (covers_of_space hrest hd).append (ts.flatMap Token.text)
    rw [h.text_append] at hthere hback
    have hlexeme := Config.token_lexeme hc
    rw [List.flatMap_cons, List.append_assoc]
    refine cons_withRest hc (hthere.lexeme hlexeme fun hk => ?_) (ih hd)
    rw [hk] at hlexeme
    exact hback.startsWith visible_of_mem_templateMarks hlexeme.startsWith_of_text

/-! ## Space -/

namespace Config

variable {c : Config}

/-- A run of space is one token, and leaves nothing but the offset changed. -/
theorem step_space {gap rest : List Char} (hmode : c.state.mode = .code) (hne : gap ≠ [])
    (hgap : MaximalRun isSpace rest gap) :
    (c.withRest (gap ++ rest)).token = ⟨.whitespace, gap, c.offset, c.offset + gap.length⟩ ∧
      (c.withRest (gap ++ rest)).next = (c.withRest rest).shift gap.length := by
  have hlexeme : Lexeme rest c.state.mode .whitespace gap := hmode ▸ .whitespace hne hgap
  exact step_of_lexeme hlexeme nofun nofun

theorem whitespace_token (hc : c.rest ≠ []) (hk : c.token.kind = .whitespace) :
    c.state.mode = .code ∧ MaximalRun isSpace c.next.rest c.token.text := by
  have hlexeme := token_lexeme hc
  rw [hk] at hlexeme
  generalize c.state.mode = mode at hlexeme ⊢
  cases hlexeme with
  | whitespace _ hrun => exact ⟨rfl, hrun⟩

end Config

theorem any_head?_append {p : Char → Bool} {text : List Char} (hne : text ≠ [])
    (h : ∀ c ∈ text, p c) (rest : List Char) : (text ++ rest).head?.any p := by
  obtain ⟨c, cs, rfl⟩ := List.exists_cons_of_ne_nil hne
  exact h c List.mem_cons_self

/-! ## The tokens of a source -/

/-- The source with other text in the place of a token. -/
def refill (source : String) (t : Token) (text : List Char) : String :=
  .ofList (source.toList.take t.start ++ text ++ source.toList.drop t.stop)

/-- The second token is the first one, moved to the right by `k`, or to the left if `k` is
negative. -/
structure Moved (k : Int) (t u : Token) : Prop where
  kind : u.kind = t.kind
  text : u.text = t.text
  start : (u.start : Int) = t.start + k
  stop : (u.stop : Int) = t.stop + k

theorem moved_shift (k l : Nat) (t : Token) : Moved (l - k) (t.shift k) (t.shift l) := by
  refine ⟨rfl, rfl, ?_, ?_⟩
  · simp only [Token.shift]
    omega
  · simp only [Token.shift]
    omega

/-- The source in front of a token that steps lead to, and behind it. -/
theorem Steps.toList_refill {source : String} {ts : List Token} {c : Config}
    (h : Steps (.initial source.toList) ts c) (hc : c.rest ≠ []) (text : List Char) :
    (refill source c.token text).toList = ts.flatMap Token.text ++ (text ++ c.next.rest) := by
  have hfront : source.toList.take c.offset = ts.flatMap Token.text := by
    have htext : ts.flatMap Token.text ++ c.rest = source.toList := h.text_append
    have hoffset : c.offset = 0 + (ts.flatMap Token.text).length := h.offset_eq
    rw [← htext, hoffset, Nat.zero_add, List.take_left]
  rw [refill, String.toList_ofList, Config.token_start, hfront, List.append_assoc,
    Config.next_rest_eq_drop hc h.rest_eq_drop, Config.next_offset]

section
variable {source : String} {ts us : List Token} {t : Token} {gap : List Char}

/-- The tokens in front of refilled space are the same, and those behind it are where they would be
if it were not there, moved by its length. -/
theorem exists_shift_of_refill (hlex : lexAll source = ts ++ t :: us) (hkind : t.kind = .whitespace)
    (hne : gap ≠ []) (hgap : ∀ c ∈ gap, isSpace c) :
    ∃ vs : List Token, us = vs.map (Token.shift t.text.length) ∧ lexAll (refill source t gap) =
      ts ++ ⟨.whitespace, gap, t.start, t.start + gap.length⟩ ::
        vs.map (Token.shift gap.length) := by
  obtain ⟨c, d, hfront, hc, rfl, hus, hd⟩ := exists_config_of_lexAll hlex
  obtain ⟨hmode, hrun⟩ := Config.whitespace_token hc hkind
  have htext := Config.token_text_append hc
  obtain ⟨vs, e, hvs, he, -⟩ := exists_steps (c.withRest c.next.rest)
  refine ⟨vs, ?_, ?_⟩
  · have hnext := (Config.step_space hmode (Config.token_text_ne_nil hc) hrun).2
    rw [htext] at hnext
    have hshift := hvs.shift c.token.text.length
    rw [← hnext] at hshift
    exact hus.unique hd hshift he
  · obtain ⟨htoken, hnext⟩ := Config.step_space hmode hne ⟨hgap, hrun.stops⟩
    have hthere : c.rest.head?.any isSpace :=
      htext ▸ any_head?_append (Config.token_text_ne_nil hc) hrun.all _
    have hbefore := hfront.respace hthere (any_head?_append hne hgap c.next.rest)
    have hbehind := hvs.shift gap.length
    rw [← hnext] at hbehind
    have hcons := Steps.cons (c := c.withRest (gap ++ c.next.rest))
      (List.append_ne_nil_of_left_ne_nil hne _) hbehind
    rw [htoken] at hcons
    refine Steps.eq_lexAll (d := e.shift gap.length) ?_ he
    rw [hfront.toList_refill hc]
    exact hbefore.append hcons

/-- Does the token carry a name or a value? -/
def carries (t : Token) : Bool := Keep.accepts ⟨false, false⟩ t.kind

theorem lexContent_eq_filter (source : String) :
    lexContent source = (lexAll source).filter carries := by
  obtain ⟨-, -, -, hlex⟩ := steps_lex source
  exact hlex ⟨false, false⟩

/-- But for their places, the tokens that carry a name or a value do not depend on space among them,
or on how far those behind it have moved. -/
theorem map_unplaced_lexContent {vs : List Token} {k : Nat}
    (hlex : lexAll source = ts ++ t :: vs.map (Token.shift k)) (hkind : t.kind = .whitespace) :
    (lexContent source).map Completion.unplaced =
      ((ts ++ vs).filter carries).map Completion.unplaced := by
  have hspace : ¬ carries t := by simp [carries, hkind, Keep.accepts]
  rw [lexContent_eq_filter, hlex, List.filter_append, List.filter_cons_of_neg hspace,
    List.filter_map, List.filter_append, List.map_append, List.map_append, List.map_map]
  rfl

/-- Space does not matter: where it gives way to other space, the other tokens of the source keep
their kinds and texts, and those behind it move by the difference of the lengths. The completions
that the tokens give are the same. -/
theorem lexAll_refill (hlex : lexAll source = ts ++ t :: us) (hkind : t.kind = .whitespace)
    (hne : gap ≠ []) (hgap : ∀ c ∈ gap, isSpace c) :
    (∃ vs, lexAll (refill source t gap) =
        ts ++ ⟨.whitespace, gap, t.start, t.start + gap.length⟩ :: vs ∧
      List.Forall₂ (Moved (gap.length - t.text.length)) us vs) ∧
    Completion.ofTokens (lexContent (refill source t gap)) =
      Completion.ofTokens (lexContent source) := by
  obtain ⟨vs, rfl, hrefill⟩ := exists_shift_of_refill hlex hkind hne hgap
  refine ⟨⟨_, hrefill, ?_⟩, ?_⟩
  · refine List.forall₂_map_left_iff.2 (List.forall₂_map_right_iff.2 ?_)
    exact List.forall₂_same.2 fun u _ => moved_shift _ _ u
  · refine Completion.ofTokens_congr ?_
    rw [map_unplaced_lexContent hrefill rfl, map_unplaced_lexContent hlex hkind]

theorem lexAll_refill_interpolation :
    (∃ vs, lexAll (refill "<<#\x7b b\x7d>>" ⟨.whitespace, [' '], 4, 5⟩ ['\n', '\uFEFF']) =
        (lexAll "<<#\x7b b\x7d>>").take 2 ++ ⟨.whitespace, ['\n', '\uFEFF'], 4, 6⟩ :: vs ∧
      List.Forall₂ (Moved 1) ((lexAll "<<#\x7b b\x7d>>").drop 3) vs) ∧
    Completion.ofTokens
        (lexContent (refill "<<#\x7b b\x7d>>" ⟨.whitespace, [' '], 4, 5⟩ ['\n', '\uFEFF'])) =
      Completion.ofTokens (lexContent "<<#\x7b b\x7d>>") :=
  lexAll_refill (by decide +kernel) rfl (by decide) (List.all_eq_true.1 rfl)

end

end Lexer

end Krl
