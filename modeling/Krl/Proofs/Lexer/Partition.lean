import Krl.Proofs.Lexer.Run
import Mathlib.Data.List.Chain

/-!
# Tokens partition the source

Every character of a source is in exactly one token. Each step takes a lexeme of at least one
character off the text that is left (`Config.token_text_append`), so the offset at which a step
starts is the number of characters that the steps before it have taken.

* `lexAll_partition`: the steps of a run reach the end of the source, and the tokens that they find
  lie side by side from its start to its end, each with the text of its place.
-/

set_option autoImplicit false

namespace Krl.Lexer

/-! ## Tokens of steps -/

namespace Steps

variable {c d : Config} {ts : List Token} {t : Token}

theorem start_of_head? (h : Steps c ts d) (ht : ts.head? = some t) : t.start = c.offset := by
  cases h with
  | nil => cases ht
  | cons _ _ =>
    cases ht
    rfl

/-- Each token starts where the one in front of it stops. -/
theorem isChain (h : Steps c ts d) : ts.IsChain fun t u => u.start = t.stop := by
  induction h with
  | nil => exact .nil
  | cons _ h ih => exact ih.cons fun u hu => h.start_of_head? hu

theorem offset_eq (h : Steps c ts d) : d.offset = c.offset + (ts.flatMap Token.text).length := by
  induction h with
  | nil => rfl
  | cons hc _ ih =>
    rw [ih, Config.next_offset, Config.token_stop hc, List.flatMap_cons, List.length_append]
    omega

/-- The last token stops where the steps lead. -/
theorem stop_of_getLast? (h : Steps c ts d) (ht : ts.getLast? = some t) : t.stop = d.offset := by
  induction h with
  | nil => cases ht
  | @cons c d ts hc h ih =>
    cases ts with
    | nil =>
      cases ht
      cases h
      rfl
    | cons u us => exact ih (by rwa [List.getLast?_cons_cons] at ht)

/-- No step finds a token without text. -/
theorem length_le (h : Steps c ts d) : ts.length + d.rest.length ≤ c.rest.length := by
  induction h with
  | nil => exact Nat.le_of_eq (Nat.zero_add _)
  | cons hc _ ih =>
    have := Config.length_next_rest hc
    rw [List.length_cons]
    omega

/-- A token holds the text of its place in the source. -/
theorem slice {source : List Char} (h : Steps c ts d) (hc : c.rest = source.drop c.offset) :
    ∀ t ∈ ts, t.start < t.stop ∧ t.text = source.extract t.start t.stop := by
  induction h with
  | nil => simp
  | @cons c d ts hne _ ih =>
    have hstop := Config.token_stop hne
    have htext : c.token.text = c.rest.take c.token.text.length := by
      rw [← Config.token_text_append hne, List.take_left]
    have hnext := Config.next_rest_eq_drop hne hc
    intro t ht
    rcases List.mem_cons.1 ht with rfl | ht
    · have hpos := List.length_pos_iff.2 (Config.token_text_ne_nil hne)
      refine ⟨by rw [Config.token_start]; omega, ?_⟩
      rw [List.extract_eq_take_drop, Config.token_start, hstop, Nat.add_sub_cancel_left, ← hc]
      exact htext
    · exact ih hnext t ht

end Steps

/-! ## The tokens of a source -/

/-- The tokens lie side by side from the start of the source to its end, each with the text of its
place. -/
structure Partition (source : List Char) (tokens : List Token) : Prop where
  eq_nil_iff : tokens = [] ↔ source = []
  start_of_head? : ∀ t, tokens.head? = some t → t.start = 0
  start_lt_stop : ∀ t ∈ tokens, t.start < t.stop
  isChain : tokens.IsChain fun t u => u.start = t.stop
  stop_of_getLast? : ∀ t, tokens.getLast? = some t → t.stop = source.length
  text_eq : ∀ t ∈ tokens, t.text = source.extract t.start t.stop
  flatMap_text : tokens.flatMap Token.text = source

theorem Steps.partition {source : List Char} {tokens : List Token} {d : Config}
    (h : Steps (.initial source) tokens d) (hd : d.rest = []) : Partition source tokens := by
  have hslice : ∀ t ∈ tokens, t.start < t.stop ∧ t.text = source.extract t.start t.stop :=
    h.slice rfl
  have htext := h.flatMap_text hd
  have hoffset : d.offset = source.length := by
    rw [h.offset_eq, htext]
    exact Nat.zero_add _
  refine ⟨⟨fun hnil => ?_, fun hnil => h.of_rest_nil hnil⟩, fun t ht => h.start_of_head? ht,
    fun t ht => (hslice t ht).1, h.isChain, fun t ht => ?_, fun t ht => (hslice t ht).2, htext⟩
  · rw [← htext, hnil, List.flatMap_nil]
  · rw [h.stop_of_getLast? ht, hoffset]

end Krl.Lexer
