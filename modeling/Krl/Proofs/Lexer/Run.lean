import Krl.Token.Lexer

/-!
# Runs of the lexer as steps

Where a run stands is a configuration, and each step takes one lexeme off the text that is left.

* `token_text_append`: the lexeme and the text that is left behind it are the text in front of it.
* `exists_steps`: from every configuration the steps reach the end of the text, and the tokens that
  they find are those of the run, whichever kinds it keeps.
* `steps_lex`: the tokens of a source are those of the steps from its start to its end.
* `lex_eq_filter`: kinds that are not asked for are left out, and nothing else changes.
-/

set_option autoImplicit false

namespace Krl

namespace Lexer

/-! ## Configurations -/

/-- Where a run stands: the state, the offset in the source, and the text that is left. -/
structure Config where
  state : State := {}
  offset : Nat := 0
  rest : List Char

namespace Config

/-- The start of a source. -/
def initial (source : List Char) : Config := { rest := source }

/-- The token that is found next. -/
def token (c : Config) : Token := lexeme c.state c.offset c.rest

/-- The configuration behind that token. -/
def next (c : Config) : Config :=
  ⟨c.state.after c.token.kind c.token.text, c.token.stop, c.rest.drop c.token.text.length⟩

theorem token_kind (c : Config) : c.token.kind = (scan c.state c.rest).1 := rfl

@[simp] theorem token_start (c : Config) : c.token.start = c.offset := rfl

@[simp] theorem next_state (c : Config) :
    c.next.state = c.state.after c.token.kind c.token.text := rfl

@[simp] theorem next_offset (c : Config) : c.next.offset = c.token.stop := rfl

theorem next_rest (c : Config) : c.next.rest = c.rest.drop c.token.text.length := rfl

variable {c : Config}

theorem length_token_text (h : c.rest ≠ []) :
    c.token.text.length = (scan c.state c.rest).2 := by
  obtain ⟨-, hle⟩ := scan_inBounds c.state h
  simp only [token, lexeme, List.length_take]
  omega

theorem token_text_ne_nil (h : c.rest ≠ []) : c.token.text ≠ [] := by
  obtain ⟨hpos, -⟩ := scan_inBounds c.state h
  rw [← List.length_pos_iff, length_token_text h]
  exact hpos

theorem token_stop (h : c.rest ≠ []) : c.token.stop = c.offset + c.token.text.length := by
  rw [length_token_text h]
  rfl

/-- The lexeme and the text that is left behind it are the text in front of it. -/
theorem token_text_append (h : c.rest ≠ []) : c.token.text ++ c.next.rest = c.rest := by
  rw [next_rest, length_token_text h]
  exact List.take_append_drop _ _

/-- Behind a token, the text that is left is still the source from there on. -/
theorem next_rest_eq_drop {source : List Char} (h : c.rest ≠ [])
    (hc : c.rest = source.drop c.offset) : c.next.rest = source.drop c.next.offset := by
  rw [next_rest, hc, List.drop_drop, next_offset, token_stop h]

theorem length_next_rest (h : c.rest ≠ []) : c.next.rest.length < c.rest.length :=
  length_drop_lexeme c.state c.offset h

end Config

/-! ## Steps -/

/-- The steps from one configuration to another find these tokens. -/
inductive Steps : Config → List Token → Config → Prop
  | nil (c : Config) : Steps c [] c
  | cons {c d : Config} {ts : List Token} :
      c.rest ≠ [] → Steps c.next ts d → Steps c (c.token :: ts) d

namespace Steps

variable {c d e : Config} {ts us : List Token} {t : Token}

/-- Steps that find more tokens pass through a configuration between them. -/
theorem split (h : Steps c (ts ++ us) e) : ∃ d, Steps c ts d ∧ Steps d us e := by
  induction ts generalizing c with
  | nil => exact ⟨c, .nil c, h⟩
  | cons t ts ih =>
    cases h with
    | cons hc h =>
      obtain ⟨d, h₁, h₂⟩ := ih h
      exact ⟨d, .cons hc h₁, h₂⟩

/-- The first of the tokens found is that of the first step. -/
theorem of_cons (h : Steps c (t :: ts) d) : c.rest ≠ [] ∧ t = c.token ∧ Steps c.next ts d := by
  cases h with
  | cons hc h => exact ⟨hc, rfl, h⟩

/-- Where nothing is left, no step is made. -/
theorem of_rest_nil (h : Steps c ts d) (hc : c.rest = []) : ts = [] := by
  cases h with
  | nil => rfl
  | cons hn _ => exact absurd hc hn

/-- Where something is left and nothing is at the end, a first step is made. -/
theorem of_rest_ne_nil (h : Steps c ts d) (hc : c.rest ≠ []) (hd : d.rest = []) :
    ∃ us, ts = c.token :: us ∧ Steps c.next us d := by
  cases h with
  | nil => exact absurd hd hc
  | cons _ h => exact ⟨_, rfl, h⟩

/-- What holds of the start without any tokens, and is kept by each step, holds wherever the steps
lead, of the tokens that they have found. -/
theorem invariant {P : List Token → Config → Prop} (h : Steps c ts d) (start : P [] c)
    (step : ∀ us d, P us d → d.rest ≠ [] → P (us ++ [d.token]) d.next) : P ts d := by
  suffices H : ∀ us, P us c → P (us ++ ts) d from H [] start
  clear start
  induction h with
  | nil c => intro us hP; simpa using hP
  | cons hc _ ih =>
    intro us hP
    simpa using ih _ (step us _ hP hc)

/-- The texts of the tokens found are what the steps take off the text. -/
theorem text_append (h : Steps c ts d) : ts.flatMap Token.text ++ d.rest = c.rest := by
  induction h with
  | nil c => rfl
  | cons hc _ ih =>
    rw [List.flatMap_cons, List.append_assoc, ih, Config.token_text_append hc]

/-- Steps through a whole source find texts that make it up. -/
theorem flatMap_text {source : List Char} (h : Steps (.initial source) ts d) (hd : d.rest = []) :
    ts.flatMap Token.text = source := by
  rw [← List.append_nil (ts.flatMap Token.text), ← hd]
  exact h.text_append

end Steps

/-! ## Whole runs -/

/-- From every configuration the steps reach the end of the text, and a run finds their tokens, as
far as it keeps them. -/
theorem exists_steps (c : Config) : ∃ ts d, Steps c ts d ∧ d.rest = [] ∧
    ∀ keep out, run keep c.state c.offset c.rest out =
      out ++ (ts.filter fun t => keep.accepts t.kind).toArray := by
  induction hn : c.rest.length using Nat.strongRecOn generalizing c with
  | _ n ih =>
    by_cases hc : c.rest = []
    · refine ⟨[], c, .nil c, hc, fun keep out => ?_⟩
      rw [hc, run_nil]
      simp
    · obtain ⟨ts, d, hsteps, hd, hrun⟩ := ih _ (hn ▸ Config.length_next_rest hc) c.next rfl
      refine ⟨c.token :: ts, d, .cons hc hsteps, hd, fun keep out => ?_⟩
      have hstep : run keep c.state c.offset c.rest out =
          run keep c.next.state c.next.offset c.next.rest (keep.push out c.token) := by
        rw [run, if_neg hc]
        rfl
      rw [hstep, hrun, Keep.push, List.filter_cons]
      split <;> simp

theorem accepts_all (kind : Token.Kind) : Keep.accepts ⟨true, true⟩ kind = true := by
  cases kind <;> rfl

/-- The tokens of a source are those of the steps from its start to its end, and a run finds those
of them that it keeps. -/
theorem steps_lex (source : String) :
    ∃ d, Steps (.initial source.toList) (lexAll source) d ∧ d.rest = [] ∧
      ∀ keep, lex keep source = (lexAll source).filter fun t => keep.accepts t.kind := by
  obtain ⟨ts, d, hsteps, hd, hrun⟩ := exists_steps (.initial source.toList)
  have hlex : ∀ keep, lex keep source = ts.filter fun t => keep.accepts t.kind := by
    intro keep
    have hdef : lex keep source = (run keep {} 0 source.toList #[]).toList := rfl
    rw [hdef, show run keep {} 0 source.toList #[] = _ from hrun keep #[]]
    simp
  have hall : lexAll source = ts := by
    rw [lexAll, hlex]
    exact List.filter_eq_self.2 fun t _ => accepts_all t.kind
  rw [hall]
  exact ⟨d, hsteps, hd, hlex⟩

theorem steps_lexAll (source : String) :
    ∃ d, Steps (.initial source.toList) (lexAll source) d ∧ d.rest = [] := by
  obtain ⟨d, hsteps, hd, -⟩ := steps_lex source
  exact ⟨d, hsteps, hd⟩

/-- Steps lead to each token of a source, find it there, and go on to the end. -/
theorem exists_config_of_lexAll {source : String} {ts us : List Token} {t : Token}
    (h : lexAll source = ts ++ t :: us) :
    ∃ c d, Steps (.initial source.toList) ts c ∧ c.rest ≠ [] ∧ t = c.token ∧
      Steps c.next us d ∧ d.rest = [] := by
  obtain ⟨d, hsteps, hd⟩ := steps_lexAll source
  rw [h] at hsteps
  obtain ⟨c, hfront, hbehind⟩ := hsteps.split
  obtain ⟨hc, rfl, hus⟩ := hbehind.of_cons
  exact ⟨c, d, hfront, hc, rfl, hus, hd⟩

/-- What a run does not keep does not change what it finds: the tokens are all tokens of the source
but for whitespace and marks, as far as they are not asked for. -/
theorem lex_eq_filter (keep : Keep) (source : String) :
    lex keep source = (lexAll source).filter fun t =>
      (t.kind != .whitespace || keep.whitespace) && (t.kind != .raw || keep.raw) := by
  obtain ⟨d, -, -, hlex⟩ := steps_lex source
  rw [hlex]
  refine List.filter_congr fun t _ => ?_
  cases t.kind <;> simp [Keep.accepts]

end Lexer

end Krl
