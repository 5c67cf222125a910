import Krl.Proofs.Lexer.Partition
import Krl.Proofs.Lexer.Recognition

/-!
# Sources can be cut between templates

Where a token stops and no template is open, the two sides of a source can be lexed apart. In front
of the cut, each token is still a lexeme (`Covers.lexeme`), since template text, which ends where
its mark starts, has that mark in front of the cut as well. Behind it, the lexer is in the state in
which it starts: its depth is the number of templates that are open (`Steps.countP_chevronOpen`).

* `lexAll_cut`: the tokens of a source are those of the two sides of a seam, the second ones moved.
-/

set_option autoImplicit false

namespace Krl

open Token (Kind)

/-- The token with `k` characters more in front of it. -/
def Token.shift (k : Nat) (t : Token) : Token := { t with start := t.start + k, stop := t.stop + k }

namespace Lexer

/-! ## Offsets -/

/-- The configuration with `k` characters more in front of it. -/
def Config.shift (k : Nat) (c : Config) : Config := { c with offset := c.offset + k }

theorem Config.token_shift (k : Nat) (c : Config) : (c.shift k).token = c.token.shift k := by
  simp only [Config.token, Config.shift, lexeme, Token.shift, Token.mk.injEq, true_and]
  omega

theorem Config.next_shift (k : Nat) (c : Config) : (c.shift k).next = c.next.shift k := by
  unfold Config.next
  rw [token_shift]
  rfl

namespace Steps

variable {c d e : Config} {ts us : List Token} {t : Token}

theorem shift (k : Nat) (h : Steps c ts d) :
    Steps (c.shift k) (ts.map (Token.shift k)) (d.shift k) := by
  induction h with
  | nil c => exact .nil _
  | @cons c d ts hc _ ih =>
    rw [List.map_cons, ← Config.token_shift]
    refine .cons hc ?_
    rw [Config.next_shift]
    exact ih

theorem append (h : Steps c ts d) (h' : Steps d us e) : Steps c (ts ++ us) e := by
  induction h with
  | nil => exact h'
  | cons hc _ ih => exact .cons hc (ih h')

/-- Steps that take all of a text find the same tokens. -/
theorem unique {d' : Config} (h : Steps c ts d) (hd : d.rest = []) (h' : Steps c us d')
    (hd' : d'.rest = []) : ts = us := by
  induction h generalizing us with
  | nil c => exact (h'.of_rest_nil hd).symm
  | @cons c d ts hc _ ih =>
    obtain ⟨vs, rfl, hvs⟩ := h'.of_rest_ne_nil hc hd'
    rw [ih hd hvs]

theorem offset_le (h : Steps c ts d) : c.offset ≤ d.offset := by
  have := h.offset_eq
  omega

theorem stop_bounds (h : Steps c ts d) (ht : t ∈ ts) : c.offset < t.stop ∧ t.stop ≤ d.offset := by
  induction h with
  | nil => cases ht
  | @cons c d ts hc h ih =>
    have hpos := List.length_pos_iff.2 (Config.token_text_ne_nil hc)
    have hstop := Config.token_stop hc
    have hle := h.offset_le
    rw [Config.next_offset] at hle ih
    rcases List.mem_cons.1 ht with rfl | ht
    · omega
    · have := ih ht
      omega

end Steps

/-- The tokens of a source are those of any steps from its start to its end. -/
theorem Steps.eq_lexAll {source : String} {ts : List Token} {d : Config}
    (h : Steps (.initial source.toList) ts d) (hd : d.rest = []) : lexAll source = ts := by
  obtain ⟨e, hsteps, he⟩ := steps_lexAll source
  exact hsteps.unique he h hd

/-! ## Open templates -/

/-- The number of templates that are open: one around each interpolation, and the one whose text is
being read. -/
def State.depth (st : State) : Nat :=
  st.braces.length + if st.mode = .template then 1 else 0

theorem length_trackBraces (braces : List Nat) (mark : List Char) :
    (trackBraces braces mark).length = braces.length := by
  unfold trackBraces
  split
  · rfl
  · split
    · rfl
    split <;> rfl

/-- Only the marks around a template change the depth: an interpolation stands for the text around
it. -/
theorem State.depth_after {st : State} {kind : Kind} {text : List Char}
    (hopen : kind = .chevronOpen → st.mode = .code) (hends : kind.endsText → st.mode = .template)
    (hclose : kind = .beestingClose → st.mode = .code ∧ st.braces ≠ []) :
    (st.after kind text).depth + (if kind = .chevronClose then 1 else 0) =
      st.depth + (if kind = .chevronOpen then 1 else 0) := by
  rcases st with ⟨mode, braces⟩
  cases kind with
  | chevronOpen =>
    obtain rfl : mode = .code := hopen rfl
    rfl
  | chevronClose =>
    obtain rfl : mode = .template := hends rfl
    rfl
  | beestingOpen =>
    obtain rfl : mode = .template := hends rfl
    rfl
  | beestingClose =>
    obtain ⟨hmode, hne⟩ := hclose rfl
    obtain rfl : mode = .code := hmode
    obtain ⟨n, outer, rfl⟩ := List.exists_cons_of_ne_nil hne
    rfl
  | raw =>
    show (trackBraces braces text).length + _ + _ = _
    rw [length_trackBraces]
    rfl
  | _ => rfl

namespace Config

variable {c : Config}

theorem mode_of_chevronOpen (hc : c.rest ≠ []) (h : c.token.kind = .chevronOpen) :
    c.state.mode = .code := by
  cases hm : c.state.mode with
  | code => rfl
  | template =>
    rcases template_step hm hc with ⟨hk, -⟩ | ⟨hk, -⟩ | ⟨hk, -⟩ <;> simp [h, Kind.endsText] at hk

/-- A step goes one template deeper, or one back, or stays. -/
theorem depth_next (hc : c.rest ≠ []) :
    c.next.state.depth + (if c.token.kind = .chevronClose then 1 else 0) =
      c.state.depth + (if c.token.kind = .chevronOpen then 1 else 0) := by
  refine State.depth_after (mode_of_chevronOpen hc) (fun h => mode_of_part hc (.inr h)) ?_
  intro hk
  refine ⟨mode_of_code hc (.inr hk), fun hnil => ?_⟩
  have hhead := head?_of_close hc hk
  rw [hnil] at hhead
  cases hhead

end Config

/-- As many templates have been opened as have been closed and are open. -/
theorem Steps.countP_chevronOpen {source : List Char} {ts : List Token} {c : Config}
    (h : Steps (.initial source) ts c) : ts.countP (·.kind = .chevronOpen) =
      ts.countP (·.kind = .chevronClose) + c.state.depth := by
  refine h.invariant (P := fun ts c => ts.countP (·.kind = .chevronOpen) =
    ts.countP (·.kind = .chevronClose) + c.state.depth) rfl ?_
  intro us d ih hd
  have hstep := Config.depth_next hd
  simp only [List.countP_append, List.countP_singleton, decide_eq_true_eq]
  omega

theorem State.eq_of_depth {st : State} (h : st.depth = 0) : st = {} := by
  rcases st with ⟨mode, braces⟩
  simp only [State.depth, Nat.add_eq_zero_iff, List.length_eq_zero_iff] at h
  obtain ⟨rfl, hmode⟩ := h
  cases mode with
  | code => rfl
  | template => simp at hmode

/-! ## Other text behind a token -/

/-- The configuration with another text left. -/
def Config.withRest (rest : List Char) (c : Config) : Config := { c with rest := rest }

namespace Config

variable {c : Config} {rest : List Char}

/-- A lexeme is the next token where it stands, and what is behind it is left. -/
theorem step_of_lexeme {kind : Kind} {text : List Char} (h : Lexeme rest c.state.mode kind text)
    (hclose : kind = .beestingClose → c.state.braces.head? = some 0)
    (hmark : kind = .raw → text = ['}'] → c.state.braces.head? ≠ some 0) :
    (c.withRest (text ++ rest)).token = ⟨kind, text, c.offset, c.offset + text.length⟩ ∧
      (c.withRest (text ++ rest)).next =
        ⟨c.state.after kind text, c.offset + text.length, rest⟩ := by
  have htoken : (c.withRest (text ++ rest)).token =
      ⟨kind, text, c.offset, c.offset + text.length⟩ := by
    show lexeme c.state c.offset (text ++ rest) = _
    rw [lexeme, h.scan_append hclose hmark, List.take_left]
  refine ⟨htoken, ?_⟩
  rw [next, htoken]
  show Config.mk _ _ ((text ++ rest).drop text.length) = _
  rw [List.drop_left]
  rfl

/-- A token is found in front of every text in front of which it is a lexeme. -/
theorem step_withRest (hc : c.rest ≠ [])
    (h : Lexeme rest c.state.mode c.token.kind c.token.text) :
    (c.withRest (c.token.text ++ rest)).token = c.token ∧
      (c.withRest (c.token.text ++ rest)).next = c.next.withRest rest := by
  have hstep := step_of_lexeme h (head?_of_close hc) (head?_of_rightBrace hc)
  rw [← token_stop hc] at hstep
  exact hstep

end Config

/-- Steps go through a token in front of every text in front of which it is a lexeme. -/
theorem Steps.cons_withRest {c d : Config} {ts : List Token} {rest : List Char} (hc : c.rest ≠ [])
    (hlexeme : Lexeme rest c.state.mode c.token.kind c.token.text)
    (h : Steps (c.next.withRest rest) ts d) :
    Steps (c.withRest (c.token.text ++ rest)) (c.token :: ts) d := by
  obtain ⟨htoken, hnext⟩ := Config.step_withRest hc hlexeme
  have hne : (c.withRest (c.token.text ++ rest)).rest ≠ [] :=
    List.append_ne_nil_of_left_ne_nil (Config.token_text_ne_nil hc) rest
  rw [← hnext] at h
  have hcons := Steps.cons hne h
  rwa [htoken] at hcons

/-! ## In front of a cut -/

/-- The configuration with nothing left behind an offset. -/
def Config.cut (stop : Nat) (c : Config) : Config :=
  { c with rest := c.rest.take (stop - c.offset) }

/-- In front of a cut, a token has what is left behind it up to the cut. -/
theorem Config.cut_eq {c : Config} {stop : Nat} (hc : c.rest ≠ []) (hstop : c.token.stop ≤ stop) :
    c.cut stop = c.withRest (c.token.text ++ (c.next.cut stop).rest) := by
  have hend := token_stop hc
  have hrest : c.rest.take (stop - c.offset) = c.token.text ++ (c.next.cut stop).rest := by
    conv => lhs; rw [← token_text_append hc]
    rw [List.take_append, List.take_of_length_le (by omega), cut, next_offset, hend, Nat.sub_sub]
  rw [cut, hrest]
  rfl

/-- A mark that ends template text is found where it stands. -/
theorem Config.text_mem_templateMarks {c : Config} (hc : c.rest ≠ [])
    (hmode : c.state.mode = .template) (hmark : StartsWith templateMarks c.rest) :
    c.token.text ∈ templateMarks := by
  have hlexeme := token_lexeme hc
  rw [← token_text_append hc] at hmark
  rw [hmode] at hlexeme
  generalize c.token.text = text at hlexeme hmark ⊢
  generalize c.token.kind = kind at hlexeme
  cases hlexeme with
  | chevronString hne hus _ => exact absurd hmark (hus.not_startsWith hne)
  | beestingOpen => decide
  | chevronClose => decide
  | openText hne hopen hrest =>
    rw [hrest, List.append_nil] at hmark
    exact absurd hmark (hopen.not_startsWith hne)

namespace Steps

variable {c d : Config} {ts : List Token}

/-- Steps that leave template text take its mark. -/
theorem startsWith_cut (h : Steps c ts d) (hd : d.state.mode = .code)
    (hmode : c.state.mode = .template) (hmark : StartsWith templateMarks c.rest) :
    StartsWith templateMarks (c.cut d.offset).rest := by
  cases h with
  | nil =>
    rw [hmode] at hd
    cases hd
  | cons hc h =>
    have hle := h.offset_le
    rw [Config.next_offset, Config.token_stop hc] at hle
    refine ⟨c.token.text, Config.text_mem_templateMarks hc hmode hmark, ?_⟩
    rw [Config.cut, List.prefix_take_iff]
    refine ⟨?_, by omega⟩
    rw [← Config.token_text_append hc]
    exact List.prefix_append _ _

/-- Steps that end in code find the same tokens if nothing is left behind them. -/
theorem cut (h : Steps c ts d) (hd : d.state.mode = .code) :
    Steps (c.cut d.offset) ts (d.cut d.offset) := by
  induction h with
  | nil c => exact .nil _
  | @cons c d ts hc h ih =>
    have hmark : c.token.kind = .chevronString →
        StartsWith templateMarks (c.next.cut d.offset).rest := by
      intro hk
      have hmode := Config.mode_of_part hc (.inl hk)
      rcases Config.template_step hmode hc with ⟨he, -⟩ | ⟨hi, -⟩ | ⟨-, -, hnext, hmark⟩
      · simp [hk, Kind.endsText] at he
      · rw [hk] at hi
        cases hi
      · exact h.startsWith_cut hd hnext (isSome_templateMark?.1 hmark)
    have hcovers := covers_of_isPrefix (List.take_prefix (d.offset - c.next.offset) c.next.rest)
    have hlexeme := hcovers.lexeme (Config.token_lexeme hc) hmark
    rw [Config.cut_eq hc h.offset_le]
    exact cons_withRest hc hlexeme (ih hd)

end Steps

/-! ## Seams -/

/-- The number of tokens of a kind that stop at an offset or in front of it. -/
def countUpTo (kind : Kind) (k : Nat) (tokens : List Token) : Nat :=
  tokens.countP fun t => t.kind = kind ∧ t.stop ≤ k

/-- A place between tokens, or at either end of them, where every template is closed. -/
structure Seam (tokens : List Token) (k : Nat) : Prop where
  boundary : k = 0 ∨ ∃ t ∈ tokens, t.stop = k
  balanced : countUpTo .chevronOpen k tokens = countUpTo .chevronClose k tokens

/-- Where a token stops, steps pass. -/
theorem Steps.exists_split {source : List Char} {tokens : List Token} {e : Config} {k : Nat}
    (h : Steps (.initial source) tokens e) (hk : k = 0 ∨ ∃ t ∈ tokens, t.stop = k) :
    ∃ ts us d, tokens = ts ++ us ∧ Steps (.initial source) ts d ∧ Steps d us e ∧ d.offset = k := by
  rcases hk with rfl | ⟨t, ht, rfl⟩
  · exact ⟨[], tokens, .initial source, rfl, .nil _, h, rfl⟩
  · obtain ⟨ts, us, rfl⟩ := List.append_of_mem ht
    obtain ⟨c, hts, hbehind⟩ := h.split
    obtain ⟨hc, rfl, hus⟩ := hbehind.of_cons
    exact ⟨ts ++ [c.token], us, c.next, by simp, hts.append (.cons hc (.nil _)), hus, rfl⟩

/-- What stops up to the place that steps lead to is what they find. -/
theorem Steps.countUpTo_eq {c d e : Config} {ts us : List Token} (hts : Steps c ts d)
    (hus : Steps d us e) (kind : Kind) :
    countUpTo kind d.offset (ts ++ us) = ts.countP (·.kind = kind) := by
  have hfront : countUpTo kind d.offset ts = ts.countP (·.kind = kind) := by
    refine List.countP_congr fun t ht => ?_
    have := (hts.stop_bounds ht).2
    simp [this]
  have hbehind : countUpTo kind d.offset us = 0 := by
    refine List.countP_eq_zero.2 fun t ht => ?_
    have := (hus.stop_bounds ht).1
    simp [this]
  unfold countUpTo at *
  rw [List.countP_append, hfront, hbehind, Nat.add_zero]

/-- The two sides of a seam can be lexed apart. -/
theorem lexAll_cut {source : String} {k : Nat} (h : Seam (lexAll source) k) :
    lexAll source = lexAll (.ofList (source.toList.take k)) ++
      (lexAll (.ofList (source.toList.drop k))).map (Token.shift k) := by
  obtain ⟨e, hsteps, he⟩ := steps_lexAll source
  obtain ⟨ts, us, d, hsplit, hts, hus, rfl⟩ := hsteps.exists_split h.boundary
  have hstate : d.state = {} := by
    have hbalanced := h.balanced
    rw [hsplit, hts.countUpTo_eq hus, hts.countUpTo_eq hus, hts.countP_chevronOpen] at hbalanced
    exact State.eq_of_depth (Nat.add_eq_left.1 hbalanced)
  have hfront : lexAll (.ofList (source.toList.take d.offset)) = ts := by
    have hcut := hts.cut (by rw [hstate])
    refine Steps.eq_lexAll (d := d.cut d.offset) ?_ ?_
    · rw [String.toList_ofList]
      exact hcut
    · simp [Config.cut]
  have hbehind : us =
      (lexAll (.ofList (source.toList.drop d.offset))).map (Token.shift d.offset) := by
    rw [← hts.rest_eq_drop]
    obtain ⟨f, hsteps, hf⟩ := steps_lexAll (.ofList d.rest)
    rw [String.toList_ofList] at hsteps
    have hstart : (Config.initial d.rest).shift d.offset = d := by
      rw [Config.initial, Config.shift, Nat.zero_add, ← hstate]
    have hshift := hsteps.shift d.offset
    rw [hstart] at hshift
    exact hus.unique he hshift hf
  rw [hsplit, hfront, ← hbehind]

theorem lexAll_cut_between :
    Seam (lexAll "<<a#\x7bre#\x7d#g\x7db>>/<<c>>") 15 ∧
      lexAll "<<a#\x7bre#\x7d#g\x7db>>/<<c>>" =
        lexAll (.ofList ("<<a#\x7bre#\x7d#g\x7db>>/<<c>>".toList.take 15)) ++
          (lexAll (.ofList ("<<a#\x7bre#\x7d#g\x7db>>/<<c>>".toList.drop 15))).map
            (Token.shift 15) := by
  have hseam : Seam (lexAll "<<a#\x7bre#\x7d#g\x7db>>/<<c>>") 15 :=
    ⟨.inr (by decide +kernel), by decide +kernel⟩
  exact ⟨hseam, lexAll_cut hseam⟩

end Lexer

end Krl
