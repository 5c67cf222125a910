import Krl.Text.Blank
import Krl.Token

/-!
# Lexer

Cuts a source into tokens, one lexeme a step, and never fails: what no rule matches is a token of
its own kind. The rules depend on a state that the tokens themselves determine: whether template
text is being read, and how many braces are open in each interpolation.

* `scan_inBounds`: a lexeme has at least one character, all of them from the source.
* `run_eq_append`: what a run has produced so far does not influence it.
-/

set_option autoImplicit false

namespace Krl

open Token (Kind)

namespace Lexer

/-! ## Characters and marks -/

/-- Space between tokens: blanks, and the byte order mark. -/
def isSpace (c : Char) : Bool := Text.isBlank c || c = '\uFEFF'

def isIdentifierStart (c : Char) : Bool := c.isAlpha || c = '_' || c = '$'

def isIdentifierPart (c : Char) : Bool := c.isAlphanum || c = '_' || c = '$'

/-- Operators and punctuation. The first one that the text starts with is taken, so a longer one
stands before those it begins with. -/
def marks : List (List Char) :=
  [['<', '=', '>'], ['<', '='], ['<'], ['|', '|'], ['|'], ['=', '='], ['=', '>'], ['='],
    [':', '='], [':'], ['>', '='], ['>', '<'], ['>'], ['&', '&'], ['!', '='], ['('], [')'],
    ['{'], ['}'], ['['], [']'], [','], ['/'], ['.'], ['-'], ['%'], ['+'], [';'], ['*']]

/-! ## Lengths of lexemes -/

/-- The number of characters at the start of the text that have the property. -/
def runLength (p : Char → Bool) (cs : List Char) : Nat := (cs.takeWhile p).length

/-- A line comment includes the LF or CR that ends it. -/
def lineCommentLength (cs : List Char) : Nat :=
  let n := runLength (fun c => c != '\n' && c != '\r') cs
  if (cs.drop n).isEmpty then n else n + 1

/-- Where the first `*/` ends, with `n` characters in front of the text. -/
def commentEnd? (n : Nat) : List Char → Option Nat
  | [] => none
  | c :: cs => if c = '*' ∧ cs.head? = some '/' then some (n + 2) else commentEnd? (n + 1) cs

/-- Where the first `quote` ends that no backslash escapes, with `n` characters in front of the
text. -/
def closing? (quote : Char) (n : Nat) : List Char → Option Nat
  | [] => none
  | '\\' :: [] => none
  | '\\' :: _ :: cs => closing? quote (n + 2) cs
  | c :: cs => if c = quote then some (n + 1) else closing? quote (n + 1) cs

/-- Does the text start with a digit? -/
def startsWithDigit (cs : List Char) : Bool := cs.head?.any Char.isDigit

/-- Digits, and a point with more digits; the point is part of the number only in front of a
digit. -/
def numberLength (cs : List Char) : Nat :=
  let n := runLength Char.isDigit cs
  let rest := cs.drop n
  if rest.head? = some '.' ∧ startsWithDigit rest.tail then
    n + 1 + runLength Char.isDigit rest.tail
  else n

/-- The flags of a regular expression: `g` and `i`, each at most once, in either order. -/
def flagsLength : List Char → Nat
  | 'g' :: 'i' :: _ => 2
  | 'i' :: 'g' :: _ => 2
  | 'g' :: _ => 1
  | 'i' :: _ => 1
  | _ => 0

/-- Does the text start with the mark that opens an interpolation or the one that closes the
template? -/
def templateMark? (cs : List Char) : Option Kind :=
  if ['#', '{'].isPrefixOf cs then some .beestingOpen
  else if ['>', '>'].isPrefixOf cs then some .chevronClose
  else none

/-- The length of the template text up to the next mark that no backslash escapes, with `n`
characters in front of the text. -/
def templateLength (n : Nat) : List Char → Nat
  | [] => n
  | '\\' :: [] => n + 1
  | '\\' :: _ :: cs => templateLength (n + 2) cs
  | c :: cs => if (templateMark? (c :: cs)).isSome then n else templateLength (n + 1) cs

/-! ## Rules -/

/-- A lexeme that has to be closed; one that is not takes the rest of the source. -/
def closed (kind : Kind) (cs : List Char) : Option Nat → Kind × Nat
  | some n => (kind, n)
  | none => (.illegal, cs.length)

/-- The lexeme that code starts with, and its length. `braces` counts, for each interpolation from
the innermost on, the braces open in it. -/
def scanCode (braces : List Nat) (cs : List Char) : Kind × Nat :=
  if cs.head?.any isSpace then (.whitespace, runLength isSpace cs)
  else if ['/', '/'].isPrefixOf cs then (.lineComment, lineCommentLength cs)
  else if ['/', '*'].isPrefixOf cs then closed .blockComment cs (commentEnd? 2 (cs.drop 2))
  else if startsWithDigit cs then (.number, numberLength cs)
  else if cs.head? = some '.' ∧ startsWithDigit cs.tail then (.number, numberLength cs)
  else if cs.head? = some '"' then closed .string cs (closing? '"' 1 (cs.drop 1))
  else if ['r', 'e', '#'].isPrefixOf cs then
    closed .regexp cs ((closing? '#' 3 (cs.drop 3)).map fun n => n + flagsLength (cs.drop n))
  else if ['<', '<'].isPrefixOf cs then (.chevronOpen, 2)
  else if cs.head?.any isIdentifierStart then (.symbol, runLength isIdentifierPart cs)
  else if cs.head? = some '}' ∧ braces.head? = some 0 then (.beestingClose, 1)
  else match marks.find? (·.isPrefixOf cs) with
    | some mark => (.raw, mark.length)
    | none => (.illegal, 1)

/-- The lexeme that template text starts with, and its length. Text that no mark follows is not
closed. -/
def scanTemplate (cs : List Char) : Kind × Nat :=
  match templateMark? cs with
  | some kind => (kind, 2)
  | none =>
    let n := templateLength 0 cs
    if (cs.drop n).isEmpty then (.illegal, n) else (.chevronString, n)

/-! ## State -/

/-- Which rules apply: those of code or those of template text. -/
inductive Mode where
  | code
  | template
deriving DecidableEq, Repr

/-- What the tokens so far leave open: the mode, and the number of open braces in each
interpolation, the innermost first. -/
structure State where
  mode : Mode := .code
  braces : List Nat := []
deriving DecidableEq, Repr

/-- The lexeme that the text starts with, and its length. -/
def scan (st : State) (cs : List Char) : Kind × Nat :=
  match st.mode with
  | .code => scanCode st.braces cs
  | .template => scanTemplate cs

/-- One more brace, or one less, is open in the innermost interpolation. -/
def trackBraces (braces : List Nat) (mark : List Char) : List Nat :=
  match braces with
  | [] => []
  | n :: outer =>
    if mark = ['{'] then (n + 1) :: outer
    else if mark = ['}'] then (n - 1) :: outer
    else n :: outer

/-- The state behind a lexeme. An interpolation is code inside of template text. -/
def State.after (st : State) (kind : Kind) (text : List Char) : State :=
  match kind with
  | .chevronOpen => { st with mode := .template }
  | .chevronClose => { st with mode := .code }
  | .beestingOpen => ⟨.code, 0 :: st.braces⟩
  | .beestingClose => ⟨.template, st.braces.tail⟩
  | .raw => { st with braces := trackBraces st.braces text }
  | _ => st

/-! ## Facts on lengths -/

theorem runLength_le (p : Char → Bool) (cs : List Char) : runLength p cs ≤ cs.length :=
  (List.takeWhile_sublist p).length_le

theorem runLength_pos {p : Char → Bool} {cs : List Char} (h : cs.head?.any p) :
    0 < runLength p cs := by
  cases cs with
  | nil => simp at h
  | cons c cs => simp_all [runLength]

theorem commentEnd?_le {n m : Nat} {cs : List Char} (h : commentEnd? n cs = some m) :
    n < m ∧ m ≤ n + cs.length := by
  induction cs generalizing n with
  | nil => simp [commentEnd?] at h
  | cons c cs ih =>
    rw [commentEnd?] at h
    split at h
    · next hc =>
      cases cs with
      | nil => simp at hc
      | cons d cs => simp_all; omega
    · have := ih h
      simp
      omega

theorem closing?_le {quote : Char} {n m : Nat} {cs : List Char}
    (h : closing? quote n cs = some m) : n < m ∧ m ≤ n + cs.length := by
  fun_induction closing? quote n cs with
  | case1 => simp at h
  | case2 => simp at h
  | case3 n d cs ih => have := ih h; simp; omega
  | case4 => simp_all; omega
  | case5 n c cs _ _ hc ih => have := ih h; simp; omega

theorem flagsLength_le (cs : List Char) : flagsLength cs ≤ cs.length := by
  fun_cases flagsLength cs <;> simp

theorem lineCommentLength_le (cs : List Char) : lineCommentLength cs ≤ cs.length := by
  have := runLength_le (fun c => c != '\n' && c != '\r') cs
  simp only [lineCommentLength, List.isEmpty_iff, List.drop_eq_nil_iff]
  split <;> omega

theorem numberLength_le (cs : List Char) : numberLength cs ≤ cs.length := by
  have h₁ := runLength_le Char.isDigit cs
  simp only [numberLength]
  split
  · next h =>
    have h₂ := runLength_le Char.isDigit (cs.drop (runLength Char.isDigit cs)).tail
    have : (cs.drop (runLength Char.isDigit cs)) ≠ [] := by
      intro hn; simp [hn] at h
    have := List.length_pos_iff.2 this
    simp only [List.length_tail, List.length_drop] at h₂ this
    omega
  · exact h₁

theorem templateLength_le (n : Nat) (cs : List Char) :
    n ≤ templateLength n cs ∧ templateLength n cs ≤ n + cs.length := by
  fun_induction templateLength n cs <;> simp_all <;> omega

theorem length_le_of_isPrefixOf {mark cs : List Char} (h : mark.isPrefixOf cs) :
    mark.length ≤ cs.length :=
  (List.isPrefixOf_iff_prefix.1 h).length_le

/-- A lexeme of at least one character, all of them from the text. -/
def InBounds (cs : List Char) (found : Kind × Nat) : Prop := 0 < found.2 ∧ found.2 ≤ cs.length

theorem closed_inBounds {kind : Kind} {cs : List Char} {stop : Option Nat} (hcs : cs ≠ [])
    (h : ∀ n, stop = some n → 0 < n ∧ n ≤ cs.length) : InBounds cs (closed kind cs stop) := by
  cases stop with
  | none => exact ⟨List.length_pos_iff.2 hcs, Nat.le_refl _⟩
  | some n => exact h n rfl

theorem lineCommentLength_pos {cs : List Char} (h : ['/', '/'].isPrefixOf cs) :
    0 < lineCommentLength cs := by
  have : 0 < runLength (fun c => c != '\n' && c != '\r') cs := by
    apply runLength_pos
    rcases cs with _ | ⟨c, cs⟩
    · simp at h
    · have : '/' = c := by simp at h; exact h.1
      subst this
      simp
  simp only [lineCommentLength]
  split <;> omega

theorem numberLength_pos {cs : List Char}
    (h : startsWithDigit cs ∨ cs.head? = some '.' ∧ startsWithDigit cs.tail) :
    0 < numberLength cs := by
  simp only [numberLength]
  split
  · omega
  · next hr =>
    rcases h with h | h
    · exact runLength_pos h
    · cases cs with
      | nil => simp at h
      | cons c cs => simp_all [runLength]

theorem mark_pos {mark : List Char} (h : mark ∈ marks) : 0 < mark.length := by
  have : ∀ mark ∈ marks, 0 < mark.length := by decide
  exact this mark h

theorem comment_inBounds {cs : List Char} (hcs : cs ≠ []) (h : ['/', '*'].isPrefixOf cs) :
    InBounds cs (closed .blockComment cs (commentEnd? 2 (cs.drop 2))) := by
  have hlen : 2 ≤ cs.length := length_le_of_isPrefixOf h
  refine closed_inBounds hcs fun n hn => ?_
  have hn := commentEnd?_le hn
  rw [List.length_drop] at hn
  omega

theorem string_inBounds {cs : List Char} (hcs : cs ≠ []) :
    InBounds cs (closed .string cs (closing? '"' 1 (cs.drop 1))) := by
  refine closed_inBounds hcs fun n hn => ?_
  have hn := closing?_le hn
  have := List.length_pos_iff.2 hcs
  rw [List.length_drop] at hn
  omega

theorem regexp_inBounds {cs : List Char} (hcs : cs ≠ []) (h : ['r', 'e', '#'].isPrefixOf cs) :
    InBounds cs (closed .regexp cs
      ((closing? '#' 3 (cs.drop 3)).map fun n => n + flagsLength (cs.drop n))) := by
  have hlen : 3 ≤ cs.length := length_le_of_isPrefixOf h
  refine closed_inBounds hcs fun n hn => ?_
  obtain ⟨m, hm, rfl⟩ := Option.map_eq_some_iff.1 hn
  have hm := closing?_le hm
  have hf := flagsLength_le (cs.drop m)
  rw [List.length_drop] at hm hf
  omega

theorem symbol_inBounds {cs : List Char} (h : cs.head?.any isIdentifierStart) :
    InBounds cs (Kind.symbol, runLength isIdentifierPart cs) := by
  refine ⟨runLength_pos ?_, runLength_le _ _⟩
  cases cs with
  | nil => simp at h
  | cons c cs =>
    simp only [List.head?_cons, Option.any_some, isIdentifierStart, isIdentifierPart,
      Char.isAlphanum, Bool.or_eq_true] at h ⊢
    exact h.elim (fun h => .inl (h.imp .inl id)) .inr

theorem mark_inBounds {cs : List Char} (hcs : cs ≠ []) :
    InBounds cs (match marks.find? (·.isPrefixOf cs) with
      | some mark => (Kind.raw, mark.length)
      | none => (Kind.illegal, 1)) := by
  split
  · next mark h =>
    have hmark := List.find?_some h
    exact ⟨mark_pos (List.mem_of_find?_eq_some h), length_le_of_isPrefixOf hmark⟩
  · exact ⟨Nat.one_pos, List.length_pos_iff.2 hcs⟩

theorem scanCode_inBounds (braces : List Nat) {cs : List Char} (hcs : cs ≠ []) :
    InBounds cs (scanCode braces cs) := by
  apply iteInduction (motive := InBounds cs)
  · exact fun h => ⟨runLength_pos h, runLength_le _ _⟩
  intro _
  apply iteInduction (motive := InBounds cs)
  · exact fun h => ⟨lineCommentLength_pos h, lineCommentLength_le cs⟩
  intro _
  apply iteInduction (motive := InBounds cs) (comment_inBounds hcs)
  intro _
  apply iteInduction (motive := InBounds cs)
  · exact fun h => ⟨numberLength_pos (.inl h), numberLength_le cs⟩
  intro _
  apply iteInduction (motive := InBounds cs)
  · exact fun h => ⟨numberLength_pos (.inr h), numberLength_le cs⟩
  intro _
  apply iteInduction (motive := InBounds cs) fun _ => string_inBounds hcs
  intro _
  apply iteInduction (motive := InBounds cs) (regexp_inBounds hcs)
  intro _
  apply iteInduction (motive := InBounds cs)
  · exact fun h => ⟨Nat.two_pos, length_le_of_isPrefixOf h⟩
  intro _
  apply iteInduction (motive := InBounds cs) symbol_inBounds
  intro _
  apply iteInduction (motive := InBounds cs)
  · exact fun _ => ⟨Nat.one_pos, List.length_pos_iff.2 hcs⟩
  exact fun _ => mark_inBounds hcs

theorem scanTemplate_inBounds {cs : List Char} (hcs : cs ≠ []) :
    InBounds cs (scanTemplate cs) := by
  unfold scanTemplate
  split
  · next kind h =>
    refine ⟨Nat.two_pos, ?_⟩
    unfold templateMark? at h
    split at h
    · next hp => exact length_le_of_isPrefixOf hp
    split at h
    · next hp => exact length_le_of_isPrefixOf hp
    · simp at h
  · next h =>
    have hle := (templateLength_le 0 cs).2
    have hpos : 0 < templateLength 0 cs := by
      fun_cases templateLength 0 cs
      · simp at hcs
      · simp
      · exact Nat.lt_of_lt_of_le (by omega) (templateLength_le _ _).1
      · simp_all
      · exact Nat.lt_of_lt_of_le (by omega) (templateLength_le _ _).1
    exact iteInduction (motive := InBounds cs) (fun _ => ⟨hpos, by omega⟩)
      fun _ => ⟨hpos, by omega⟩

/-- A lexeme has at least one character, and no more than the text has. -/
theorem scan_inBounds (st : State) {cs : List Char} (hcs : cs ≠ []) :
    InBounds cs (scan st cs) := by
  unfold scan
  split
  · exact scanCode_inBounds _ hcs
  · exact scanTemplate_inBounds hcs

/-! ## Runs -/

/-- Which of the kinds that carry no name or value are kept. -/
structure Keep where
  whitespace : Bool
  raw : Bool
deriving DecidableEq, Repr

def Keep.accepts (keep : Keep) : Kind → Bool
  | .whitespace => keep.whitespace
  | .raw => keep.raw
  | _ => true

/-- Add a token of a kind that is kept. -/
def Keep.push (keep : Keep) (out : Array Token) (token : Token) : Array Token :=
  if keep.accepts token.kind then out.push token else out

/-- The token that the text starts with, at the offset `start`. -/
def lexeme (st : State) (start : Nat) (cs : List Char) : Token where
  kind := (scan st cs).1
  text := cs.take (scan st cs).2
  start := start
  stop := start + (scan st cs).2

/-- The tokens of the text that is left, behind those found so far. -/
def run (keep : Keep) (st : State) (start : Nat) (cs : List Char) (out : Array Token) :
    Array Token :=
  if cs = [] then out
  else
    let token := lexeme st start cs
    run keep (st.after token.kind token.text) token.stop (cs.drop token.text.length)
      (keep.push out token)
termination_by cs.length
decreasing_by
  have hcs : cs ≠ [] := by assumption
  obtain ⟨hpos, hle⟩ := scan_inBounds st hcs
  simp only [lexeme, List.length_take, List.length_drop]
  omega

theorem run_nil (keep : Keep) (st : State) (start : Nat) (out : Array Token) :
    run keep st start [] out = out := by
  rw [run, if_pos rfl]

theorem length_drop_lexeme (st : State) (start : Nat) {cs : List Char} (hcs : cs ≠ []) :
    (cs.drop (lexeme st start cs).text.length).length < cs.length := by
  obtain ⟨hpos, hle⟩ := scan_inBounds st hcs
  simp only [lexeme, List.length_take, List.length_drop]
  omega

/-- What a run has found so far does not influence it. -/
theorem run_eq_append (keep : Keep) (st : State) (start : Nat) (cs : List Char)
    (out : Array Token) : run keep st start cs out = out ++ run keep st start cs #[] := by
  induction hn : cs.length using Nat.strongRecOn generalizing st start cs out with
  | _ n ih =>
    by_cases hcs : cs = []
    · subst hcs
      simp [run_nil]
    · have hlt := length_drop_lexeme st start hcs
      have step : ∀ out, run keep st start cs out = _ := fun out => by rw [run, if_neg hcs]
      rw [step out, step #[], ih _ (hn ▸ hlt) _ _ _ _ rfl]
      conv => rhs; rw [ih _ (hn ▸ hlt) _ _ _ _ rfl]
      simp only [Keep.push]
      split <;> simp

end Lexer

/-- The tokens of a source, with whitespace and operators only where they are asked for. -/
def lex (keep : Lexer.Keep) (source : String) : List Token :=
  (Lexer.run keep {} 0 source.toList #[]).toList

/-- All tokens of a source. -/
def lexAll (source : String) : List Token := lex ⟨true, true⟩ source

/-- The tokens of a source that carry a name or a value. -/
def lexContent (source : String) : List Token := lex ⟨false, false⟩ source

end Krl
