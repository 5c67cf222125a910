import Krl.Text.Edit
import Mathlib.Algebra.BigOperators.Group.List.Basic
import Mathlib.Algebra.GroupWithZero.Nat
import Mathlib.Data.Nat.Find

/-!
# Places and changes as the protocol has them

The protocol by which an editor tells what it edits knows three line ends: LF, CRLF and CR. So what
it means by a place and by a change is said here in its own terms, over the `lines` of a text
(`offset`, `Change.revise`), and compared with what is computed (`index`, `Change.apply`). The two
agree on a place if there is in front of it none of the other characters that end a line here
(`PlainBefore`).

* `flatten_lines`, `ne_of_mem_content`, `ending_cases`: the lines are those of the text, and they
  end where the protocol has them end.
* `index_eq_offset`, `applyAll_eq_reviseAll`: the agreement on places, and on batches of changes.
-/

set_option autoImplicit false

namespace Krl.Text

/-! ## Lines -/

/-- What a line says, and how it ends. -/
structure Line where
  content : List Char
  ending : List Char
deriving DecidableEq, Repr

def Line.chars (l : Line) : List Char := l.content ++ l.ending

/-- Put a character in front of the first line. -/
def extendLine (c : Char) : List Line → List Line
  | [] => [⟨[c], []⟩]
  | l :: ls => { l with content := c :: l.content } :: ls

/-- The lines of a text. LF, CRLF and CR end a line, and nothing else does; the last line has no
end. -/
def lines : List Char → List Line
  | [] => [⟨[], []⟩]
  | '\r' :: '\n' :: cs => ⟨[], ['\r', '\n']⟩ :: lines cs
  | c :: cs => if c = '\n' ∨ c = '\r' then ⟨[], [c]⟩ :: lines cs else extendLine c (lines cs)

/-- The number of characters in front of a line. -/
def start (ls : List Line) (n : Nat) : Nat := (((ls.map Line.chars).map List.length).take n).sum

/-- The number of characters of a line in front of a column, which is counted in UTF-16 units: as
many as end by then, and none of the line's end. -/
def clamp (content : List Char) (column : Nat) : Nat :=
  Nat.findGreatest (fun k => ((content.take k).map units).sum ≤ column) content.length

/-- The character index of a place; behind the last line, that is the end of the text. -/
def offset (cs : List Char) (p : Cursor) : Nat :=
  match (lines cs)[p.line]? with
  | some l => start (lines cs) p.line + clamp l.content p.column
  | none => cs.length

/-- The text after a change: new text in place of what is between two places, or of everything. -/
def Change.revise (change : Change) (cs : List Char) : List Char :=
  match change.range with
  | none => change.text
  | some (p, q) =>
    cs.take (min (offset cs p) (offset cs q)) ++ change.text ++
      cs.drop (max (offset cs p) (offset cs q))

/-- The text after changes, each of which names places in what the previous one left. -/
def Change.reviseAll (changes : List Change) (cs : List Char) : List Char :=
  changes.foldl (fun cs change => change.revise cs) cs

/-! ## Facts about lines -/

section
variable {c : Char} {cs : List Char} {l : Line} {ls : List Line} {n : Nat}

theorem lines_ne_nil (cs : List Char) : lines cs ≠ [] := by
  fun_induction lines cs with
  | case4 c cs _ _ ih =>
    cases hls : lines cs <;> simp [extendLine]
  | _ => simp

/-- The first line of a text whose first character ends no line. -/
theorem exists_lines_cons (cs : List Char) : ∃ l ls, lines cs = l :: ls :=
  List.exists_cons_of_ne_nil (lines_ne_nil cs)

/-- A text is made of its lines. -/
theorem flatten_lines (cs : List Char) : ((lines cs).map Line.chars).flatten = cs := by
  fun_induction lines cs with
  | case1 => rfl
  | case2 cs ih => simp [Line.chars, ih]
  | case3 c cs _ _ ih => simp [Line.chars, ih]
  | case4 c cs _ _ ih =>
    obtain ⟨l, ls, hls⟩ := exists_lines_cons cs
    rw [hls] at ih ⊢
    simpa [extendLine, Line.chars] using ih

theorem ne_of_mem_content (hl : l ∈ lines cs) (hc : c ∈ l.content) : c ≠ '\n' ∧ c ≠ '\r' := by
  fun_induction lines cs generalizing l with
  | case1 => simp_all
  | case2 cs ih =>
    rcases List.mem_cons.1 hl with rfl | hl
    · cases hc
    · exact ih hl hc
  | case3 d cs _ _ ih =>
    rcases List.mem_cons.1 hl with rfl | hl
    · cases hc
    · exact ih hl hc
  | case4 d cs _ hd ih =>
    obtain ⟨k, ls, hls⟩ := exists_lines_cons cs
    rw [hls] at hl ih
    rcases List.mem_cons.1 hl with rfl | hl
    · rcases List.mem_cons.1 hc with rfl | hc
      · exact not_or.1 hd
      · exact ih List.mem_cons_self hc
    · exact ih (List.mem_cons_of_mem k hl) hc

/-- A line ends with LF, CRLF or CR; only the last one has no end. -/
theorem ending_cases (hl : (lines cs)[n]? = some l) :
    l.ending ∈ [['\n'], ['\r', '\n'], ['\r']] ∨ l.ending = [] ∧ n + 1 = (lines cs).length := by
  fun_induction lines cs generalizing n l with
  | case1 =>
    cases n with
    | zero => cases hl; exact .inr ⟨rfl, rfl⟩
    | succ n => cases hl
  | case2 cs ih =>
    cases n with
    | zero => cases hl; simp
    | succ n => simpa using ih hl
  | case3 d cs _ hd ih =>
    cases n with
    | zero => cases hl; simpa [or_comm] using hd
    | succ n => simpa using ih hl
  | case4 d cs _ _ ih =>
    obtain ⟨k, ls, hls⟩ := exists_lines_cons cs
    rw [hls] at hl ih ⊢
    cases n with
    | zero =>
      cases hl
      have hfirst := ih (n := 0) (l := k) rfl
      exact hfirst
    | succ n => exact ih hl

theorem start_cons (l : Line) (ls : List Line) (n : Nat) :
    start (l :: ls) (n + 1) = l.chars.length + start ls n := by
  simp [start]

theorem start_extendLine (c : Char) (h : ls ≠ []) (n : Nat) :
    start (extendLine c ls) (n + 1) = start ls (n + 1) + 1 := by
  obtain ⟨l, ls, rfl⟩ := List.exists_cons_of_ne_nil h
  rw [extendLine, start_cons, start_cons]
  simp only [Line.chars, List.cons_append, List.length_cons]
  omega

theorem length_extendLine (c : Char) (h : ls ≠ []) : (extendLine c ls).length = ls.length := by
  obtain ⟨l, ls, rfl⟩ := List.exists_cons_of_ne_nil h
  rfl

theorem drop_start (cs : List Char) (n : Nat) :
    cs.drop (start (lines cs) n) = (((lines cs).map Line.chars).drop n).flatten := by
  have h := List.drop_sum_flatten ((lines cs).map Line.chars) n
  rwa [flatten_lines] at h

theorem start_le (cs : List Char) (n : Nat) : start (lines cs) n ≤ cs.length := by
  have h := congrArg List.length (List.take_sum_flatten ((lines cs).map Line.chars) n)
  rw [flatten_lines, List.length_take, List.length_flatten, ← List.map_take] at h
  rw [start, ← List.map_take]
  omega

/-- What is behind the content of a line begins with the line's end, if there is anything. -/
theorem drop_start_eq (hl : (lines cs)[n]? = some l) : ∃ after,
    cs.drop (start (lines cs) n) = l.content ++ after ∧ ∀ c ∈ after.head?, c = '\n' ∨ c = '\r' := by
  obtain ⟨hn, rfl⟩ := List.getElem?_eq_some_iff.1 hl
  refine ⟨(lines cs)[n].ending ++ (((lines cs).map Line.chars).drop (n + 1)).flatten, ?_, ?_⟩
  · rw [drop_start, List.drop_eq_getElem_cons (by simpa using hn), List.flatten_cons,
      List.getElem_map, Line.chars, List.append_assoc]
  · obtain hend | ⟨hend, hlast⟩ := ending_cases hl
    · simp only [List.mem_cons, List.not_mem_nil, or_false] at hend
      rcases hend with hend | hend | hend <;> simp [hend]
    · have hnone : (((lines cs).map Line.chars).drop (n + 1)).flatten = [] := by
        rw [List.drop_eq_nil_of_le (by simp [hlast]), List.flatten_nil]
      rw [hend, hnone]
      exact nofun

end

/-! ## Agreement -/

section
variable {c : Char} {cs after content : List Char} {l : Line} {p : Cursor} {n width : Nat}

/-- No character in front of a place ends a line here and not in the protocol. -/
def PlainBefore (cs : List Char) (p : Cursor) : Prop :=
  ∀ c ∈ cs.take (offset cs p), isLineBreak c = true → c = '\n' ∨ c = '\r'

instance (cs : List Char) (p : Cursor) : Decidable (PlainBefore cs p) :=
  List.decidableBAll (fun c => isLineBreak c = true → c = '\n' ∨ c = '\r') (cs.take (offset cs p))

theorem afterLine?_cons (h : isLineBreak c = false) : afterLine? (c :: cs) = afterLine? cs := by
  have hc : c ≠ '\r' := by
    rintro rfl
    exact absurd h (by decide)
  rw [afterLine?]
  · simp [h]
  · exact fun _ he => absurd he hc

/-- Where lines end as the protocol has them end, they begin as it has them begin. -/
theorem lineFrom?_eq (h : ∀ l ∈ (lines cs).take n, ∀ c ∈ l.content, isLineBreak c = false) :
    lineFrom? n cs =
      if n < (lines cs).length then some (cs.drop (start (lines cs) n)) else none := by
  fun_induction lines cs generalizing n with
  | case1 => cases n <;> rfl
  | case2 cs ih =>
    cases n with
    | zero => rfl
    | succ n =>
      have hrest := ih fun l hl => h l (List.mem_cons_of_mem _ hl)
      -- the two characters are one line end in both
      have hstart : start (⟨[], ['\r', '\n']⟩ :: lines cs) (n + 1) = start (lines cs) n + 2 :=
        (start_cons ..).trans (Nat.add_comm ..)
      simpa [lineFrom?, afterLine?, hstart] using hrest
  | case3 c cs hcr hc ih =>
    cases n with
    | zero => rfl
    | succ n =>
      have hrest := ih fun l hl => h l (List.mem_cons_of_mem _ hl)
      have hstart : start (⟨[], [c]⟩ :: lines cs) (n + 1) = start (lines cs) n + 1 :=
        (start_cons ..).trans (Nat.add_comm ..)
      have hbreak : isLineBreak c = true := by rcases hc with rfl | rfl <;> decide
      have hafter : afterLine? (c :: cs) = some cs := by
        rw [afterLine?]
        · simp [hbreak]
        · exact hcr
      simpa [lineFrom?, hafter, hstart] using hrest
  | case4 c cs hcr hc ih =>
    have hlines := lines_ne_nil cs
    have hlength := length_extendLine c hlines
    cases n with
    | zero => simp [lineFrom?, start, hlength, List.length_pos_iff.2 hlines]
    | succ n =>
      -- a character in front of the first line moves the start of all others by one
      obtain ⟨l, ls, hls⟩ := exists_lines_cons cs
      rw [hls] at h ih hlength ⊢
      have hplain : isLineBreak c = false :=
        h { l with content := c :: l.content } List.mem_cons_self c List.mem_cons_self
      have hrest := ih (n := n + 1) fun k hk d hd => by
        rcases List.mem_cons.1 hk with rfl | hk
        · exact h _ List.mem_cons_self d (List.mem_cons_of_mem _ hd)
        · exact h k (List.mem_cons_of_mem _ hk) d hd
      rw [lineFrom?, afterLine?_cons hplain, start_extendLine c (List.cons_ne_nil l ls), hlength]
      exact hrest

/-- A count of what fits, over something that fits and the rest. -/
theorem findGreatest_succ {P : Nat → Prop} [DecidablePred P] (h : P 1) (n : Nat) :
    Nat.findGreatest P (n + 1) = Nat.findGreatest (fun k => P (k + 1)) n + 1 := by
  obtain ⟨hle, hfits, hmax⟩ :=
    Nat.findGreatest_eq_iff.1 (rfl : Nat.findGreatest (fun k => P (k + 1)) n = _)
  refine Nat.findGreatest_eq_iff.2 ⟨Nat.succ_le_succ hle, fun _ => ?_, fun k hk hkn => ?_⟩
  · by_cases hzero : Nat.findGreatest (fun k => P (k + 1)) n = 0
    · rw [hzero]
      exact h
    · exact hfits hzero
  · obtain ⟨j, rfl⟩ : ∃ j, k = j + 1 := ⟨k - 1, by omega⟩
    exact hmax (Nat.lt_of_succ_lt_succ hk) (Nat.le_of_succ_le_succ hkn)

theorem clamp_le (content : List Char) (width : Nat) : clamp content width ≤ content.length :=
  Nat.findGreatest_le _

theorem clamp_cons_of_lt (h : width < units c) (content : List Char) :
    clamp (c :: content) width = 0 := by
  refine Nat.findGreatest_eq_zero_iff.2 fun k hk _ hfits => ?_
  obtain ⟨j, rfl⟩ : ∃ j, k = j + 1 := ⟨k - 1, by omega⟩
  simp only [List.take_succ_cons, List.map_cons, List.sum_cons] at hfits
  omega

theorem clamp_cons_of_not_lt (h : ¬ width < units c) (content : List Char) :
    clamp (c :: content) width = clamp content (width - units c) + 1 := by
  have hfirst : (((c :: content).take 1).map units).sum ≤ width := by simpa using h
  have hrest : ∀ k, units c + k ≤ width ↔ k ≤ width - units c := fun k => by omega
  rw [clamp, List.length_cons, findGreatest_succ hfirst]
  simp only [clamp, List.take_succ_cons, List.map_cons, List.sum_cons, hrest]

/-- Where no character in front of a column ends the line, columns are counted as the protocol has
them counted. -/
theorem column_eq (hplain : ∀ c ∈ content.take (clamp content width), isLineBreak c = false)
    (hafter : ∀ c ∈ after.head?, c = '\n' ∨ c = '\r') :
    column width (content ++ after) = clamp content width := by
  induction content generalizing width with
  | nil =>
    cases after with
    | nil => rfl
    | cons c after =>
      have hc := hafter c rfl
      simp [column, clamp, hc, or_assoc.symm]
  | cons c content ih =>
    rw [List.cons_append, column]
    by_cases hwidth : width < units c
    · rw [if_pos (.inr (.inr hwidth)), clamp_cons_of_lt hwidth]
    · rw [clamp_cons_of_not_lt hwidth, List.take_succ_cons] at hplain
      obtain ⟨hc, hcontent⟩ := List.forall_mem_cons.1 hplain
      have hne : c ≠ '\n' ∧ c ≠ '\r' := by
        constructor <;> rintro rfl <;> exact absurd hc (by decide)
      rw [if_neg (by simp [hne, hwidth]), hc, if_neg Bool.false_ne_true, ih hcontent,
        clamp_cons_of_not_lt hwidth]

/-- What is in front of a line are the lines in front of it. -/
theorem mem_take_start {c : Char} (hl : l ∈ (lines cs).take n) (hc : c ∈ l.content) :
    c ∈ cs.take (start (lines cs) n) := by
  have h := List.take_sum_flatten ((lines cs).map Line.chars) n
  rw [flatten_lines] at h
  rw [start, h, ← List.map_take]
  exact List.mem_flatten.2 ⟨l.chars, List.mem_map_of_mem hl, List.mem_append_left _ hc⟩

theorem index_eq_offset (h : PlainBefore cs p) : index cs p = offset cs p := by
  -- LF and CR are allowed in front of the place, but are never found in what a line says
  have hplain : ∀ l ∈ lines cs, ∀ c ∈ l.content, c ∈ cs.take (offset cs p) →
      isLineBreak c = false := by
    intro l hl c hc hmem
    obtain ⟨hlf, hcr⟩ := ne_of_mem_content hl hc
    exact Bool.eq_false_iff.2 fun hbreak => (h c hmem hbreak).elim hlf hcr
  by_cases hlt : p.line < (lines cs).length
  · have hline := List.getElem?_eq_getElem hlt
    obtain ⟨after, hdrop, hafter⟩ := drop_start_eq hline
    have hoffset : offset cs p =
        start (lines cs) p.line + clamp (lines cs)[p.line].content p.column := by
      rw [offset, hline]
    have hbefore : ∀ l ∈ (lines cs).take p.line, ∀ c ∈ l.content, isLineBreak c = false := by
      intro l hl c hc
      refine hplain l (List.mem_of_mem_take hl) c hc ?_
      rw [hoffset]
      exact List.take_subset_take_left _ (Nat.le_add_right ..) (mem_take_start hl hc)
    have hwithin : ∀ c ∈ (lines cs)[p.line].content.take
        (clamp (lines cs)[p.line].content p.column), isLineBreak c = false := by
      intro c hc
      refine hplain _ (List.getElem_mem hlt) c (List.mem_of_mem_take hc) ?_
      rw [hoffset, List.take_add, hdrop]
      exact List.mem_append_right _ (List.take_append_of_le_length (clamp_le ..) ▸ hc)
    have hstart := start_le cs p.line
    rw [index, lineFrom?_eq hbefore, if_pos hlt, hoffset]
    simp only [List.length_drop]
    rw [hdrop, column_eq hwithin hafter]
    omega
  · have hoffset : offset cs p = cs.length := by
      rw [offset, List.getElem?_eq_none (Nat.le_of_not_lt hlt)]
    have hbefore : ∀ l ∈ (lines cs).take p.line, ∀ c ∈ l.content, isLineBreak c = false := by
      intro l hl c hc
      refine hplain l (List.mem_of_mem_take hl) c hc ?_
      rw [hoffset, List.take_length]
      exact List.mem_of_mem_take (mem_take_start hl hc)
    rw [index, lineFrom?_eq hbefore, if_neg hlt, hoffset]

/-- The places that a change names are plain. -/
def Change.Plain (change : Change) (cs : List Char) : Prop :=
  ∀ r ∈ change.range, PlainBefore cs r.1 ∧ PlainBefore cs r.2

/-- So are those that the changes of a batch name. -/
def PlainAll : List Change → List Char → Prop
  | [], _ => True
  | change :: changes, cs => change.Plain cs ∧ PlainAll changes (change.revise cs)

instance (change : Change) (cs : List Char) : Decidable (change.Plain cs) :=
  inferInstanceAs (Decidable (∀ r ∈ change.range, PlainBefore cs r.1 ∧ PlainBefore cs r.2))

instance decidablePlainAll : (changes : List Change) → (cs : List Char) →
    Decidable (PlainAll changes cs)
  | [], _ => .isTrue trivial
  | change :: changes, cs =>
    have := decidablePlainAll changes (change.revise cs)
    inferInstanceAs (Decidable (change.Plain cs ∧ PlainAll changes (change.revise cs)))

theorem apply_eq_revise {change : Change} (h : change.Plain cs) :
    change.apply cs = change.revise cs := by
  obtain ⟨_ | ⟨p, q⟩, text⟩ := change
  · rfl
  · obtain ⟨hp, hq⟩ := h (p, q) rfl
    simp only [Change.apply, Change.revise, index_eq_offset hp, index_eq_offset hq]

theorem applyAll_eq_reviseAll {changes : List Change} (h : PlainAll changes cs) :
    Change.applyAll changes cs = Change.reviseAll changes cs := by
  induction changes generalizing cs with
  | nil => rfl
  | cons change changes ih =>
    rw [Change.applyAll_cons, apply_eq_revise h.1]
    exact ih h.2

end

end Krl.Text
