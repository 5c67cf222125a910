import Krl.Proofs.Text.Offsets
import Mathlib.Data.List.DropRight

/-!
# The column of an offset

The line of an offset starts as far in front of it as there are characters behind the last LF in
front of it (`start_add_length`). So line and column count characters of the text, and there is
nothing left in them of the starts and the search. They are exact where words count the characters
of the text, and all that is said about places follows from the start and the column that make up
an offset (`start_add_column`).

* `locate_ofChars`: the place of an offset, in any text.
* `locate_exact`: places are exact, ascend with offsets and tell them apart, and the search does not
  end in front of the first line. A line is below the number of lines, unless that is no word.
* `lineCount_overflow`: there is a text whose lines a word does not count.
-/

set_option autoImplicit false

namespace Krl

/-- A place is not behind another one, by line and then by column. -/
def Location.NotBehind (p q : Location) : Prop :=
  p.line < q.line ∨ p.line = q.line ∧ p.column ≤ q.column

namespace LineMap

/-! ## The last line of a text -/

/-- The characters behind the last LF of a text, or all of them if there is none. -/
def lastLine (cs : List Char) : List Char := cs.rtakeWhile (· ≠ '\n')

theorem count_lastLine (cs : List Char) : (lastLine cs).count '\n' = 0 := by
  rw [List.count_eq_zero]
  intro h
  simpa using List.mem_rtakeWhile_imp h

theorem length_lastLine_le (cs : List Char) : (lastLine cs).length ≤ cs.length :=
  (List.rtakeWhile_suffix _ cs).length_le

/-- In front of the last line there is an LF, or nothing. -/
theorem exists_eq_append_lastLine (cs : List Char) :
    ∃ front, cs = front ++ lastLine cs ∧ (front = [] ∨ ∃ before, front = before ++ ['\n']) := by
  refine ⟨cs.rdropWhile (· ≠ '\n'), (List.rdropWhile_append_rtakeWhile ..).symm, ?_⟩
  by_cases hnil : cs.rdropWhile (· ≠ '\n') = []
  · exact .inl hnil
  · have hlf : (cs.rdropWhile (· ≠ '\n')).getLast hnil = '\n' := by
      simpa using List.rdropWhile_last_not (· ≠ '\n') cs hnil
    have hconcat := List.dropLast_append_getLast hnil
    rw [hlf] at hconcat
    exact .inr ⟨_, hconcat.symm⟩

/-! ## Columns -/

/-- The line of an offset starts behind the last LF in front of the offset. -/
theorem start_add_length (cs : List Char) (o : Nat) :
    (ofChars cs).starts.getD ((cs.take o).count '\n') 0 + (lastLine (cs.take o)).length =
      min o cs.length := by
  have hsize : (cs.take o).count '\n' < (ofChars cs).starts.size := count_take_lt_size cs o
  rw [Array.getD_eq_getD_getElem?, Array.getElem?_eq_getElem hsize, Option.getD_some]
  obtain ⟨front, hsplit, hfront⟩ := exists_eq_append_lastLine (cs.take o)
  have hlength : front.length + (lastLine (cs.take o)).length = min o cs.length := by
    rw [← List.length_append, ← hsplit, List.length_take]
  have hcount : (cs.take o).count '\n' = front.count '\n' := by
    rw [hsplit, List.count_append, count_lastLine, Nat.add_zero]
  have hprefix : front <+: cs := (hsplit ▸ List.prefix_append ..).trans (List.take_prefix o cs)
  have hle : (ofChars cs).starts[(cs.take o).count '\n'] ≤ front.length := by
    rw [starts_le_iff hsize, ← List.prefix_iff_eq_take.1 hprefix, hcount]
  rcases hfront with rfl | ⟨before, rfl⟩
  · rw [List.length_nil] at hle hlength
    omega
  · -- the line does not start in front of this LF, which is one of those that are counted
    have hlt : before.length < (ofChars cs).starts[(cs.take o).count '\n'] := by
      by_contra hnot
      have hbefore := List.prefix_iff_eq_take.1 ((List.prefix_append ..).trans hprefix)
      rw [Nat.not_lt, starts_le_iff hsize, ← hbefore, hcount, List.count_append,
        List.count_singleton_self] at hnot
      omega
    rw [List.length_append, List.length_singleton] at hle hlength
    omega

/-- The place of an offset: the LFs in front of it, and the characters behind the last of them. -/
theorem locate_ofChars (cs : List Char) (o : Nat) : (ofChars cs).locate o =
    ⟨.ofNat ((cs.take o).count '\n'), .ofNat (lastLine (cs.take o)).length, min o cs.length⟩ := by
  have hstart := start_add_length cs o
  have hcolumn : min o cs.length - (ofChars cs).starts.getD ((cs.take o).count '\n') 0 =
      (lastLine (cs.take o)).length := by omega
  simp only [locate, length_ofChars, line_search, hcolumn]

/-- The search finds that an offset has reached the start of the first line. -/
theorem pos_of_search_before {cs : List Char} {o next : Nat}
    (h : search (ofChars cs).starts o 0 (ofChars cs).starts.size (Nat.le_refl _) = .before next) :
    0 < next := by
  have hsize : 0 < (ofChars cs).starts.size := by
    have := size_ofChars cs
    unfold size at this
    omega
  have hpassed : (ofChars cs).starts[0] ≤ o ↔ 0 < (Slot.before next).passed := by
    rw [← h]
    exact search_passed (ascending_starts cs) (Nat.zero_le _) (by omega) (by omega) hsize
  exact hpassed.1 ((starts_le_iff hsize o).2 (Nat.zero_le _))

section
variable {cs : List Char} (h : cs.length < UInt32.size)
include h

/-! ## Exact places -/

theorem toNat_column (o : Nat) :
    ((ofChars cs).locate o).column.toNat = (lastLine (cs.take o)).length := by
  rw [locate_ofChars]
  refine UInt32.toNat_ofNat_of_lt' (Nat.lt_of_le_of_lt ?_ h)
  exact (length_lastLine_le _).trans (List.length_take_le' o cs)

/-- The start of its line and the column of an offset make up the offset. -/
theorem start_add_column (o : Nat) :
    (ofChars cs).starts.getD ((ofChars cs).locate o).line.toNat 0 +
      ((ofChars cs).locate o).column.toNat = min o cs.length := by
  have hline : ((ofChars cs).locate o).line.toNat = (cs.take o).count '\n' :=
    toNat_lineAt_of_lt h o
  rw [hline, toNat_column h]
  exact start_add_length cs o

theorem notBehind_locate {o p : Nat} (hle : o ≤ p) :
    ((ofChars cs).locate o).NotBehind ((ofChars cs).locate p) := by
  have hline : ((ofChars cs).locate o).line ≤ ((ofChars cs).locate p).line := lineAt_mono h hle
  by_cases heq : ((ofChars cs).locate o).line = ((ofChars cs).locate p).line
  · have ho := start_add_column h o
    have hp := start_add_column h p
    rw [heq] at ho
    refine .inr ⟨heq, ?_⟩
    rw [UInt32.le_iff_toNat_le]
    omega
  · exact .inl (UInt32.lt_of_le_of_ne hline heq)

/-- Offsets in a text that have the same line and column are the same. -/
theorem eq_of_locate_eq {o p : Nat} (ho : o ≤ cs.length) (hp : p ≤ cs.length)
    (hline : ((ofChars cs).locate o).line = ((ofChars cs).locate p).line)
    (hcolumn : ((ofChars cs).locate o).column = ((ofChars cs).locate p).column) : o = p := by
  have hstarto := start_add_column h o
  have hstartp := start_add_column h p
  rw [hline, hcolumn] at hstarto
  omega

/-! ## The number of lines -/

/-- Words count the lines of a text, unless it is the longest one of LFs alone. -/
theorem count_add_one_lt_iff :
    cs.count '\n' + 1 < UInt32.size ↔ cs ≠ List.replicate (UInt32.size - 1) '\n' := by
  have hle := List.count_le_length (a := '\n') (l := cs)
  constructor
  · rintro hlt rfl
    rw [List.count_replicate_self] at hlt
    omega
  · intro hne
    by_contra hge
    have hall : cs.count '\n' = cs.length := by omega
    refine hne (List.eq_replicate_iff.2 ⟨by omega, fun c hc => ?_⟩)
    exact (List.count_eq_length.1 hall c hc).symm

theorem line_lt_lineCount_iff (o : Nat) : ((ofChars cs).locate o).line < (ofChars cs).lineCount ↔
    cs ≠ List.replicate (UInt32.size - 1) '\n' := by
  have hline : ((ofChars cs).locate o).line.toNat < (ofChars cs).size := lineAt_lt h o
  rw [size_ofChars] at hline
  refine Iff.trans ?_ (count_add_one_lt_iff h)
  rw [UInt32.lt_iff_toNat_lt, toNat_lineCount]
  have hle : cs.count '\n' + 1 ≤ UInt32.size := Nat.lt_of_le_of_lt List.count_le_length h
  rcases Nat.lt_or_eq_of_le hle with hlt | heq
  · rw [Nat.mod_eq_of_lt hlt]
    exact iff_of_true hline hlt
  · -- the number of lines is the first that is no word
    rw [heq, Nat.mod_self]
    exact iff_of_false (Nat.not_lt_zero _) (Nat.lt_irrefl _)

end

/-- In a text whose characters words count, the place of an offset counts the LFs in front of it and
the characters behind the last of them. Its line is below the number of lines, but for the one text
that has more of them than a word counts. Places ascend with offsets, and belong to one offset of
the text each. The search never ends in front of the first line. -/
theorem locate_exact {cs : List Char} (h : cs.length < UInt32.size) (o : Nat) :
    ((ofChars cs).locate o).line.toNat = (cs.take o).count '\n' ∧
    ((ofChars cs).locate o).column.toNat = (lastLine (cs.take o)).length ∧
    ((ofChars cs).locate o).offset = min o cs.length ∧
    (((ofChars cs).locate o).line < (ofChars cs).lineCount ↔
      cs ≠ List.replicate (UInt32.size - 1) '\n') ∧
    (∀ p, o ≤ p → ((ofChars cs).locate o).NotBehind ((ofChars cs).locate p)) ∧
    (∀ p, o ≤ cs.length → p ≤ cs.length →
      ((ofChars cs).locate o).line = ((ofChars cs).locate p).line →
      ((ofChars cs).locate o).column = ((ofChars cs).locate p).column → o = p) ∧
    ∀ next, search (ofChars cs).starts (min o cs.length) 0 (ofChars cs).starts.size
      (Nat.le_refl _) = .before next → 0 < next :=
  ⟨toNat_lineAt_of_lt h o, toNat_column h o, rfl, line_lt_lineCount_iff h o,
    fun _ => notBehind_locate h, fun _ => eq_of_locate_eq h, fun _ => pos_of_search_before⟩

/-- An offset behind an empty line. -/
theorem locate_exact_behind :
    let cs := "ab\n\ncd".toList
    cs.length < UInt32.size ∧ (ofChars cs).locate 5 = ⟨2, 1, 5⟩ ∧
      ((ofChars cs).locate 5).line < (ofChars cs).lineCount ∧
      ∀ p, 5 ≤ p → ((ofChars cs).locate 5).NotBehind ((ofChars cs).locate p) := by
  intro cs
  have hlength : cs.length < UInt32.size := by decide
  have hne : cs ≠ List.replicate (UInt32.size - 1) '\n' := fun heq =>
    absurd (List.eq_of_mem_replicate (heq ▸ show 'a' ∈ cs by decide)) (by decide)
  obtain ⟨-, -, -, hlt, hascend, -⟩ := locate_exact hlength 5
  exact ⟨hlength, by decide +kernel, hlt.2 hne, hascend⟩

/-- The longest text whose characters words count, all of them LFs, has one line more, and that
number is no word. What a word holds of it is zero, and no line is below that. -/
theorem lineCount_overflow :
    let cs := List.replicate (UInt32.size - 1) '\n'
    cs.length < UInt32.size ∧ (ofChars cs).size = UInt32.size ∧ (ofChars cs).lineCount = 0 ∧
      ¬ ((ofChars cs).locate 0).line < (ofChars cs).lineCount := by
  intro cs
  have hlength : cs.length < UInt32.size := by
    rw [List.length_replicate]
    decide
  have hsize : (ofChars cs).size = UInt32.size := by
    rw [size_ofChars, List.count_replicate_self]
    rfl
  have hcount : (ofChars cs).lineCount = 0 := by
    rw [lineCount, hsize]
    rfl
  refine ⟨hlength, hsize, hcount, ?_⟩
  rw [line_lt_lineCount_iff hlength]
  exact not_not_intro rfl

end LineMap
end Krl
