import Krl.Outline
import Krl.Proofs.Text.Offsets
import Krl.Proofs.Text.Places

/-!
# Two ways to number lines

An outline numbers lines by their LFs (`LineMap.lineAt`), and an edit by all characters that end a
line (`lineOf`). Both count what ends in front of an index: the LFs (`LineMap.toNat_lineAt`), and
the ends of lines (`lineOf_eq_countP`). Each LF is the end of a line. The number in an outline is a
word, and the other one is not.

* `lineOf_eq_lineAt_iff`: the two agree up to the first line that ends without an LF, if a word
  holds them, and from there on are as many lines apart as end so.
* `outline_astray`: a CR alone sets them apart.
-/

set_option autoImplicit false

namespace Krl.Text

section
variable {cs : List Char} {n s i j : Nat}

/-- Nothing more ends a line up to an index than up to the start of its line. -/
theorem countP_endsLine_eq (hs : lineStart? cs n = some s) (hsi : s ≤ i)
    (hnext : ∀ t ∈ lineStart? cs (n + 1), i < t) :
    (List.range i).countP (fun j => endsLine (cs.drop j)) =
      (List.range s).countP fun j => endsLine (cs.drop j) := by
  obtain ⟨k, rfl⟩ := Nat.exists_eq_add_of_le hsi
  rw [List.range_add, List.countP_append, List.countP_map, Nat.add_eq_left, List.countP_eq_zero]
  intro j hj
  have := endsLine_eq_false hs hnext (j := s + j) (by omega) (by simpa using hj)
  simp [this]

theorem countP_endsLine_lineStart (hs : lineStart? cs n = some s) :
    (List.range s).countP (fun j => endsLine (cs.drop j)) = n := by
  induction n generalizing s with
  | zero =>
    rw [lineStart?_zero] at hs
    cases hs
    rfl
  | succ n ih =>
    obtain ⟨r, hr, hrs⟩ := exists_lineStart?_le hs (Nat.le_succ n)
    obtain ⟨hlt, hend, hbefore⟩ := lineStart?_succ_eq_some hr hs
    obtain ⟨k, rfl⟩ : ∃ k, s = k + 1 := ⟨s - 1, by omega⟩
    have hline := countP_endsLine_eq hr (i := k) (by omega) fun t ht => by
      rw [hs] at ht
      cases ht
      omega
    rw [List.range_succ, List.countP_append, hline, ih hr]
    simpa using hend

/-- The line of an index is the number of lines that end in front of it. -/
theorem lineOf_eq_countP (cs : List Char) (i : Nat) :
    lineOf cs i = (List.range i).countP fun j => endsLine (cs.drop j) := by
  obtain ⟨s, hs, hsi, hnext⟩ := lineOf_spec cs i
  rw [countP_endsLine_eq hs hsi hnext, countP_endsLine_lineStart hs]

/-- Does the character at an index end a line without being an LF? -/
def strayAt (cs : List Char) (i : Nat) : Bool := endsLine (cs.drop i) && cs[i]? ≠ some '\n'

theorem endsLine_of_lf (h : cs[i]? = some '\n') : endsLine (cs.drop i) = true := by
  by_contra hend
  have := crlf_of_not_endsLine h (by decide) (Bool.eq_false_iff.2 hend)
  simp at this

/-- The lines that end in front of an index end with an LF or astray. -/
theorem countP_endsLine (cs : List Char) (i : Nat) :
    (List.range i).countP (fun j => endsLine (cs.drop j)) =
      (cs.take i).count '\n' + (List.range i).countP (strayAt cs) := by
  induction i with
  | zero => rfl
  | succ i ih =>
    rw [List.range_succ, List.countP_append, List.countP_append, ih, List.take_add_one,
      List.count_append]
    by_cases hlf : cs[i]? = some '\n'
    · simp [strayAt, hlf, endsLine_of_lf hlf]
      omega
    · have hcount : cs[i]?.toList.count '\n' = 0 := by
        rw [List.count_eq_zero]
        simpa using hlf
      simp [strayAt, hlf, hcount]
      omega

/-- Lines are numbered alike up to an index, if only LFs end the lines in front of it and a word
holds their number; each line that ends otherwise is one line more. -/
theorem lineOf_eq_lineAt_iff (cs : List Char) (i : Nat) :
    lineOf cs i = (cs.take i).count '\n' + (List.range i).countP (strayAt cs) ∧
      ((LineMap.ofChars cs).lineAt i).toNat = (cs.take i).count '\n' % UInt32.size ∧
      (((LineMap.ofChars cs).lineAt i).toNat = lineOf cs i ↔
        (∀ j < i, strayAt cs j = false) ∧ lineOf cs i < UInt32.size) := by
  have hsum : lineOf cs i = (cs.take i).count '\n' + (List.range i).countP (strayAt cs) := by
    rw [lineOf_eq_countP, countP_endsLine]
  have hline := LineMap.toNat_lineAt cs i
  refine ⟨hsum, hline, ?_⟩
  have hstray : (List.range i).countP (strayAt cs) = 0 ↔ ∀ j < i, strayAt cs j = false := by
    simp [List.countP_eq_zero]
  rw [← hstray, hline]
  constructor
  · intro h
    have hlt := Nat.mod_lt ((cs.take i).count '\n') (show 0 < UInt32.size by decide)
    have hle := Nat.mod_le ((cs.take i).count '\n') UInt32.size
    exact ⟨by omega, by omega⟩
  · rintro ⟨hnone, hlt⟩
    rw [hsum, hnone, Nat.add_zero] at hlt ⊢
    exact Nat.mod_eq_of_lt hlt

/-- A ruleset with one rule. -/
def oneRule : Node :=
  .ruleset (some (.rulesetId "a" ⟨8, 9⟩)) none [] [.rule (.identifier "b" none) [] ⟨12, 21⟩] none

/-- A CR alone ends a line, and the rule behind it is listed in the line in front of it. -/
theorem outline_astray :
    let cs := "ruleset a \x7b\rrule b {}\r\x7d".toList
    (outline (LineMap.ofChars cs) oneRule).map (fun s => (s.name, s.lines)) =
      [("a", ⟨0, 0⟩), ("b", ⟨0, 0⟩)] ∧ lineOf cs 12 = 1 ∧
      ¬ ∀ i ≤ cs.length, ((LineMap.ofChars cs).lineAt i).toNat = lineOf cs i := by
  intro cs
  have hoffset : ((LineMap.ofChars cs).lineAt 12).toNat = 0 := by decide +kernel
  have hline : lineOf cs 12 = 1 := by decide +kernel
  refine ⟨by decide +kernel, hline, fun h => ?_⟩
  have := h 12 (by decide)
  omega

end
end Krl.Text
