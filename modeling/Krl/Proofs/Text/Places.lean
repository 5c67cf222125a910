import Krl.Text.Edit
import Mathlib.Algebra.GroupWithZero.Nat
import Mathlib.Data.Nat.Find

/-!
# Places of indices

An index has a place: its line is the last one that starts at or before it (`lineOf`), and its
column counts the UTF-16 units from there. A line starts behind the first character that ends the
one before (`lineStart?_succ_eq_some`), so that no character between the start of a line and an
index in it ends a line (`endsLine_eq_false`). The index is then found from its place again, unless
it is between the CR and the LF of a CRLF.

* `index_place`: the index of the place of an index.
* `index_mono`: places in order have indices in order.
* `change_at_places`: what a change replaces that names the places of two indices.
-/

set_option autoImplicit false

namespace Krl.Text

/-! ## Where lines start -/

/-- Does the first character end a line? The CR of a CRLF does not. -/
def endsLine : List Char → Bool
  | [] => false
  | '\r' :: '\n' :: _ => false
  | c :: _ => isLineBreak c

/-- The index at which a line starts, if the text has that line. -/
def lineStart? (cs : List Char) (n : Nat) : Option Nat :=
  (lineFrom? n cs).map fun rest => cs.length - rest.length

/-- The line of an index: the last one that starts at or before it. -/
def lineOf (cs : List Char) (i : Nat) : Nat :=
  Nat.findGreatest (fun n => ∃ s ∈ lineStart? cs n, s ≤ i) cs.length

/-- The place of an index: in its line, behind as many UTF-16 units as there are between the line's
start and the index. -/
def place (cs : List Char) (i : Nat) : Cursor :=
  let start := (lineStart? cs (lineOf cs i)).getD 0
  ⟨lineOf cs i, (((cs.take i).drop start).map units).sum⟩

section
variable {cs rest : List Char} {c : Char} {n s t i j : Nat}

theorem endsLine_cons (h : isLineBreak c = false) : endsLine (c :: cs) = false := by
  unfold endsLine
  split <;> simp_all

theorem afterLine?_eq_some (h : afterLine? cs = some rest) : ∃ k, rest = cs.drop (k + 1) ∧
    k < cs.length ∧ endsLine (cs.drop k) = true ∧ ∀ j < k, endsLine (cs.drop j) = false := by
  fun_induction afterLine? cs with
  | case1 => simp at h
  | case2 cs =>
    cases h
    refine ⟨1, rfl, by simp, by simp [endsLine, isLineBreak], fun j hj => ?_⟩
    obtain rfl : j = 0 := by omega
    rfl
  | case3 c cs hcrlf hc =>
    cases h
    refine ⟨0, rfl, by simp, ?_, by simp⟩
    unfold endsLine
    split <;> simp_all
  | case4 c cs hcrlf hc ih =>
    obtain ⟨k, rfl, hk, hend, hbefore⟩ := ih h
    refine ⟨k + 1, rfl, by simpa using hk, hend, fun j hj => ?_⟩
    cases j with
    | zero => exact endsLine_cons (by simpa using hc)
    | succ j => exact hbefore j (by omega)

theorem afterLine?_eq_none (h : afterLine? cs = none) (j : Nat) : endsLine (cs.drop j) = false := by
  fun_induction afterLine? cs generalizing j with
  | case1 => simp [endsLine]
  | case2 | case3 => simp at h
  | case4 c cs hcrlf hc ih =>
    cases j with
    | zero => exact endsLine_cons (by simpa using hc)
    | succ j => exact ih h j

theorem lineFrom?_succ (n : Nat) (cs : List Char) :
    lineFrom? (n + 1) cs = (lineFrom? n cs).bind afterLine? := by
  induction n generalizing cs with
  | zero => simp [lineFrom?]
  | succ n ih =>
    unfold lineFrom?
    cases afterLine? cs with
    | none => rfl
    | some rest => exact ih rest

theorem exists_lineFrom?_eq (h : lineFrom? n cs = some rest) :
    ∃ s ≤ cs.length, rest = cs.drop s := by
  induction n generalizing rest with
  | zero => cases h; exact ⟨0, Nat.zero_le _, rfl⟩
  | succ n ih =>
    rw [lineFrom?_succ] at h
    obtain ⟨mid, hmid, h⟩ := Option.bind_eq_some_iff.1 h
    obtain ⟨s, hs, rfl⟩ := ih hmid
    obtain ⟨k, rfl, hk, -⟩ := afterLine?_eq_some h
    rw [List.length_drop] at hk
    exact ⟨s + (k + 1), by omega, List.drop_drop⟩

theorem lineStart?_eq_some_iff :
    lineStart? cs n = some s ↔ s ≤ cs.length ∧ lineFrom? n cs = some (cs.drop s) := by
  unfold lineStart?
  rw [Option.map_eq_some_iff]
  constructor
  · rintro ⟨rest, hrest, rfl⟩
    obtain ⟨s, hs, rfl⟩ := exists_lineFrom?_eq hrest
    have hlen : cs.length - (cs.drop s).length = s := by rw [List.length_drop]; omega
    rw [hlen]
    exact ⟨hs, hrest⟩
  · rintro ⟨hs, hrest⟩
    exact ⟨_, hrest, by rw [List.length_drop]; omega⟩

/-- The next line starts behind the first character from here on that ends one. -/
theorem lineStart?_succ_eq_some (hs : lineStart? cs n = some s)
    (ht : lineStart? cs (n + 1) = some t) : s < t ∧ endsLine (cs.drop (t - 1)) = true ∧
      ∀ j, s ≤ j → j + 1 < t → endsLine (cs.drop j) = false := by
  obtain ⟨hle, hfrom⟩ := lineStart?_eq_some_iff.1 hs
  obtain ⟨hle', hfrom'⟩ := lineStart?_eq_some_iff.1 ht
  rw [lineFrom?_succ, hfrom, Option.bind_some] at hfrom'
  obtain ⟨k, hrest, hk, hend, hbefore⟩ := afterLine?_eq_some hfrom'
  have hlen := congrArg List.length hrest
  simp only [List.length_drop] at hlen hk
  obtain rfl : t = s + (k + 1) := by omega
  refine ⟨by omega, ?_, fun j hsj hjt => ?_⟩
  · rwa [List.drop_drop] at hend
  · have := hbefore (j - s) (by omega)
    rwa [List.drop_drop, Nat.add_sub_of_le hsj] at this

theorem lineStart?_succ_eq_none (hs : lineStart? cs n = some s)
    (ht : lineStart? cs (n + 1) = none) (hj : s ≤ j) : endsLine (cs.drop j) = false := by
  obtain ⟨hle, hfrom⟩ := lineStart?_eq_some_iff.1 hs
  unfold lineStart? at ht
  rw [Option.map_eq_none_iff, lineFrom?_succ, hfrom, Option.bind_some] at ht
  have := afterLine?_eq_none ht (j - s)
  rwa [List.drop_drop, Nat.add_sub_of_le hj] at this

/-- No character of a line ends it, up to an index that the next line does not start before. -/
theorem endsLine_eq_false (hs : lineStart? cs n = some s)
    (hnext : ∀ t ∈ lineStart? cs (n + 1), i < t) (hsj : s ≤ j) (hji : j < i) :
    endsLine (cs.drop j) = false := by
  cases ht : lineStart? cs (n + 1) with
  | none => exact lineStart?_succ_eq_none hs ht hsj
  | some t =>
    have := hnext t ht
    exact (lineStart?_succ_eq_some hs ht).2.2 j hsj (by omega)

/-- If a text has a line, it has those in front of it, and they start in front of it. -/
theorem exists_lineStart?_le (ht : lineStart? cs n = some t) {m : Nat} (hmn : m ≤ n) :
    ∃ s, lineStart? cs m = some s ∧ s + (n - m) ≤ t := by
  induction n generalizing t with
  | zero => exact ⟨t, by rwa [Nat.le_zero.1 hmn], by omega⟩
  | succ n ih =>
    rcases Nat.lt_or_eq_of_le hmn with hmn | rfl
    · obtain ⟨u, hu⟩ : ∃ u, lineStart? cs n = some u := by
        obtain ⟨-, hfrom⟩ := lineStart?_eq_some_iff.1 ht
        rw [lineFrom?_succ] at hfrom
        obtain ⟨mid, hmid, -⟩ := Option.bind_eq_some_iff.1 hfrom
        exact ⟨_, Option.map_eq_some_iff.2 ⟨mid, hmid, rfl⟩⟩
      obtain ⟨s, hs, hle⟩ := ih hu (by omega)
      have := (lineStart?_succ_eq_some hu ht).1
      exact ⟨s, hs, by omega⟩
    · exact ⟨t, ht, by omega⟩

theorem lineStart?_zero (cs : List Char) : lineStart? cs 0 = some 0 := by
  simp [lineStart?, lineFrom?]

/-- The line of an index starts at or before it, and the next line, if any, behind it. -/
theorem lineOf_spec (cs : List Char) (i : Nat) : ∃ s, lineStart? cs (lineOf cs i) = some s ∧
    s ≤ i ∧ ∀ t ∈ lineStart? cs (lineOf cs i + 1), i < t := by
  have hfirst : ∃ s ∈ lineStart? cs 0, s ≤ i := ⟨0, lineStart?_zero cs, Nat.zero_le i⟩
  obtain ⟨s, hs, hsi⟩ := Nat.findGreatest_spec (P := fun n => ∃ s ∈ lineStart? cs n, s ≤ i)
    (Nat.zero_le cs.length) hfirst
  refine ⟨s, hs, hsi, fun t ht => Nat.lt_of_not_le fun hti => ?_⟩
  obtain ⟨u, -, hu⟩ := exists_lineStart?_le ht (Nat.zero_le _)
  have hle := (lineStart?_eq_some_iff.1 ht).1
  have hlater := Nat.findGreatest_is_greatest (P := fun n => ∃ s ∈ lineStart? cs n, s ≤ i)
    (Nat.lt_succ_self (lineOf cs i)) (by omega)
  exact hlater ⟨t, ht, hti⟩

/-! ## Columns -/

theorem units_pos (c : Char) : 0 < units c := by
  unfold units
  split <;> omega

theorem units_le (c : Char) : units c ≤ 2 := by
  unfold units
  split <;> omega

theorem sum_units_le (cs : List Char) : (cs.map units).sum ≤ 2 * cs.length := by
  induction cs with
  | nil => simp
  | cons c cs ih =>
    have := units_le c
    simp
    omega

theorem column_zero (cs : List Char) : column 0 cs = 0 := by
  cases cs with
  | nil => rfl
  | cons c cs => simp [column, units_pos]

/-- A column that is counted in characters without a line break counts back. -/
theorem column_units {k : Nat} (hk : k ≤ cs.length)
    (h : ∀ c ∈ cs.take k, isLineBreak c = false) : column ((cs.take k).map units).sum cs = k := by
  induction k generalizing cs with
  | zero => simp [column_zero]
  | succ k ih =>
    cases cs with
    | nil => simp at hk
    | cons c cs =>
      rw [List.take_succ_cons] at h ⊢
      obtain ⟨hc, hcs⟩ := List.forall_mem_cons.1 h
      have hne : c ≠ '\n' ∧ c ≠ '\r' := by
        constructor <;> rintro rfl <;> simp [isLineBreak] at hc
      have := ih (by simpa using hk) hcs
      simpa [column, hc, hne, Nat.not_lt.2 (Nat.le_add_right _ _)] using this

theorem column_mono (cs : List Char) {w w' : Nat} (h : w ≤ w') : column w cs ≤ column w' cs := by
  induction cs generalizing w w' with
  | nil => simp [column]
  | cons c cs ih =>
    have := ih (Nat.sub_le_sub_right h (units c))
    by_cases hstop : c = '\n' ∨ c = '\r' ∨ w < units c
    · simp [column, hstop]
    · have hstop' : ¬ (c = '\n' ∨ c = '\r' ∨ w' < units c) :=
        fun hc => hstop (hc.imp_right (.imp_right (Nat.lt_of_le_of_lt h)))
      rw [column, column, if_neg hstop, if_neg hstop']
      split <;> omega

/-- A column ends no later than its line. -/
theorem column_add_le (h : afterLine? cs = some rest) (w : Nat) :
    column w cs + rest.length ≤ cs.length := by
  fun_induction afterLine? cs generalizing w with
  | case1 => simp at h
  | case2 cs =>
    cases h
    simp [column]
    omega
  | case3 c cs hcrlf hc =>
    cases h
    unfold column
    split
    · simp
    · simp
      omega
  | case4 c cs hcrlf hc ih =>
    have := ih h (w - units c)
    have := afterLine?_length h
    unfold column
    simp only [List.length_cons]
    split <;> omega

/-! ## Indices -/

theorem index_eq (h : lineStart? cs n = some s) (w : Nat) :
    index cs ⟨n, w⟩ = s + column w (cs.drop s) := by
  obtain ⟨hle, hfrom⟩ := lineStart?_eq_some_iff.1 h
  unfold index
  simp only [hfrom, List.length_drop]
  omega

theorem index_eq_length (h : lineStart? cs n = none) (w : Nat) : index cs ⟨n, w⟩ = cs.length := by
  unfold lineStart? at h
  unfold index
  simp [Option.map_eq_none_iff.1 h]

theorem lineHead_eq (h : lineStart? cs n = some s) (w : Nat) :
    lineHead cs ⟨n, w⟩ = (cs.take (index cs ⟨n, w⟩)).drop s := by
  rw [index_eq h, List.drop_take, Nat.add_sub_cancel_left]
  unfold lineHead
  simp [(lineStart?_eq_some_iff.1 h).2]

/-- A place in a line is not behind the start of the next one. -/
theorem index_le_lineStart (h : lineStart? cs (n + 1) = some t) (w : Nat) :
    index cs ⟨n, w⟩ ≤ t := by
  obtain ⟨s, hs, hst⟩ := exists_lineStart?_le h (Nat.le_succ n)
  obtain ⟨hle, hfrom⟩ := lineStart?_eq_some_iff.1 hs
  obtain ⟨hle', hfrom'⟩ := lineStart?_eq_some_iff.1 h
  rw [lineFrom?_succ, hfrom, Option.bind_some] at hfrom'
  have := column_add_le hfrom' w
  simp only [List.length_drop] at this
  rw [index_eq hs]
  omega

/-- One place is not behind another, by line and then by column. -/
def Cursor.NotBehind (p q : Cursor) : Prop :=
  p.line < q.line ∨ p.line = q.line ∧ p.column ≤ q.column

theorem index_mono (cs : List Char) {p q : Cursor} (h : p.NotBehind q) :
    index cs p ≤ index cs q := by
  obtain ⟨m, w⟩ := p
  obtain ⟨n, w'⟩ := q
  simp only [Cursor.NotBehind] at h
  cases ht : lineStart? cs n with
  | none =>
    rw [index_eq_length ht]
    exact index_le cs _
  | some t =>
    rcases h with hlt | ⟨rfl, hw⟩
    · obtain ⟨u, hu, hle⟩ := exists_lineStart?_le ht hlt
      calc index cs ⟨m, w⟩ ≤ u := index_le_lineStart hu w
        _ ≤ t := by omega
        _ ≤ index cs ⟨n, w'⟩ := by rw [index_eq ht]; omega
    · rw [index_eq ht, index_eq ht]
      exact Nat.add_le_add_left (column_mono _ hw) t

/-- The index lies between the CR and the LF of a CRLF. -/
def WithinCrlf (cs : List Char) (i : Nat) : Prop :=
  0 < i ∧ cs[i - 1]? = some '\r' ∧ cs[i]? = some '\n'

instance (cs : List Char) (i : Nat) : Decidable (WithinCrlf cs i) :=
  inferInstanceAs (Decidable (_ ∧ _ ∧ _))

/-- Of the line breaks, just the CR of a CRLF does not end a line. -/
theorem crlf_of_not_endsLine (h : cs[j]? = some c) (hbreak : isLineBreak c = true)
    (hend : endsLine (cs.drop j) = false) : c = '\r' ∧ cs[j + 1]? = some '\n' := by
  obtain ⟨hj, rfl⟩ := List.getElem?_eq_some_iff.1 h
  rw [List.drop_eq_getElem_cons hj] at hend
  unfold endsLine at hend
  split at hend
  · rename_i heq
    cases heq
  · rename_i heq
    simp only [List.cons.injEq] at heq
    refine ⟨heq.1, ?_⟩
    rw [← List.head?_drop, heq.2]
    rfl
  · rename_i heq
    cases heq
    rw [hbreak] at hend
    cases hend

theorem index_place (cs : List Char) (hi : i ≤ cs.length) (h : ¬ WithinCrlf cs i) :
    index cs (place cs i) = i := by
  obtain ⟨s, hs, hsi, hnext⟩ := lineOf_spec cs i
  have hline : ∀ j, s ≤ j → j < i → endsLine (cs.drop j) = false :=
    fun j => endsLine_eq_false hs hnext
  have hplain : ∀ c ∈ (cs.drop s).take (i - s), isLineBreak c = false := by
    intro c hc
    obtain ⟨k, hk, hget⟩ := List.getElem_of_mem hc
    simp only [List.getElem_take, List.getElem_drop, List.length_take, List.length_drop] at hk hget
    by_contra hbreak
    rw [Bool.not_eq_false] at hbreak
    -- only a CR in front of its LF can be there, and the LF would end the line
    obtain ⟨rfl, hlf⟩ := crlf_of_not_endsLine (List.getElem?_eq_some_iff.2 ⟨_, hget⟩) hbreak
      (hline (s + k) (by omega) (by omega))
    rcases Nat.lt_or_ge (s + k + 1) i with hlt | hge
    · have := (crlf_of_not_endsLine hlf (by decide) (hline _ (by omega) hlt)).1
      simp at this
    · obtain rfl : i = s + k + 1 := by omega
      exact h ⟨by omega, List.getElem?_eq_some_iff.2 ⟨_, hget⟩, hlf⟩
  unfold place
  simp only [hs, Option.getD_some]
  rw [index_eq hs, List.drop_take, column_units (by simp; omega) hplain]
  omega

/-- The place of an index is named by two words, if the text is not too long. -/
theorem place_lt (hlength : cs.length < 2 ^ 31) (hi : i ≤ cs.length) :
    (place cs i).line < 2 ^ 32 ∧ (place cs i).column < 2 ^ 32 := by
  obtain ⟨s, hs, hsi, -⟩ := lineOf_spec cs i
  obtain ⟨u, -, hu⟩ := exists_lineStart?_le hs (Nat.zero_le _)
  have hsum := sum_units_le ((cs.take i).drop s)
  simp only [List.length_drop, List.length_take] at hsum
  unfold place
  simp only [hs, Option.getD_some]
  omega

/-- A change between the places of two indices replaces what is between the indices, in whichever
order it names them, and nothing that is named is beyond the text: an index grows with its place up
to the text's end, and is not in front of its line. -/
theorem change_at_places (cs : List Char) :
    (cs.length < 2 ^ 31 → ∀ a b, a ≤ b → b ≤ cs.length → ¬ WithinCrlf cs a → ¬ WithinCrlf cs b →
      (∀ i ∈ [a, b], (place cs i).line < 2 ^ 32 ∧ (place cs i).column < 2 ^ 32) ∧
      ∀ text,
        Change.apply ⟨some (place cs a, place cs b), text⟩ cs = cs.take a ++ text ++ cs.drop b ∧
        Change.apply ⟨some (place cs b, place cs a), text⟩ cs = cs.take a ++ text ++ cs.drop b) ∧
    (∀ p q : Cursor, p.NotBehind q → index cs p ≤ index cs q ∧ index cs q ≤ cs.length) ∧
    ∀ p : Cursor, ∀ s ∈ lineStart? cs p.line,
      s ≤ index cs p ∧ lineHead cs p = (cs.take (index cs p)).drop s := by
  refine ⟨fun hlength a b hab hb hacr hbcr => ⟨?_, fun text => ?_⟩, ?_, ?_⟩
  · intro i hi
    simp only [List.mem_cons, List.not_mem_nil, or_false] at hi
    exact place_lt hlength (by omega)
  · have ha := index_place cs (Nat.le_trans hab hb) hacr
    have hb := index_place cs hb hbcr
    unfold Change.apply
    simp only [ha, hb]
    rw [Nat.min_eq_left hab, Nat.max_eq_right hab, Nat.min_eq_right hab, Nat.max_eq_left hab]
    exact ⟨rfl, rfl⟩
  · exact fun p q h => ⟨index_mono cs h, index_le cs q⟩
  · intro p s hs
    refine ⟨?_, lineHead_eq hs p.column⟩
    show s ≤ index cs ⟨p.line, p.column⟩
    rw [index_eq hs]
    omega

/-- A text with a surrogate pair, a CRLF and a vertical tab, changed from behind the first to behind
the last of them. -/
theorem change_at_places_mixed :
    let cs := "a😀\r\nb\x0bc".toList
    cs.length < 2 ^ 31 ∧ 2 ≤ 6 ∧ 6 ≤ cs.length ∧ ¬ WithinCrlf cs 2 ∧ ¬ WithinCrlf cs 6 ∧
      place cs 2 = ⟨0, 3⟩ ∧ place cs 6 = ⟨2, 0⟩ ∧
      Change.apply ⟨some (⟨2, 0⟩, ⟨0, 3⟩), ['d']⟩ cs = "a😀dc".toList ∧
      Cursor.NotBehind ⟨0, 2⟩ ⟨0, 9⟩ ∧ index cs ⟨0, 2⟩ ≤ index cs ⟨0, 9⟩ ∧
      lineStart? cs 1 = some 4 ∧ lineHead cs ⟨1, 9⟩ = (cs.take (index cs ⟨1, 9⟩)).drop 4 := by
  intro cs
  have hlength : cs.length < 2 ^ 31 := by decide
  have hcr : ¬ WithinCrlf cs 2 ∧ ¬ WithinCrlf cs 6 := by decide
  have htwo : place cs 2 = ⟨0, 3⟩ := by decide +kernel
  have hsix : place cs 6 = ⟨2, 0⟩ := by decide +kernel
  have hbefore : Cursor.NotBehind ⟨0, 2⟩ ⟨0, 9⟩ := .inr ⟨rfl, by decide⟩
  have hstart : lineStart? cs 1 = some 4 := by decide
  obtain ⟨hchange, hindex, hhead⟩ := change_at_places cs
  have happly := (hchange hlength 2 6 (by decide) (by decide) hcr.1 hcr.2).2 ['d']
  rw [htwo, hsix] at happly
  exact ⟨hlength, by decide, by decide, hcr.1, hcr.2, htwo, hsix, happly.2, hbefore,
    (hindex _ _ hbefore).1, hstart, (hhead ⟨1, 9⟩ 4 hstart).2⟩

end

end Krl.Text
