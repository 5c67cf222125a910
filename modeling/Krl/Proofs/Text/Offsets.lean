import Krl.Text.LineMap
import Mathlib.Data.List.Basic

/-!
# The line of an offset

The map of a text holds where its lines start, and a binary search finds the line of an offset
among them. In ascending numbers the search tells those that an offset has reached from those that
it has not (`search_passed`); the starts ascend, and an offset has reached as many of them as there
are LFs in front of it, and one more (`starts_le_iff`).

* `line_search`: the search finds the number of LFs in front of an offset.
* `lineAt_ofChars`: the line of the offset is what a word holds of that number, and so all of it
  where words count the characters of the text (`toNat_lineAt_of_lt`).
* `lineAt_lt`, `lineAt_mono`: it is then a line of the text, and grows with the offset.
-/

set_option autoImplicit false

namespace Krl.LineMap

/-! ## Search -/

/-- How many of the numbers are not beyond the one that is sought. -/
def Slot.passed : Slot → Nat
  | .found i => i + 1
  | .before next => next

theorem Slot.line_eq (slot : Slot) : slot.line = slot.passed - 1 := by
  cases slot <;> rfl

theorem passed_le {starts : Array Nat} {offset lo hi : Nat} {h : hi ≤ starts.size}
    (hle : lo ≤ hi) : (search starts offset lo hi h).passed ≤ hi := by
  fun_induction search starts offset lo hi h with
  | case1 lo hi h hlohi mid hmid heq =>
    have hdef : mid = lo + (hi - lo) / 2 := rfl
    simp only [Slot.passed]
    omega
  | case2 lo hi h hlohi mid hmid hne hless ih => exact ih (by omega)
  | case3 lo hi h hlohi mid hmid hne hless ih =>
    have hdef : mid = lo + (hi - lo) / 2 := rfl
    exact Nat.le_trans (ih (by omega)) (by omega)
  | case4 lo hi h hlohi => exact hle

/-- The search keeps that the numbers below `lo` are not beyond the offset, and those from `hi` on
are. -/
theorem search_passed {starts : Array Nat} {offset lo hi : Nat} {h : hi ≤ starts.size}
    (hasc : starts.toList.Pairwise (· < ·)) (hle : lo ≤ hi)
    (hlo : ∀ i, (_ : i < starts.size) → i < lo → starts[i] ≤ offset)
    (hhi : ∀ i, (_ : i < starts.size) → hi ≤ i → offset < starts[i]) {i : Nat}
    (hi' : i < starts.size) : starts[i] ≤ offset ↔ i < (search starts offset lo hi h).passed := by
  have hlt : ∀ i j, (_ : i < starts.size) → (_ : j < starts.size) → i < j →
      starts[i] < starts[j] := by
    intro i j hi hj hij
    have := List.pairwise_iff_getElem.1 hasc i j (by simpa) (by simpa) hij
    rwa [Array.getElem_toList, Array.getElem_toList] at this
  fun_induction search starts offset lo hi h with
  | case1 lo hi h hlohi mid hmid heq =>
    simp only [Slot.passed]
    rcases Nat.lt_trichotomy i mid with him | rfl | him
    · have := hlt i mid hi' hmid him
      omega
    · omega
    · have := hlt mid i hmid hi' him
      omega
  | case2 lo hi h hlohi mid hmid hne hless ih =>
    have hdef : mid = lo + (hi - lo) / 2 := rfl
    refine ih (by omega) (fun j hj hjm => ?_) hhi
    rcases Nat.lt_or_eq_of_le (Nat.le_of_lt_succ hjm) with hjm | rfl
    · have := hlt j mid hj hmid hjm
      omega
    · omega
  | case3 lo hi h hlohi mid hmid hne hless ih =>
    have hdef : mid = lo + (hi - lo) / 2 := rfl
    refine ih (by omega) hlo fun j hj hmj => ?_
    rcases Nat.lt_or_eq_of_le hmj with hmj | rfl
    · have := hlt mid j hmid hj hmj
      omega
    · omega
  | case4 lo hi h hlohi =>
    simp only [Slot.passed]
    by_cases hil : i < lo
    · have := hlo i hi' hil
      omega
    · have := hhi i hi' (by omega)
      omega

/-! ## The starts of lines -/

/-- The offsets behind the LFs of a text, whose first character ends at `k`. -/
def newlines (k : Nat) (cs : List Char) : List Nat :=
  (cs.zipIdx k).filterMap fun p => if p.1 = '\n' then some p.2 else none

theorem starts_eq (cs : List Char) : (ofChars cs).starts.toList = 0 :: newlines 1 cs := rfl

theorem newlines_cons (k : Nat) (c : Char) (cs : List Char) : newlines k (c :: cs) =
    if c = '\n' then k :: newlines (k + 1) cs else newlines (k + 1) cs := by
  unfold newlines
  rw [List.zipIdx_cons, List.filterMap_cons]
  by_cases hc : c = '\n' <;> simp [hc]

theorem newlines_sublist (k : Nat) (cs : List Char) :
    (newlines k cs).Sublist (List.range' k cs.length) := by
  induction cs generalizing k with
  | nil => simp [newlines]
  | cons c cs ih =>
    rw [newlines_cons, List.length_cons, List.range'_succ]
    split
    · exact (ih (k + 1)).cons_cons k
    · exact (ih (k + 1)).cons k

theorem length_newlines (k : Nat) (cs : List Char) : (newlines k cs).length = cs.count '\n' := by
  induction cs generalizing k with
  | nil => rfl
  | cons c cs ih =>
    rw [newlines_cons, List.count_cons]
    split <;> simp [*]

/-- An offset has reached as many of the offsets behind LFs as there are LFs in front of it. -/
theorem newlines_le_iff {k i s : Nat} {cs : List Char} (h : (newlines (k + 1) cs)[i]? = some s)
    (o : Nat) : s ≤ o ↔ i < (cs.take (o - k)).count '\n' := by
  induction cs generalizing k i with
  | nil => simp [newlines] at h
  | cons c cs ih =>
    rw [newlines_cons] at h
    obtain hok | ⟨m, hm⟩ : o ≤ k ∨ ∃ m, o - k = m + 1 := by
      rcases Nat.lt_or_ge k o with hok | hok
      · exact .inr ⟨o - k - 1, by omega⟩
      · exact .inl hok
    · -- nothing is in front of the offset
      have hmem : s ∈ newlines (k + 1) (c :: cs) := by
        rw [newlines_cons]
        exact List.mem_of_getElem? h
      have := List.mem_range'_1.1 ((newlines_sublist _ _).subset hmem)
      rw [show o - k = 0 by omega]
      simp
      omega
    · rw [hm, List.take_succ_cons, List.count_cons]
      have hm' : m = o - (k + 1) := by omega
      split at h
      · rename_i hc
        subst hc
        cases i with
        | zero =>
          simp only [List.getElem?_cons_zero, Option.some.injEq] at h
          simp
          omega
        | succ i =>
          rw [ih (by simpa using h), ← hm']
          simp
      · rename_i hc
        rw [ih h, ← hm']
        simp [hc]

theorem size_ofChars (cs : List Char) : (ofChars cs).size = cs.count '\n' + 1 := by
  unfold size
  rw [← Array.length_toList, starts_eq, List.length_cons, length_newlines]

theorem ascending_starts (cs : List Char) : (ofChars cs).starts.toList.Pairwise (· < ·) := by
  rw [starts_eq, List.pairwise_cons]
  refine ⟨fun s hs => ?_, (List.pairwise_lt_range' ..).sublist (newlines_sublist 1 cs)⟩
  have := List.mem_range'_1.1 ((newlines_sublist 1 cs).subset hs)
  omega

theorem starts_le_iff {cs : List Char} {n : Nat} (h : n < (ofChars cs).starts.size) (o : Nat) :
    (ofChars cs).starts[n] ≤ o ↔ n ≤ (cs.take o).count '\n' := by
  have hget : (0 :: newlines 1 cs)[n]? = some (ofChars cs).starts[n] := by
    rw [← starts_eq]
    simp [h]
  cases n with
  | zero =>
    simp at hget
    omega
  | succ n =>
    rw [List.getElem?_cons_succ] at hget
    rw [newlines_le_iff hget, Nat.sub_zero]
    exact Nat.lt_iff_add_one_le

/-! ## Lines -/

theorem count_take_lt_size (cs : List Char) (o : Nat) :
    (cs.take o).count '\n' < (ofChars cs).size := by
  rw [size_ofChars]
  exact Nat.lt_succ_of_le ((List.take_sublist o cs).count_le _)

/-- The line that the search finds is the number of LFs in front of the offset. -/
theorem line_search (cs : List Char) (o : Nat) :
    (search (ofChars cs).starts (min o cs.length) 0 (ofChars cs).starts.size
      (Nat.le_refl _)).line = (cs.take o).count '\n' := by
  have htake : cs.take (min o cs.length) = cs.take o := by
    rw [← List.take_take, List.take_length]
  rw [Slot.line_eq, ← htake]
  generalize min o cs.length = o
  generalize hslot : search (ofChars cs).starts o 0 (ofChars cs).starts.size (Nat.le_refl _) = slot
  have hle : slot.passed ≤ (ofChars cs).starts.size := by
    rw [← hslot]
    exact passed_le (Nat.zero_le _)
  have hreached : ∀ n, n < (ofChars cs).starts.size →
      (n < slot.passed ↔ n ≤ (cs.take o).count '\n') := by
    intro n hn
    rw [← starts_le_iff hn, ← hslot]
    exact (search_passed (ascending_starts cs) (Nat.zero_le _) (by omega) (by omega) hn).symm
  have hcount : (cs.take o).count '\n' < (ofChars cs).starts.size := count_take_lt_size cs o
  have := (hreached _ hcount).2 (Nat.le_refl _)
  have := hreached (slot.passed - 1) (by omega)
  omega

/-- The line of an offset is what a word holds of the number of LFs in front of it. -/
theorem lineAt_ofChars (cs : List Char) (o : Nat) :
    (ofChars cs).lineAt o = .ofNat ((cs.take o).count '\n') :=
  congrArg UInt32.ofNat (line_search cs o)

theorem toNat_lineAt (cs : List Char) (o : Nat) :
    ((ofChars cs).lineAt o).toNat = (cs.take o).count '\n' % UInt32.size := by
  rw [lineAt_ofChars]
  exact UInt32.toNat_ofNat'

/-- The number of lines is what a word holds of the number of LFs and one more. -/
theorem toNat_lineCount (cs : List Char) :
    (ofChars cs).lineCount.toNat = (cs.count '\n' + 1) % UInt32.size := by
  rw [lineCount, size_ofChars]
  exact UInt32.toNat_ofNat'

theorem count_take_le (cs : List Char) (o : Nat) : (cs.take o).count '\n' ≤ cs.length :=
  Nat.le_trans ((List.take_sublist o cs).count_le _) List.count_le_length

section
variable {cs : List Char} (h : cs.length < UInt32.size)
include h

theorem toNat_lineAt_of_lt (o : Nat) :
    ((ofChars cs).lineAt o).toNat = (cs.take o).count '\n' := by
  rw [toNat_lineAt]
  exact Nat.mod_eq_of_lt (Nat.lt_of_le_of_lt (count_take_le cs o) h)

theorem lineAt_lt (o : Nat) : ((ofChars cs).lineAt o).toNat < (ofChars cs).size := by
  rw [toNat_lineAt_of_lt h]
  exact count_take_lt_size cs o

theorem lineAt_mono {o o' : Nat} (hle : o ≤ o') :
    (ofChars cs).lineAt o ≤ (ofChars cs).lineAt o' := by
  rw [UInt32.le_iff_toNat_le, toNat_lineAt_of_lt h, toNat_lineAt_of_lt h]
  exact (List.take_sublist_take_left hle).count_le _

end

end Krl.LineMap
