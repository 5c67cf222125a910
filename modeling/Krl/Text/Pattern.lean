/-!
# Patterns

A pattern is a list of pieces over classes of characters, and it is looked for at the end of a text.
What it means to be found there is a relation (`Matches`, `FoundAtEnd`). The reader goes backwards
from the end of the text, and tries every length that a run may have.

* `endsWith_iff`: the reader finds a pattern just where it is.
-/

set_option autoImplicit false

namespace Krl.Text

/-- A piece of a pattern: one character of a class, or any number of them. -/
inductive Piece where
  | one (p : Char → Bool)
  | many (p : Char → Bool)

/-- The text is made up of matches of the pieces, one behind the other. -/
inductive Matches : List Piece → List Char → Prop where
  | nil : Matches [] []
  | one {p : Char → Bool} {ps : List Piece} {c : Char} {cs : List Char} :
      p c = true → Matches ps cs → Matches (.one p :: ps) (c :: cs)
  | many {p : Char → Bool} {ps : List Piece} {run cs : List Char} :
      (∀ c ∈ run, p c = true) → Matches ps cs → Matches (.many p :: ps) (run ++ cs)

/-- The text ends with a match, whatever stands in front of it. -/
def FoundAtEnd (pieces : List Piece) (cs : List Char) : Prop :=
  ∃ front found, cs = front ++ found ∧ Matches pieces found

/-- Does the text start with a run of the class, of any length, and go on as `rest` accepts it? -/
def skips (p : Char → Bool) (rest : List Char → Bool) : List Char → Bool
  | [] => rest []
  | c :: cs => rest (c :: cs) || p c && skips p rest cs

/-- Does the text start with a match? -/
def startsWith : List Piece → List Char → Bool
  | [], _ => true
  | .one p :: ps, cs =>
    match cs with
    | [] => false
    | c :: cs => p c && startsWith ps cs
  | .many p :: ps, cs => skips p (startsWith ps) cs

/-- Does the text end with a match? -/
def endsWith (pieces : List Piece) (cs : List Char) : Bool :=
  startsWith pieces.reverse cs.reverse

/-! ## Facts -/

theorem Matches.append {ps qs : List Piece} {cs ds : List Char} (h : Matches ps cs)
    (h' : Matches qs ds) : Matches (ps ++ qs) (cs ++ ds) := by
  induction h with
  | nil => exact h'
  | one hc _ ih => exact .one hc ih
  | many hrun _ ih =>
    rw [List.append_assoc]
    exact .many hrun ih

theorem Matches.reverse {ps : List Piece} {cs : List Char} (h : Matches ps cs) :
    Matches ps.reverse cs.reverse := by
  induction h with
  | nil => exact .nil
  | one hc _ ih =>
    rw [List.reverse_cons, List.reverse_cons]
    exact ih.append (.one hc .nil)
  | many hrun _ ih =>
    rw [List.reverse_cons, List.reverse_append]
    refine ih.append ?_
    rw [← List.append_nil (List.reverse _)]
    exact .many (fun c hc => hrun c (List.mem_reverse.1 hc)) .nil

theorem skips_iff {p : Char → Bool} {rest : List Char → Bool} {cs : List Char} :
    skips p rest cs = true ↔
      ∃ run ds, cs = run ++ ds ∧ (∀ c ∈ run, p c = true) ∧ rest ds = true := by
  induction cs with
  | nil =>
    constructor
    · exact fun h => ⟨[], [], rfl, by simp, h⟩
    · rintro ⟨run, ds, hsplit, -, h⟩
      rw [(List.append_eq_nil_iff.1 hsplit.symm).2] at h
      exact h
  | cons c cs ih =>
    rw [skips, Bool.or_eq_true, Bool.and_eq_true, ih]
    constructor
    · rintro (h | ⟨hc, run, ds, rfl, hrun, h⟩)
      · exact ⟨[], _, rfl, by simp, h⟩
      · exact ⟨c :: run, ds, rfl, List.forall_mem_cons.2 ⟨hc, hrun⟩, h⟩
    · rintro ⟨run, ds, hsplit, hrun, h⟩
      cases run with
      | nil =>
        left
        rw [hsplit]
        exact h
      | cons d run =>
        obtain ⟨rfl, rfl⟩ := List.cons.inj hsplit
        obtain ⟨hc, hrun⟩ := List.forall_mem_cons.1 hrun
        exact .inr ⟨hc, run, ds, rfl, hrun, h⟩

theorem startsWith_iff {ps : List Piece} {cs : List Char} :
    startsWith ps cs = true ↔ ∃ found behind, cs = found ++ behind ∧ Matches ps found := by
  induction ps generalizing cs with
  | nil => exact iff_of_true rfl ⟨[], cs, rfl, .nil⟩
  | cons piece ps ih =>
    cases piece with
    | one p =>
      constructor
      · intro h
        cases cs with
        | nil => cases h
        | cons c cs =>
          rw [startsWith, Bool.and_eq_true, ih] at h
          obtain ⟨hc, found, behind, rfl, hfound⟩ := h
          exact ⟨c :: found, behind, rfl, .one hc hfound⟩
      · rintro ⟨_, behind, rfl, hfound⟩
        cases hfound with
        | one hc hfound =>
          rw [List.cons_append, startsWith, Bool.and_eq_true, ih]
          exact ⟨hc, _, behind, rfl, hfound⟩
    | many p =>
      rw [startsWith, skips_iff]
      constructor
      · rintro ⟨run, ds, rfl, hrun, h⟩
        obtain ⟨found, behind, rfl, hfound⟩ := ih.1 h
        exact ⟨run ++ found, behind, (List.append_assoc ..).symm, .many hrun hfound⟩
      · rintro ⟨_, behind, rfl, hfound⟩
        cases hfound with
        | many hrun hfound =>
          exact ⟨_, _, List.append_assoc .., hrun, ih.2 ⟨_, behind, rfl, hfound⟩⟩

/-- A pattern is found where it is: a match is read backwards as a match of the pieces backwards. -/
theorem endsWith_iff {ps : List Piece} {cs : List Char} :
    endsWith ps cs = true ↔ FoundAtEnd ps cs := by
  unfold endsWith
  rw [startsWith_iff]
  constructor
  · rintro ⟨found, behind, hsplit, hfound⟩
    refine ⟨behind.reverse, found.reverse, ?_, ?_⟩
    · rw [← List.reverse_append, ← hsplit, List.reverse_reverse]
    · have := hfound.reverse
      rwa [List.reverse_reverse] at this
  · rintro ⟨front, found, rfl, hfound⟩
    exact ⟨found.reverse, front.reverse, List.reverse_append, hfound.reverse⟩

end Krl.Text
