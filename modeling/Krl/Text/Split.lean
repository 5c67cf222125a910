/-!
# Splitting texts

A text as the pieces between its separators.

* `split_ne_nil`: there is always a piece.
* `not_of_mem_split`: no piece holds a separator.
* `length_split`: each separator adds a piece.
* `split_append`: a text is cut at any of its separators.
* `intercalate_split`: putting the separator back gives the text.
-/

set_option autoImplicit false

namespace Krl.Text

/-- The pieces between separators, in order; two separators in a row have an empty one between
them. -/
def split (isSeparator : Char → Bool) (cs : List Char) : List (List Char) :=
  cs.foldr cut [[]]
where
  /-- Put a character in front of the pieces: a separator begins a new piece. -/
  cut (c : Char) : List (List Char) → List (List Char)
    | [] => if isSeparator c then [[], []] else [[c]]
    | p :: ps => if isSeparator c then [] :: p :: ps else (c :: p) :: ps

/-! ## Facts -/

@[simp] theorem split_nil (isSeparator : Char → Bool) : split isSeparator [] = [[]] := rfl

theorem split_cons (isSeparator : Char → Bool) (c : Char) (cs : List Char) :
    split isSeparator (c :: cs) = split.cut isSeparator c (split isSeparator cs) := rfl

theorem split_ne_nil (isSeparator : Char → Bool) (cs : List Char) : split isSeparator cs ≠ [] := by
  cases cs with
  | nil => simp
  | cons c cs =>
    rw [split_cons]
    unfold split.cut
    split <;> split <;> simp

theorem not_of_mem_split {isSeparator : Char → Bool} {cs p : List Char}
    (h : p ∈ split isSeparator cs) : ∀ c ∈ p, isSeparator c = false := by
  induction cs generalizing p with
  | nil => simp_all
  | cons d cs ih =>
    rw [split_cons] at h
    rcases hs : split isSeparator cs with _ | ⟨q, qs⟩
    · exact absurd hs (split_ne_nil _ _)
    · rw [hs] at h ih
      by_cases hd : isSeparator d <;> simp only [split.cut, hd, reduceIte, Bool.false_eq_true,
        List.mem_cons] at h
      · rcases h with rfl | h
        · simp
        · exact ih (List.mem_cons.2 h)
      · rcases h with rfl | h
        · intro c hc
          rcases List.mem_cons.1 hc with rfl | hc
          · simpa using hd
          · exact ih List.mem_cons_self c hc
        · exact ih (List.mem_cons_of_mem _ h)

theorem length_split (isSeparator : Char → Bool) (cs : List Char) :
    (split isSeparator cs).length = cs.countP isSeparator + 1 := by
  induction cs with
  | nil => rfl
  | cons c cs ih =>
    rw [split_cons]
    rcases hs : split isSeparator cs with _ | ⟨q, qs⟩
    · exact absurd hs (split_ne_nil _ _)
    · rw [hs] at ih
      by_cases hc : isSeparator c <;> simp_all [split.cut]

theorem split_append (isSeparator : Char → Bool) (cs : List Char) {s : Char}
    (hs : isSeparator s = true) (ds : List Char) :
    split isSeparator (cs ++ s :: ds) = split isSeparator cs ++ split isSeparator ds := by
  induction cs with
  | nil =>
    rcases hsplit : split isSeparator ds with _ | ⟨q, qs⟩
    · exact absurd hsplit (split_ne_nil _ _)
    · rw [List.nil_append, split_cons, hsplit, split.cut, if_pos hs]
      rfl
  | cons c cs ih =>
    rw [List.cons_append, split_cons, split_cons, ih]
    rcases hsplit : split isSeparator cs with _ | ⟨q, qs⟩
    · exact absurd hsplit (split_ne_nil _ _)
    · rw [List.cons_append, split.cut, split.cut]
      split <;> rfl

theorem intercalate_split (c : Char) (cs : List Char) :
    [c].intercalate (split (· = c) cs) = cs := by
  induction cs with
  | nil => rfl
  | cons d cs ih =>
    rw [split_cons]
    rcases hs : split (· = c) cs with _ | ⟨q, qs⟩
    · exact absurd hs (split_ne_nil _ _)
    · rw [hs] at ih
      by_cases hd : d = c
      · subst hd
        simp only [split.cut, decide_true, reduceIte]
        rw [List.intercalate_cons_cons, ih]
        rfl
      · simp only [split.cut, hd, decide_false, Bool.false_eq_true, reduceIte]
        rw [← ih]
        cases qs with
        | nil => simp
        | cons r qs => simp [List.intercalate_cons_cons]

end Krl.Text
