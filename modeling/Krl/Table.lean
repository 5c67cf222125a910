import Krl.Uri

/-!
# Tables

Values by key, in the order in which the keys were first written.

* `get?_insert`, `get?_erase`: what a write and a removal do to each key.
* `mem_entries_insert`, `mem_entries_erase`: what they do to the entries.
* `mem_of_get?`: a value that is found is one of the entries.
-/

set_option autoImplicit false

namespace Krl

/-- At most one value for each document. -/
structure Table (α : Type) where
  entries : List (Uri × α) := []

namespace Table

variable {α : Type}

def get? (t : Table α) (uri : Uri) : Option α := t.entries.lookup uri

def contains (t : Table α) (uri : Uri) : Bool := (t.get? uri).isSome

def size (t : Table α) : Nat := t.entries.length

/-- Write a value in place of the old one, or behind all others. -/
def insertEntry (uri : Uri) (value : α) : List (Uri × α) → List (Uri × α)
  | [] => [(uri, value)]
  | (u, v) :: entries =>
    if u = uri then (u, value) :: entries else (u, v) :: insertEntry uri value entries

def insert (t : Table α) (uri : Uri) (value : α) : Table α := ⟨insertEntry uri value t.entries⟩

def erase (t : Table α) (uri : Uri) : Table α := ⟨t.entries.filter fun e => e.1 ≠ uri⟩

/-! ## Facts -/

theorem lookup_cons_eq (key uri : Uri) (value : α) (entries : List (Uri × α)) :
    ((uri, value) :: entries).lookup key =
      if key = uri then some value else entries.lookup key := by
  rw [List.lookup_cons]
  by_cases h : key = uri
  · simp [h]
  · simp [h, beq_eq_false_iff_ne.2 h]

@[simp] theorem get?_empty (key : Uri) : ({} : Table α).get? key = none := rfl

theorem get?_insert (t : Table α) (uri key : Uri) (value : α) :
    (t.insert uri value).get? key = if key = uri then some value else t.get? key := by
  rcases t with ⟨entries⟩
  simp only [get?, insert]
  induction entries with
  | nil => simp [insertEntry, lookup_cons_eq]
  | cons e entries ih =>
    rcases e with ⟨u, v⟩
    simp only [insertEntry]
    split
    · next h => subst h; simp only [lookup_cons_eq]; split <;> rfl
    · next h =>
      simp only [lookup_cons_eq, ih]
      by_cases hk : key = u
      · subst hk; simp [h]
      · simp [hk]

@[simp] theorem get?_insert_self (t : Table α) (uri : Uri) (value : α) :
    (t.insert uri value).get? uri = some value := by
  simp [get?_insert]

theorem get?_insert_of_ne (t : Table α) {uri key : Uri} (h : uri ≠ key) (value : α) :
    (t.insert uri value).get? key = t.get? key := by
  rw [get?_insert, if_neg (Ne.symm h)]

theorem get?_erase (t : Table α) (uri key : Uri) :
    (t.erase uri).get? key = if key = uri then none else t.get? key := by
  rcases t with ⟨entries⟩
  simp only [get?, erase]
  induction entries with
  | nil => simp
  | cons e entries ih =>
    rcases e with ⟨u, v⟩
    by_cases h : u = uri
    · subst h
      simp only [ne_eq, decide_not, decide_true, Bool.not_true, Bool.false_eq_true,
        not_false_eq_true, List.filter_cons_of_neg] at ih ⊢
      rw [ih, lookup_cons_eq]
      by_cases hk : key = u <;> simp [hk]
    · simp only [ne_eq, decide_not, h, decide_false, Bool.not_false, List.filter_cons_of_pos]
        at ih ⊢
      rw [lookup_cons_eq, lookup_cons_eq, ih]
      by_cases hk : key = u
      · subst hk; simp [h]
      · simp [hk]

@[simp] theorem get?_erase_self (t : Table α) (uri : Uri) : (t.erase uri).get? uri = none := by
  simp [get?_erase]

theorem get?_erase_of_ne (t : Table α) {uri key : Uri} (h : uri ≠ key) :
    (t.erase uri).get? key = t.get? key := by
  rw [get?_erase, if_neg (Ne.symm h)]

/-- The entries behind a write are those before it, and one with the value that was written. -/
theorem mem_entries_insert {t : Table α} {uri : Uri} {value : α} {e : Uri × α}
    (h : e ∈ (t.insert uri value).entries) : e ∈ t.entries ∨ e.2 = value := by
  rcases t with ⟨entries⟩
  simp only [insert] at h ⊢
  induction entries with
  | nil =>
    rw [insertEntry, List.mem_singleton] at h
    exact .inr (by rw [h])
  | cons f entries ih =>
    rcases f with ⟨u, v⟩
    rw [insertEntry] at h
    split at h
    · rcases List.mem_cons.1 h with rfl | h
      · exact .inr rfl
      · exact .inl (List.mem_cons_of_mem _ h)
    · rcases List.mem_cons.1 h with rfl | h
      · exact .inl List.mem_cons_self
      · exact (ih h).imp_left (List.mem_cons_of_mem _)

theorem mem_entries_erase {t : Table α} {uri : Uri} {e : Uri × α}
    (h : e ∈ (t.erase uri).entries) : e ∈ t.entries := (List.mem_filter.1 h).1

theorem mem_of_get? {t : Table α} {uri : Uri} {value : α} (h : t.get? uri = some value) :
    (uri, value) ∈ t.entries := by
  rcases t with ⟨entries⟩
  simp only [get?] at h ⊢
  induction entries with
  | nil => simp at h
  | cons e entries ih =>
    rcases e with ⟨u, v⟩
    rw [lookup_cons_eq] at h
    split at h
    · next he =>
      cases h
      rw [he]
      exact List.mem_cons_self
    · exact List.mem_cons_of_mem _ (ih h)

end Table

end Krl
