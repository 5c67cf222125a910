import Krl.Workspace

/-!
# Consistent workspaces

The invariant of all that happens to a workspace (`Consistent`): hashes are those of the texts,
numbers have been drawn, and results are of open documents. It is kept by each operation.

* `Consistent.kept_cases`: an edit that draws no number is one of an open document, whose text has
  the hash that it had.
* `Advances.change`: where hashes tell texts apart, a document under the same number has the same
  text.
-/

set_option autoImplicit false

namespace Krl.Workspace

variable {α : Type}

/-- What holds of documents and results wherever the operations lead. -/
structure Consistent (w : Workspace α) : Prop where
  hash : ∀ uri doc, w.documents.get? uri = some doc → doc.hash = Text.hash doc.text
  seq_le : ∀ uri doc, w.documents.get? uri = some doc → doc.seq ≤ w.lastSeq
  cached : ∀ uri result, w.cache.get? uri = some result → (w.documents.get? uri).isSome

namespace Consistent

variable {w : Workspace α}

theorem empty : ({} : Workspace α).Consistent := ⟨nofun, nofun, nofun⟩

/-- A document is written with its hash and a number that has been drawn. -/
theorem insert (h : w.Consistent) (uri : Uri) {doc : Document} {n : Nat}
    (hhash : doc.hash = Text.hash doc.text) (hseq : doc.seq ≤ n) (hn : w.lastSeq ≤ n) :
    Consistent { w with documents := w.documents.insert uri doc, lastSeq := n } := by
  refine ⟨fun key d hd => ?_, fun key d hd => ?_, fun key result hr => ?_⟩ <;>
    simp only [Table.get?_insert] at *
  · split at hd
    · cases hd; exact hhash
    · exact h.hash key d hd
  · split at hd
    · cases hd; exact hseq
    · exact Nat.le_trans (h.seq_le key d hd) hn
  · split
    · rfl
    · exact h.cached key result hr

theorem forget (h : w.Consistent) (uri : Uri) : (w.forget uri).Consistent := by
  refine ⟨h.hash, h.seq_le, fun key result hr => h.cached key result ?_⟩
  simp only [cache_forget, Table.get?_erase] at hr
  split at hr
  · cases hr
  · exact hr

theorem openDocument (h : w.Consistent) (uri : Uri) (version : Int) (text : String) :
    (w.openDocument uri version text).1.Consistent :=
  (h.forget uri).insert uri rfl (Nat.le_refl _) (Nat.le_succ _)

theorem close (h : w.Consistent) (uri : Uri) : (w.close uri).Consistent := by
  refine ⟨fun key doc hd => ?_, fun key doc hd => ?_, fun key result hr => ?_⟩ <;>
    simp only [documents_close, cache_close, Table.get?_erase] at *
  · split at hd
    · cases hd
    · exact h.hash key doc hd
  · split at hd
    · cases hd
    · exact h.seq_le key doc hd
  · split at hr
    · cases hr
    · next hne => simpa [hne] using h.cached key result hr

/-- A result is kept for a document that is open. -/
theorem store (h : w.Consistent) {uri : Uri} {doc : Document}
    (hdoc : w.documents.get? uri = some doc) (result : α) :
    Consistent { w with cache := w.cache.insert uri result } := by
  refine ⟨h.hash, h.seq_le, fun key r hr => ?_⟩
  simp only [Table.get?_insert] at hr
  split at hr
  · next he => rw [he, hdoc]; rfl
  · exact h.cached key r hr

theorem offer (h : w.Consistent) (uri : Uri) (seq : Nat) (version : Int) (result : α) :
    (w.offer uri seq version result).1.Consistent := by
  obtain ⟨doc, hdoc, -, -, heq⟩ | ⟨-, heq⟩ := offer_cases w uri seq version result
  · rw [heq]
    exact h.store hdoc result
  · rw [heq]
    exact h

/-- An edit that draws no number is one of an open document, and leaves it a text with the hash of
the text that it had. -/
theorem kept_cases (h : w.Consistent) (uri : Uri) (version : Int) (changes : List Text.Change) :
    (∃ doc, w.documents.get? uri = some doc ∧
      Text.hash (doc.edit version changes).text = Text.hash doc.text ∧
      w.change uri version changes =
        ({ w with documents := w.documents.insert uri (doc.edit version changes) }, none)) ∨
    w.change uri version changes =
      ({ w with
          documents := w.documents.insert uri ⟨(w.edited uri version changes).text, version,
            w.lastSeq + 1, Text.hash (w.edited uri version changes).text⟩
          lastSeq := w.lastSeq + 1 }, some (w.lastSeq + 1)) := by
  obtain ⟨hhash, hcached, heq⟩ | ⟨-, heq⟩ := change_cases w uri version changes
  · obtain ⟨result, hresult⟩ := Option.isSome_iff_exists.1 hcached
    obtain ⟨doc, hdoc⟩ := Option.isSome_iff_exists.1 (h.cached uri result hresult)
    have hed : w.edited uri version changes = doc.edit version changes := by rw [edited, hdoc]; rfl
    rw [hed] at hhash heq
    exact .inl ⟨doc, hdoc, hhash.trans (h.hash uri doc hdoc), heq⟩
  · exact .inr heq

theorem change (h : w.Consistent) (uri : Uri) (version : Int) (changes : List Text.Change) :
    (w.change uri version changes).1.Consistent := by
  obtain ⟨doc, hdoc, hhash, heq⟩ | heq := h.kept_cases uri version changes
  · rw [heq]
    exact h.insert uri ((h.hash uri doc hdoc).trans hhash.symm) (h.seq_le uri doc hdoc)
      (Nat.le_refl _)
  · rw [heq]
    exact h.insert uri rfl (Nat.le_refl _) (Nat.le_succ _)

end Consistent

/-! ## What happens to documents -/

/-- A text that takes the place of one with the same hash is the same text. -/
def Faithful (w w' : Workspace α) : Prop :=
  ∀ uri doc doc', w.documents.get? uri = some doc → w'.documents.get? uri = some doc' →
    Text.hash doc'.text = Text.hash doc.text → doc'.text = doc.text

/-- Numbers are not drawn twice: a document has kept its number and then its text, or has drawn a
new one. -/
structure Advances (w w' : Workspace α) : Prop where
  lastSeq_le : w.lastSeq ≤ w'.lastSeq
  document : ∀ uri doc', w'.documents.get? uri = some doc' →
    (∃ doc, w.documents.get? uri = some doc ∧ doc'.seq = doc.seq ∧ doc'.text = doc.text) ∨
      w.lastSeq < doc'.seq

namespace Advances

variable {w w' : Workspace α}

theorem of_documents_eq (hdocs : w'.documents = w.documents) (hseq : w.lastSeq ≤ w'.lastSeq) :
    w.Advances w' :=
  ⟨hseq, fun _ doc hdoc => .inl ⟨doc, hdocs ▸ hdoc, rfl, rfl⟩⟩

/-- A document is written under a new number. -/
theorem insert (uri : Uri) (doc : Document) (hseq : doc.seq = w.lastSeq + 1)
    (hw' : w'.documents = w.documents.insert uri doc) (hlast : w'.lastSeq = w.lastSeq + 1) :
    w.Advances w' := by
  refine ⟨by omega, fun key d hd => ?_⟩
  rw [hw', Table.get?_insert] at hd
  split at hd
  · cases hd
    exact .inr (by omega)
  · exact .inl ⟨d, hd, rfl, rfl⟩

theorem close (w : Workspace α) (uri : Uri) : w.Advances (w.close uri) := by
  refine ⟨Nat.le_refl _, fun key d hd => ?_⟩
  rw [documents_close, Table.get?_erase] at hd
  split at hd
  · cases hd
  · exact .inl ⟨d, hd, rfl, rfl⟩

/-- A document is edited under its number, without a change of its text. -/
theorem edit {uri : Uri} {doc : Document} (hdoc : w.documents.get? uri = some doc) {version : Int}
    {changes : List Text.Change} (htext : (doc.edit version changes).text = doc.text) :
    w.Advances { w with documents := w.documents.insert uri (doc.edit version changes) } := by
  refine ⟨Nat.le_refl _, fun key d hd => ?_⟩
  rw [Table.get?_insert] at hd
  split at hd
  · next he =>
    cases hd
    exact .inl ⟨doc, he ▸ hdoc, rfl, htext⟩
  · exact .inl ⟨d, hd, rfl, rfl⟩

theorem change (hw : w.Consistent) (uri : Uri) (version : Int) (changes : List Text.Change)
    (hfaithful : w.Faithful (w.change uri version changes).1) :
    w.Advances (w.change uri version changes).1 := by
  obtain ⟨doc, hdoc, hhash, heq⟩ | heq := hw.kept_cases uri version changes
  · rw [heq] at hfaithful ⊢
    exact edit hdoc (hfaithful uri doc _ hdoc (Table.get?_insert_self ..) hhash)
  · rw [heq]
    exact insert uri ⟨_, version, w.lastSeq + 1, _⟩ rfl rfl rfl

end Advances

end Krl.Workspace
