import Krl.Table
import Krl.Text.Edit
import Krl.Text.Hash

/-!
# Workspace

The open documents, and for each at most one result computed from it. Every operation is one step;
computing a result is not one of them, so any number of steps may lie between the snapshot that a
result is computed from and the attempt to store it. Each opening, and each edit that starts a new
computation, draws a new number, and a result is stored only if its document still has the number
and the version of the snapshot.

* `offer_of_not_open`: nothing is stored for a document that is not open.
* `lastSeq_openDocument`, `lastSeq_change`: how the numbers grow.
* `change_cases`, `offer_cases`: all that an edit and an offer can do.
-/

set_option autoImplicit false

namespace Krl

structure Document where
  text : String := ""
  /-- The version that the editor counts. -/
  version : Int := 0
  /-- The number drawn when the document was opened or last changed. -/
  seq : Nat := 0
  hash : UInt64 := 0
deriving DecidableEq, Repr

/-- What a result is computed from. -/
structure Snapshot where
  text : String
  version : Int
  seq : Nat
deriving DecidableEq, Repr

def Document.snapshot (doc : Document) : Snapshot := ⟨doc.text, doc.version, doc.seq⟩

/-- The document with edits, under a new version. -/
def Document.edit (doc : Document) (version : Int) (changes : List Text.Change) : Document :=
  { doc with
    text := String.ofList (Text.Change.applyAll changes doc.text.toList)
    version := version }

/-- Open documents with results of type `α`, and the last number drawn. -/
structure Workspace (α : Type) where
  documents : Table Document := {}
  cache : Table α := {}
  lastSeq : Nat := 0

namespace Workspace

variable {α : Type}

/-- Open a document, in place of any with its name; its result is gone. Gives the number drawn. -/
def openDocument (w : Workspace α) (uri : Uri) (version : Int) (text : String) :
    Workspace α × Nat :=
  let seq := w.lastSeq + 1
  (⟨w.documents.insert uri ⟨text, version, seq, Text.hash text⟩, w.cache.erase uri, seq⟩, seq)

/-- Edit a document; one that is not open starts empty. If the edit leaves a content with the same
hash, and there is a result, only the version changes. Otherwise gives the number drawn. -/
def change (w : Workspace α) (uri : Uri) (version : Int) (changes : List Text.Change) :
    Workspace α × Option Nat :=
  let doc := ((w.documents.get? uri).getD {}).edit version changes
  let hash := Text.hash doc.text
  if hash = doc.hash ∧ w.cache.contains uri then
    ({ w with documents := w.documents.insert uri doc }, none)
  else
    let seq := w.lastSeq + 1
    let doc := { doc with hash := hash, seq := seq }
    ({ w with documents := w.documents.insert uri doc, lastSeq := seq }, some seq)

/-- Close a document; its result is gone. -/
def close (w : Workspace α) (uri : Uri) : Workspace α :=
  { w with documents := w.documents.erase uri, cache := w.cache.erase uri }

/-- Forget the result of a document. -/
def forget (w : Workspace α) (uri : Uri) : Workspace α := { w with cache := w.cache.erase uri }

/-- What a result for the document is to be computed from. -/
def snapshot? (w : Workspace α) (uri : Uri) : Option Snapshot :=
  (w.documents.get? uri).map Document.snapshot

/-- Is this still the number and the version of the document? -/
def isCurrent (w : Workspace α) (uri : Uri) (seq : Nat) (version : Int) : Bool :=
  (w.documents.get? uri).any fun doc => doc.seq = seq && doc.version = version

/-- Keep a result if its document still has the number and the version of its snapshot, and say
whether it has. -/
def offer (w : Workspace α) (uri : Uri) (seq : Nat) (version : Int) (result : α) :
    Workspace α × Bool :=
  if w.isCurrent uri seq version then
    ({ w with cache := w.cache.insert uri result }, true)
  else (w, false)

/-! ## Facts -/

theorem offer_of_not_open {w : Workspace α} {uri : Uri} (seq : Nat) (version : Int)
    (result : α) (h : w.documents.get? uri = none) :
    w.offer uri seq version result = (w, false) := by
  simp [offer, isCurrent, h]

@[simp] theorem lastSeq_openDocument (w : Workspace α) (uri : Uri) (version : Int)
    (text : String) : (w.openDocument uri version text).1.lastSeq = w.lastSeq + 1 := rfl

@[simp] theorem documents_offer (w : Workspace α) (uri : Uri) (seq : Nat)
    (version : Int) (result : α) :
    (w.offer uri seq version result).1.documents = w.documents := by
  simp only [offer]
  split <;> rfl

theorem lastSeq_change (w : Workspace α) (uri : Uri) (version : Int)
    (changes : List Text.Change) :
    (w.change uri version changes).1.lastSeq =
      ((w.change uri version changes).2).getD w.lastSeq := by
  simp only [change]
  split <;> rfl

@[simp] theorem documents_openDocument (w : Workspace α) (uri : Uri) (version : Int)
    (text : String) : (w.openDocument uri version text).1.documents =
      w.documents.insert uri ⟨text, version, w.lastSeq + 1, Text.hash text⟩ := rfl

@[simp] theorem cache_openDocument (w : Workspace α) (uri : Uri) (version : Int)
    (text : String) : (w.openDocument uri version text).1.cache = w.cache.erase uri := rfl

@[simp] theorem documents_close (w : Workspace α) (uri : Uri) :
    (w.close uri).documents = w.documents.erase uri := rfl

@[simp] theorem cache_close (w : Workspace α) (uri : Uri) :
    (w.close uri).cache = w.cache.erase uri := rfl

@[simp] theorem documents_forget (w : Workspace α) (uri : Uri) :
    (w.forget uri).documents = w.documents := rfl

@[simp] theorem cache_forget (w : Workspace α) (uri : Uri) :
    (w.forget uri).cache = w.cache.erase uri := rfl

@[simp] theorem lastSeq_offer (w : Workspace α) (uri : Uri) (seq : Nat)
    (version : Int) (result : α) : (w.offer uri seq version result).1.lastSeq = w.lastSeq := by
  simp only [offer]
  split <;> rfl

/-- An offer is taken for a document with that number and that version, and else changes nothing. -/
theorem offer_cases (w : Workspace α) (uri : Uri) (seq : Nat) (version : Int) (result : α) :
    (∃ doc, w.documents.get? uri = some doc ∧ doc.seq = seq ∧ doc.version = version ∧
      w.offer uri seq version result = ({ w with cache := w.cache.insert uri result }, true)) ∨
    ((∀ doc, w.documents.get? uri = some doc → ¬ (doc.seq = seq ∧ doc.version = version)) ∧
      w.offer uri seq version result = (w, false)) := by
  unfold offer isCurrent
  cases hdoc : w.documents.get? uri with
  | none => exact .inr ⟨nofun, rfl⟩
  | some doc =>
    by_cases h : doc.seq = seq ∧ doc.version = version
    · exact .inl ⟨doc, rfl, h.1, h.2, by simp [h]⟩
    · refine .inr ⟨fun d hd => ?_, by simpa using h⟩
      cases hd
      exact h

/-- What an edit makes of a document, open or not. -/
def edited (w : Workspace α) (uri : Uri) (version : Int) (changes : List Text.Change) : Document :=
  ((w.documents.get? uri).getD {}).edit version changes

/-- An edit keeps number and hash if there is a result and the hash stays the same, and else draws a
number. -/
theorem change_cases (w : Workspace α) (uri : Uri) (version : Int) (changes : List Text.Change) :
    (Text.hash (w.edited uri version changes).text = (w.edited uri version changes).hash ∧
      (w.cache.get? uri).isSome ∧ w.change uri version changes =
        ({ w with documents := w.documents.insert uri (w.edited uri version changes) }, none)) ∨
    (¬ (Text.hash (w.edited uri version changes).text = (w.edited uri version changes).hash ∧
      (w.cache.get? uri).isSome) ∧ w.change uri version changes =
        ({ w with
            documents := w.documents.insert uri ⟨(w.edited uri version changes).text, version,
              w.lastSeq + 1, Text.hash (w.edited uri version changes).text⟩
            lastSeq := w.lastSeq + 1 }, some (w.lastSeq + 1))) := by
  by_cases h : Text.hash (w.edited uri version changes).text =
      (w.edited uri version changes).hash ∧ (w.cache.get? uri).isSome
  · exact .inl ⟨h.1, h.2, if_pos h⟩
  · exact .inr ⟨h, if_neg h⟩

end Workspace

end Krl
