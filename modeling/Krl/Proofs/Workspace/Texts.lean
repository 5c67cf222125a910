import Krl.Proofs.History
import Krl.Proofs.Workspace.Consistent
import Mathlib.Data.Set.Function

/-!
# The texts of a run

An edit compares hashes in place of texts, so what is proved of a run assumes that hashes tell the
texts of its documents apart. No more is assumed than that: of the texts that documents have between
two events, and of no other.

* `faithful_of_injOn`, `faithful_of_injOn_cons`: what the assumption says of one event.
* `injOn_of_forall_mem`: a check of finitely many texts establishes it.
-/

set_option autoImplicit false

namespace Krl.Workspace

variable {α σ ε : Type} {step : σ → ε → σ} {view : σ → Workspace α} {s : σ} {events : List ε}
  {e : ε}

/-- The texts that documents have in the course of a run, where `view` gives the workspace of a
state. -/
def textsOf (step : σ → ε → σ) (view : σ → Workspace α) (s : σ) (events : List ε) : Set String :=
  {text | ∃ t uri doc, Passes step s events t ∧ (view t).documents.get? uri = some doc ∧
    doc.text = text}

theorem textsOf_concat : textsOf step view s events ⊆ textsOf step view s (events ++ [e]) := by
  rintro text ⟨t, uri, doc, ht, hdoc, htext⟩
  exact ⟨t, uri, doc, ht.concat, hdoc, htext⟩

theorem faithful_of_injOn (h : Set.InjOn Text.hash (textsOf step view s (events ++ [e]))) :
    (view (events.foldl step s)).Faithful (view (step (events.foldl step s) e)) := by
  intro uri doc doc' hdoc hdoc' hhash
  exact h ⟨_, uri, doc', Passes.last_concat, hdoc', rfl⟩
    ⟨_, uri, doc, Passes.last.concat, hdoc, rfl⟩ hhash

theorem textsOf_cons : textsOf step view (step s e) events ⊆ textsOf step view s (e :: events) := by
  rintro text ⟨t, uri, doc, ht, hdoc, htext⟩
  exact ⟨t, uri, doc, ht.cons, hdoc, htext⟩

theorem faithful_of_injOn_cons (h : Set.InjOn Text.hash (textsOf step view s (e :: events))) :
    (view s).Faithful (view (step s e)) := by
  intro uri doc doc' hdoc hdoc' hhash
  exact h ⟨_, uri, doc', Passes.first.cons, hdoc', rfl⟩ ⟨_, uri, doc, Passes.first, hdoc, rfl⟩ hhash

/-- Hashes tell the texts of a run apart if they do so for a list that has all of them. -/
theorem injOn_of_forall_mem (texts : List String)
    (h : ∀ before ∈ events.inits, ∀ entry ∈ (view (before.foldl step s)).documents.entries,
      entry.2.text ∈ texts)
    (hhash : ∀ text ∈ texts, ∀ text' ∈ texts, Text.hash text = Text.hash text' → text = text') :
    Set.InjOn Text.hash (textsOf step view s events) := by
  have hmem : ∀ text ∈ textsOf step view s events, text ∈ texts := by
    rintro text ⟨t, uri, doc, ht, hdoc, rfl⟩
    exact ht.of_inits (fun t => ∀ entry ∈ (view t).documents.entries, entry.2.text ∈ texts) h
      (uri, doc) (Table.mem_of_get? hdoc)
  intro text htext text' htext' heq
  exact hhash text (hmem text htext) text' (hmem text' htext') heq

end Krl.Workspace
