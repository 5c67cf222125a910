import Krl.Proofs.Workspace.Interleaving
import Krl.Proofs.Workspace.Texts
import Mathlib.Data.List.Induction

/-!
# Stale results are not kept

An offer is decided by number and version alone, while the text of a document may change in between
in any way. It is sound since numbers are drawn once: an analysis in flight that has the number of
its document has its text (`Tracked`). The invariant is established where nothing has happened and
kept by each step (`Tracked.advance`), as long as an edit that draws no number leaves the text as it
was, and so where hashes tell the texts apart (`Tracked.step`).

* `offer_of_current_text`: an offer is taken only for the text that the document has at that moment,
  and each result was computed from a text that its document has had since it was opened.
-/

set_option autoImplicit false

namespace Krl.Workspace.Activity

variable {α : Type}

/-! ## Steps -/

/-- What holds of a workspace and of the analyses in flight, wherever the steps lead. -/
structure Tracked (s : Activity α) : Prop where
  consistent : s.workspace.Consistent
  seq_le : ∀ f ∈ s.flights, f.snapshot.seq ≤ s.workspace.lastSeq
  text_eq : ∀ f ∈ s.flights, ∀ doc, s.workspace.documents.get? f.uri = some doc →
    doc.seq = f.snapshot.seq → doc.text = f.snapshot.text

theorem consistent_step {s : Activity α} (h : s.workspace.Consistent) (a : Action α) :
    (s.step a).workspace.Consistent := by
  have hop := s.step_operation a
  generalize (s.step a).workspace = w at hop ⊢
  cases hop with
  | opened uri version text => exact h.openDocument uri version text
  | changed uri version changes => exact h.change uri version changes
  | closed uri => exact h.close uri
  | refreshed uri => exact h.forget uri
  | finished _ => exact h.offer ..
  | none _ => exact h

/-- Numbers are not drawn twice, as long as an edit draws a number or leaves the text as it was. -/
theorem advances_step (s : Activity α) (a : Action α)
    (hchanged : ∀ uri version changes, a = .changed uri version changes →
      s.workspace.Advances (s.workspace.change uri version changes).1) :
    s.workspace.Advances (s.step a).workspace := by
  have hop := s.step_operation a
  generalize (s.step a).workspace = w at hop ⊢
  cases hop with
  | opened uri version text =>
    exact .insert uri ⟨text, version, s.workspace.lastSeq + 1, Text.hash text⟩ rfl rfl rfl
  | changed uri version changes => exact hchanged uri version changes rfl
  | closed uri => exact .close s.workspace uri
  | refreshed uri => exact .of_documents_eq rfl (Nat.le_refl _)
  | finished _ => exact .of_documents_eq (documents_offer ..) (Nat.le_of_eq (lastSeq_offer ..).symm)
  | none _ => exact .of_documents_eq rfl (Nat.le_refl _)

/-- A step keeps what holds of the analyses in flight: a document that has drawn a new number has
one that none of them has. -/
theorem Tracked.advance {s : Activity α} (h : s.Tracked) (a : Action α)
    (hadv : s.workspace.Advances (s.step a).workspace) : (s.step a).Tracked := by
  refine ⟨consistent_step h.consistent a, fun f hf => ?_, fun f hf doc hdoc hseq => ?_⟩
  · rcases mem_flights_step hf with hf | ⟨-, hsnap, -⟩
    · exact Nat.le_trans (h.seq_le f hf) hadv.lastSeq_le
    · obtain ⟨doc, hdoc, hs⟩ := Option.map_eq_some_iff.1 hsnap
      rw [← hs]
      exact Nat.le_trans (h.consistent.seq_le f.uri doc hdoc) hadv.lastSeq_le
  · rcases mem_flights_step hf with hf | ⟨hsame, hsnap, -⟩
    · rcases hadv.document f.uri doc hdoc with ⟨d, hd, hdseq, hdtext⟩ | hnew
      · rw [hdtext]
        exact h.text_eq f hf d hd (hdseq ▸ hseq)
      · have := h.seq_le f hf
        omega
    · obtain ⟨d, hd, hs⟩ := Option.map_eq_some_iff.1 hsnap
      rw [hsame, hd] at hdoc
      cases hdoc
      rw [← hs]
      rfl

theorem Tracked.step {s : Activity α} (h : s.Tracked) (a : Action α)
    (hfaithful : s.workspace.Faithful (s.step a).workspace) : (s.step a).Tracked := by
  refine h.advance a (advances_step s a ?_)
  rintro uri version changes rfl
  rw [Activity.step, workspace_adopt] at hfaithful
  exact .change h.consistent uri version changes hfaithful

/-- A result was there before and its document has neither been opened nor closed, or it has just
been offered by an analysis in flight, and taken. -/
theorem cache_step {s : Activity α} {a : Action α} {uri : Uri} {result : α}
    (h : (s.step a).workspace.cache.get? uri = some result) :
    (s.workspace.cache.get? uri = some result ∧ ¬ a.opensOrCloses uri) ∨
      ∃ f ∈ s.flights, f.uri = uri ∧ f.result = result ∧ (f.offer s.workspace).2 = true ∧
        (s.step a).workspace.documents = s.workspace.documents := by
  have hop := s.step_operation a
  generalize (s.step a).workspace = w at h hop ⊢
  cases hop with
  | opened u version text =>
    rw [cache_openDocument, Table.get?_erase] at h
    split at h
    · cases h
    · next hne => exact .inl ⟨h, fun he => hne he.symm⟩
  | changed u version changes =>
    refine .inl ⟨?_, id⟩
    obtain ⟨-, -, heq⟩ | ⟨-, heq⟩ := change_cases s.workspace u version changes <;>
      · rw [heq] at h
        exact h
  | closed u =>
    rw [cache_close, Table.get?_erase] at h
    split at h
    · cases h
    · next hne => exact .inl ⟨h, fun he => hne he.symm⟩
  | refreshed u =>
    rw [cache_forget, Table.get?_erase] at h
    split at h
    · cases h
    · exact .inl ⟨h, id⟩
  | @finished i f hf =>
    obtain ⟨doc, -, -, -, heq⟩ | ⟨-, heq⟩ :=
      offer_cases s.workspace f.uri f.snapshot.seq f.snapshot.version f.result
    · rw [Flight.offer, heq] at h ⊢
      rw [Table.get?_insert] at h
      split at h
      · next he =>
        cases h
        refine .inr ⟨f, List.mem_of_getElem? hf, he.symm, rfl, ?_, rfl⟩
        rw [Flight.offer, heq]
      · exact .inl ⟨h, id⟩
    · rw [Flight.offer, heq] at h
      exact .inl ⟨h, id⟩
  | none hnot => exact .inl ⟨h, hnot uri⟩

/-! ## Runs -/

section
variable (analyze : String → α) (actions : List (Action α))

/-- The states that a run passes through. -/
def Reaches (s : Activity α) : Prop := Passes step { analyze := analyze } actions s

/-- The texts that documents have in the course of a run. -/
def texts : Set String := textsOf step workspace { analyze := analyze } actions

/-- The document has had the text at a time since when it has been neither opened nor closed. -/
def HasHad (uri : Uri) (text : String) : Prop :=
  ∃ before after, actions = before ++ after ∧ (∀ a ∈ after, ¬ a.opensOrCloses uri) ∧
    ∃ doc, (run analyze before).workspace.documents.get? uri = some doc ∧ doc.text = text

/-- The result is that of an analysis that was in flight with the text, made in a way that was
installed. -/
def ComputedFrom (uri : Uri) (text : String) (result : α) : Prop :=
  ∃ s f, Reaches analyze actions s ∧ f ∈ s.flights ∧ f.uri = uri ∧ f.snapshot.text = text ∧
    f.result = result ∧ ∃ t, Reaches analyze actions t ∧ result = t.analyze text

end

section
variable {analyze : String → α} {actions : List (Action α)} {a : Action α}

theorem run_concat (actions : List (Action α)) (a : Action α) :
    run analyze (actions ++ [a]) = (run analyze actions).step a := by
  rw [run, List.foldl_concat]
  rfl

theorem Reaches.concat {s : Activity α} (h : Reaches analyze actions s) :
    Reaches analyze (actions ++ [a]) s := Passes.concat h

theorem reaches_run : Reaches analyze actions (run analyze actions) := Passes.last

theorem texts_concat : texts analyze actions ⊆ texts analyze (actions ++ [a]) := textsOf_concat

theorem HasHad.concat {uri : Uri} {text : String} (h : HasHad analyze actions uri text)
    (ha : ¬ a.opensOrCloses uri) : HasHad analyze (actions ++ [a]) uri text := by
  obtain ⟨before, after, rfl, hafter, hdoc⟩ := h
  refine ⟨before, after ++ [a], List.append_assoc .., fun b hb => ?_, hdoc⟩
  rcases List.mem_append.1 hb with hb | hb
  · exact hafter b hb
  · exact List.mem_singleton.1 hb ▸ ha

/-- The document has had the text that it has. -/
theorem HasHad.now {uri : Uri} {doc : Document}
    (h : (run analyze actions).workspace.documents.get? uri = some doc) :
    HasHad analyze actions uri doc.text :=
  ⟨actions, [], (List.append_nil _).symm, nofun, doc, h, rfl⟩

theorem ComputedFrom.concat {uri : Uri} {text : String} {result : α}
    (h : ComputedFrom analyze actions uri text result) :
    ComputedFrom analyze (actions ++ [a]) uri text result := by
  obtain ⟨s, f, hs, hf, huri, htext, hresult, t, ht, heq⟩ := h
  exact ⟨s, f, hs.concat, hf, huri, htext, hresult, t, ht.concat, heq⟩

theorem tracked_run (h : Set.InjOn Text.hash (texts analyze actions)) :
    (run analyze actions).Tracked := by
  induction actions using List.reverseRecOn with
  | nil => exact ⟨.empty, nofun, nofun⟩
  | append_singleton actions a ih =>
    rw [run_concat]
    exact (ih (h.mono texts_concat)).step a (faithful_of_injOn h)

/-- Analyses are made in ways that have been installed. -/
theorem installed_run (analyze : String → α) (actions : List (Action α)) :
    (∀ task ∈ (run analyze actions).tasks, ∃ t, Reaches analyze actions t ∧
      task.analyze = t.analyze) ∧
    ∀ f ∈ (run analyze actions).flights, ∃ t, Reaches analyze actions t ∧
      f.result = t.analyze f.snapshot.text := by
  induction actions using List.reverseRecOn with
  | nil => exact ⟨nofun, nofun⟩
  | append_singleton actions a ih =>
    rw [run_concat]
    refine ⟨fun task ht => ?_, fun f hf => ?_⟩
    · rcases mem_tasks_step ht with ht | ht
      · obtain ⟨t, hreach, heq⟩ := ih.1 task ht
        exact ⟨t, hreach.concat, heq⟩
      · exact ⟨_, reaches_run.concat, ht⟩
    · rcases mem_flights_step hf with hf | ⟨-, -, hf | ⟨task, ht, hf⟩⟩
      · obtain ⟨t, hreach, heq⟩ := ih.2 f hf
        exact ⟨t, hreach.concat, heq⟩
      · exact ⟨_, reaches_run.concat, hf⟩
      · obtain ⟨t, hreach, heq⟩ := ih.1 task ht
        exact ⟨t, hreach.concat, heq ▸ hf⟩

/-- An offer that is taken has the text that its document has. -/
theorem Tracked.text_of_offer {s : Activity α} (h : s.Tracked) {f : Flight α}
    (hf : f ∈ s.flights) (ht : (f.offer s.workspace).2 = true) :
    ∃ doc, s.workspace.documents.get? f.uri = some doc ∧ doc.text = f.snapshot.text := by
  obtain ⟨doc, hdoc, hseq, -, -⟩ | ⟨-, heq⟩ :=
    offer_cases s.workspace f.uri f.snapshot.seq f.snapshot.version f.result
  · exact ⟨doc, hdoc, h.text_eq f hf doc hdoc hseq⟩
  · rw [Flight.offer, heq] at ht
    cases ht

/-- Each result was computed from a text that its document has had since it was opened. -/
theorem cache_run (h : Set.InjOn Text.hash (texts analyze actions)) {uri : Uri} {result : α}
    (hresult : (run analyze actions).workspace.cache.get? uri = some result) :
    ∃ text, HasHad analyze actions uri text ∧ ComputedFrom analyze actions uri text result := by
  induction actions using List.reverseRecOn with
  | nil => cases hresult
  | append_singleton actions a ih =>
    have hmono := h.mono texts_concat
    rw [run_concat] at hresult
    rcases cache_step hresult with ⟨hold, ha⟩ | ⟨f, hf, rfl, rfl, htaken, hdocs⟩
    · obtain ⟨text, hhad, hcomputed⟩ := ih hmono hold
      exact ⟨text, hhad.concat ha, hcomputed.concat⟩
    · obtain ⟨doc, hdoc, htext⟩ := (tracked_run hmono).text_of_offer hf htaken
      obtain ⟨t, ht, heq⟩ := (installed_run analyze actions).2 f hf
      have hnow : (run analyze (actions ++ [a])).workspace.documents.get? f.uri = some doc := by
        rw [run_concat, hdocs, hdoc]
      exact ⟨f.snapshot.text, htext ▸ HasHad.now hnow,
        _, f, reaches_run.concat, hf, rfl, rfl, rfl, t, ht.concat, heq⟩

/-- Where hashes tell the texts of a run apart, an offer is taken only for an open document, and
only with the text that the document then has; and behind every run each result is of an open
document, computed from a text that the document has had since it was opened. -/
theorem offer_of_current_text (analyze : String → α) (actions : List (Action α))
    (h : Set.InjOn Text.hash (texts analyze actions)) :
    (∀ f ∈ (run analyze actions).flights, (f.offer (run analyze actions).workspace).2 = true →
      ∃ doc, (run analyze actions).workspace.documents.get? f.uri = some doc ∧
        doc.text = f.snapshot.text) ∧
    ∀ uri result, (run analyze actions).workspace.cache.get? uri = some result →
      ((run analyze actions).workspace.documents.get? uri).isSome ∧
        ∃ text, HasHad analyze actions uri text ∧ ComputedFrom analyze actions uri text result := by
  have htracked := tracked_run h
  refine ⟨fun f hf ht => htracked.text_of_offer hf ht, fun uri result hresult => ?_⟩
  exact ⟨htracked.consistent.cached uri result hresult, cache_run h hresult⟩

/-- A document that is closed and opened again under the same version, and then edited twice without
a change of its text, while it is analysed again and again. The analysis of its first text comes too
late, and so does that of a text which has drawn a new number. -/
def reopening (uri : Uri) : List (Action String) :=
  [.opened uri 1 "x", .started 0, .closed uri, .opened uri 1 "y", .finished 0, .started 0,
    .changed uri 2 [], .finished 0, .started 0, .finished 0, .changed uri 3 [], .requested uri]

theorem offer_of_current_text_reopening :
    (Flight.offer ⟨⟨"a"⟩, ⟨"y", 3, 3⟩, "y"⟩ (run id (reopening ⟨"a"⟩)).workspace).2 = true ∧
      (∃ doc, (run id (reopening ⟨"a"⟩)).workspace.documents.get? ⟨"a"⟩ = some doc ∧
        doc.text = "y") ∧
      ∃ text, HasHad id (reopening ⟨"a"⟩) ⟨"a"⟩ text ∧
        ComputedFrom id (reopening ⟨"a"⟩) ⟨"a"⟩ text "y" := by
  have hash : Set.InjOn Text.hash (texts id (reopening ⟨"a"⟩)) :=
    injOn_of_forall_mem ["x", "y"] (by decide +kernel) (by decide +kernel)
  obtain ⟨hoffer, hcache⟩ := offer_of_current_text id (reopening ⟨"a"⟩) hash
  have htaken : (Flight.offer ⟨⟨"a"⟩, ⟨"y", 3, 3⟩, "y"⟩
      (run id (reopening ⟨"a"⟩)).workspace).2 = true := by decide +kernel
  exact ⟨htaken, hoffer _ (by decide +kernel) htaken, (hcache ⟨"a"⟩ "y" (by decide +kernel)).2⟩

end

end Krl.Workspace.Activity
