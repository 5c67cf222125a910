import Krl.Proofs.Workspace.Staleness

/-!
# Documents are not left without an analysis

A result may be rejected since its document has been edited while it was computed. Then it is
something else that provides for the document: the invariant (`Attending`) says that an analysis
waits under its present number, or a result of its present text is at hand, or an analysis is in
flight that has its present number and version, so that its result is going to be taken.

An edit that draws no number may break the invariant: it asks for no analysis, since there is a
result, and raises the version above that of the analysis in flight. If the result is of an earlier
text, nothing provides for the document. So the invariant is kept by each step (`Attending.step`) as
long as such an edit finds something else that provides for its document (`Heedful`).

* `attended_of_rejected`: behind a result that is rejected, a document is closed or provided for.
* `unattended_of_rejected`: an edit that is not heedful leaves a document that is neither.
-/

set_option autoImplicit false

namespace Krl.Workspace.Activity

variable {α : Type}

/-! ## The invariant -/

section
variable (made : Uri → String → α → Prop) (s : Activity α) (uri : Uri) (doc : Document)

/-- An analysis of the document waits under its number, or a result made of its text is at hand. -/
def Provided : Prop :=
  (∃ task ∈ s.tasks, task.uri = uri ∧ task.seq = doc.seq) ∨
    ∃ result, s.workspace.cache.get? uri = some result ∧ made uri doc.text result

/-- An analysis of the document is in flight, and has its number and its version. -/
def InFlight : Prop :=
  ∃ f ∈ s.flights, f.uri = uri ∧ f.snapshot.seq = doc.seq ∧ f.snapshot.version = doc.version

def Attended : Prop :=
  ∀ doc, s.workspace.documents.get? uri = some doc → s.Provided made uri doc ∨ s.InFlight uri doc

/-- What holds wherever heedful steps lead: each open document is attended. -/
structure Attending : Prop where
  tracked : s.Tracked
  attended : ∀ uri, s.Attended made uri

/-- An edit that draws no number leaves the text as it was, and finds its document provided for. -/
def Heedful : Action α → Prop
  | .changed uri version changes => (s.workspace.change uri version changes).2 = none →
      ∀ doc, s.workspace.documents.get? uri = some doc →
        (doc.edit version changes).text = doc.text ∧ s.Provided made uri doc
  | _ => True

end

section
variable {made : Uri → String → α → Prop} {s s' : Activity α} {uri : Uri} {doc : Document}
  {a : Action α}

/-- A step that leaves a document, its result and the analyses of it leaves it attended. -/
theorem Attended.frame (h : s.Attended made uri)
    (hdoc : s'.workspace.documents.get? uri = s.workspace.documents.get? uri)
    (hcache : s'.workspace.cache.get? uri = s.workspace.cache.get? uri)
    (htasks : ∀ t ∈ s.tasks, t.uri = uri → t ∈ s'.tasks)
    (hflights : ∀ f ∈ s.flights, f.uri = uri → f ∈ s'.flights) : s'.Attended made uri := by
  intro doc hd
  rw [hdoc] at hd
  obtain (⟨t, ht, huri, hseq⟩ | ⟨result, hresult, hmade⟩) | ⟨f, hf, huri, hrest⟩ := h doc hd
  · exact .inl (.inl ⟨t, htasks t ht huri, huri, hseq⟩)
  · exact .inl (.inr ⟨result, hcache ▸ hresult, hmade⟩)
  · exact .inr ⟨f, hflights f hf huri, huri, hrest⟩

theorem mem_tasks_adopt_of_mem {changed : Workspace α × Option Nat} {t : Task α}
    (h : t ∈ s.tasks) : t ∈ (s.adopt uri changed).tasks := List.mem_append_left _ h

/-- Where a number comes with a write of a document, the analysis that is asked for provides for the
document. -/
theorem Attended.adopt (h : s.Attended made uri) {u : Uri} {changed : Workspace α × Option Nat}
    (hframe : u ≠ uri → changed.1.documents.get? uri = s.workspace.documents.get? uri ∧
      changed.1.cache.get? uri = s.workspace.cache.get? uri)
    (hdrawn : u = uri → ∀ doc, changed.1.documents.get? uri = some doc →
      changed.2 = some doc.seq) : (s.adopt u changed).Attended made uri := by
  by_cases hu : u = uri
  · intro doc hdoc
    have hseq := hdrawn hu doc hdoc
    exact .inl (.inl ⟨⟨u, doc.seq, s.analyze⟩, List.mem_append_right _ (by simp [hseq]), hu, rfl⟩)
  · obtain ⟨hdoc, hcache⟩ := hframe hu
    exact h.frame hdoc hcache (fun _ ht _ => mem_tasks_adopt_of_mem ht) fun _ hf _ => hf

/-! ## Steps -/

theorem Attended.opened (h : s.Attended made uri) (u : Uri) (version : Int) (text : String) :
    (s.step (.opened u version text)).Attended made uri := by
  refine h.adopt (fun hu => ⟨Table.get?_insert_of_ne _ hu _, Table.get?_erase_of_ne _ hu⟩) ?_
  rintro rfl doc hdoc
  cases (Table.get?_insert_self ..).symm.trans hdoc
  rfl

theorem Attended.changed (h : s.Attended made uri) (hs : s.workspace.Consistent) {u : Uri}
    {version : Int} {changes : List Text.Change}
    (hheedful : s.Heedful made (.changed u version changes)) :
    (s.step (.changed u version changes)).Attended made uri := by
  rw [step]
  rw [Heedful] at hheedful
  obtain ⟨doc, hdoc, -, heq⟩ | heq := hs.kept_cases u version changes
  · rw [heq] at hheedful ⊢
    by_cases hu : u = uri
    · -- the edit asks for no analysis: what provides for the document did so before
      subst hu
      obtain ⟨htext, hprovided⟩ := hheedful rfl doc hdoc
      intro doc' hdoc'
      rw [workspace_adopt, Table.get?_insert_self] at hdoc'
      cases hdoc'
      refine .inl (hprovided.imp ?_ ?_)
      · rintro ⟨t, ht, hrest⟩
        exact ⟨t, mem_tasks_adopt_of_mem ht, hrest⟩
      · rintro ⟨result, hresult, hmade⟩
        exact ⟨result, hresult, htext ▸ hmade⟩
    · exact h.adopt (fun hu => ⟨Table.get?_insert_of_ne _ hu _, rfl⟩) fun he => absurd he hu
  · rw [heq]
    refine h.adopt (fun hu => ⟨Table.get?_insert_of_ne _ hu _, rfl⟩) ?_
    rintro rfl doc' hdoc'
    cases (Table.get?_insert_self ..).symm.trans hdoc'
    rfl

theorem Attended.closed (h : s.Attended made uri) (u : Uri) :
    (s.step (.closed u)).Attended made uri := by
  by_cases hu : u = uri
  · subst hu
    intro doc hdoc
    cases (Table.get?_erase_self ..).symm.trans hdoc
  · exact h.frame (Table.get?_erase_of_ne _ hu) (Table.get?_erase_of_ne _ hu)
      (fun _ ht _ => ht) fun _ hf _ => hf

theorem Attended.refreshed (h : s.Attended made uri) (u : Uri) :
    (s.step (.refreshed u)).Attended made uri := by
  simp only [step]
  split
  · next doc hdoc =>
    refine h.adopt (fun hu => ⟨rfl, Table.get?_erase_of_ne _ hu⟩) ?_
    rintro rfl doc' hdoc'
    cases hdoc.symm.trans hdoc'
    rfl
  · exact h

theorem mem_flights_launch_of_mem {snapshot : Snapshot} {analyze : String → α} {f : Flight α}
    (h : f ∈ s.flights) : f ∈ (s.launch uri snapshot analyze).flights := List.mem_append_left _ h

theorem Attended.requested (h : s.Attended made uri) (u : Uri) :
    (s.step (.requested u)).Attended made uri := by
  simp only [step]
  split
  · exact h.frame rfl rfl (fun _ ht _ => ht) fun _ hf _ => mem_flights_launch_of_mem hf
  · exact h

theorem mem_flights_start_of_mem {task : Task α} {f : Flight α} (h : f ∈ s.flights) :
    f ∈ (s.start task).flights := by
  unfold start
  split
  · split
    · exact mem_flights_launch_of_mem h
    · exact h
  · exact h

/-- An analysis that begins under the number of its document has its version as well. -/
theorem inFlight_start {task : Task α} (hdoc : s.workspace.documents.get? task.uri = some doc)
    (hseq : task.seq = doc.seq) : (s.start task).InFlight task.uri doc := by
  have hsnap : s.workspace.snapshot? task.uri = some doc.snapshot := by rw [snapshot?, hdoc]; rfl
  have hstart : s.start task = s.launch task.uri doc.snapshot task.analyze := by
    rw [start, hsnap]
    exact if_pos hseq.symm
  rw [hstart]
  exact ⟨_, List.mem_append_right _ (List.mem_singleton.2 rfl), rfl, rfl, rfl⟩

theorem eq_or_mem_eraseIdx {β : Type} {l : List β} {i : Nat} {x y : β} (hi : l[i]? = some x)
    (hy : y ∈ l) : y = x ∨ y ∈ l.eraseIdx i := by
  obtain ⟨j, hj⟩ := List.mem_iff_getElem?.1 hy
  by_cases hij : j = i
  · subst hij
    exact .inl (Option.some.inj (hj.symm.trans hi))
  · exact .inr (List.mem_eraseIdx_iff_getElem?.2 ⟨j, hij, hj⟩)

theorem Attended.started (h : s.Attended made uri) (i : Nat) :
    (s.step (.started i)).Attended made uri := by
  simp only [step]
  split
  · next task htask =>
    intro doc hdoc
    rw [workspace_start] at hdoc
    obtain (⟨t, ht, huri, hseq⟩ | hcached) | ⟨f, hf, hrest⟩ := h doc hdoc
    · rcases eq_or_mem_eraseIdx htask ht with rfl | ht
      · -- the analysis that has waited for the document is now in flight
        subst huri
        exact .inr (inFlight_start hdoc hseq)
      · exact .inl (.inl ⟨t, by rw [tasks_start]; exact ht, huri, hseq⟩)
    · exact .inl (.inr (by rw [workspace_start]; exact hcached))
    · exact .inr ⟨f, mem_flights_start_of_mem hf, hrest⟩
  · exact h

theorem Attended.finished (h : s.Attended made uri) (htracked : s.Tracked)
    (hmade : ∀ f ∈ s.flights, made f.uri f.snapshot.text f.result) (i : Nat) :
    (s.step (.finished i)).Attended made uri := by
  simp only [step]
  split
  · next f hf =>
    have hmem := List.mem_of_getElem? hf
    have hrest : ∀ g ∈ s.flights, g ≠ f → g ∈ s.flights.eraseIdx i :=
      fun g hg hne => (eq_or_mem_eraseIdx hf hg).resolve_left hne
    rw [Flight.offer]
    obtain ⟨doc, hdoc, hseq, -, heq⟩ | ⟨hrejected, heq⟩ :=
      offer_cases s.workspace f.uri f.snapshot.seq f.snapshot.version f.result <;> rw [heq]
    · by_cases hu : f.uri = uri
      · -- the result that is taken is of the present text
        subst hu
        intro doc' hdoc'
        cases hdoc.symm.trans hdoc'
        have htext := htracked.text_eq f hmem doc hdoc hseq
        exact .inl (.inr ⟨f.result, Table.get?_insert_self .., htext ▸ hmade f hmem⟩)
      · refine h.frame rfl ?_ (fun _ ht _ => ht) fun g hg huri => hrest g hg fun he => ?_
        · exact Table.get?_insert_of_ne _ hu _
        · exact hu (he ▸ huri)
    · intro doc hdoc
      obtain hprovided | ⟨g, hg, huri, hseq, hversion⟩ := h doc hdoc
      · exact .inl hprovided
      · -- an analysis that attends the document is not the one that is rejected
        refine .inr ⟨g, hrest g hg ?_, huri, hseq, hversion⟩
        rintro rfl
        exact hrejected doc (huri ▸ hdoc) ⟨hseq.symm, hversion.symm⟩
  · exact h

/-- A heedful step leaves each open document attended. -/
theorem Attending.step (h : s.Attending made)
    (hmade : ∀ f ∈ s.flights, made f.uri f.snapshot.text f.result) (hheedful : s.Heedful made a) :
    (s.step a).Attending made := by
  refine ⟨h.tracked.advance a (advances_step s a ?_), fun uri => ?_⟩
  · rintro uri version changes rfl
    rw [Heedful] at hheedful
    obtain ⟨doc, hdoc, -, heq⟩ | heq := h.tracked.consistent.kept_cases uri version changes
    · rw [heq] at hheedful ⊢
      exact .edit hdoc (hheedful rfl doc hdoc).1
    · rw [heq]
      exact .insert uri ⟨_, version, s.workspace.lastSeq + 1, _⟩ rfl rfl rfl
  · have hattended := h.attended uri
    cases a with
    | opened u version text => exact hattended.opened u version text
    | changed u version changes => exact hattended.changed h.tracked.consistent hheedful
    | closed u => exact hattended.closed u
    | installed analyze => exact hattended
    | refreshed u => exact hattended.refreshed u
    | requested u => exact hattended.requested u
    | started i => exact hattended.started i
    | finished i => exact hattended.finished h.tracked hmade i

theorem Attending.run {actions : List (Action α)} (h : s.Attending made)
    (hmade : ∀ t, Passes Activity.step s actions t →
      ∀ f ∈ t.flights, made f.uri f.snapshot.text f.result)
    (hheedful : ∀ m ∈ moments Activity.step s actions, m.state.Heedful made m.event) :
    (actions.foldl Activity.step s).Attending made := by
  induction actions generalizing s with
  | nil => exact h
  | cons a actions ih =>
    obtain ⟨hfirst, hrest⟩ := List.forall_mem_cons.1 hheedful
    exact ih (h.step (hmade s .first) hfirst) (fun t ht => hmade t ht.cons) hrest

end

/-! ## Runs -/

section
variable {analyze : String → α} {actions : List (Action α)} {s : Activity α}

theorem computedFrom_of_mem_flights (hs : Reaches analyze actions s) {f : Flight α}
    (hf : f ∈ s.flights) : ComputedFrom analyze actions f.uri f.snapshot.text f.result := by
  obtain ⟨before, hbefore, rfl⟩ := hs
  obtain ⟨t, ⟨earlier, hearlier, rfl⟩, heq⟩ := (installed_run analyze before).2 f hf
  exact ⟨_, f, ⟨before, hbefore, rfl⟩, hf, rfl, rfl, rfl, _, ⟨earlier, hearlier.trans hbefore, rfl⟩,
    heq⟩

/-- Behind heedful actions each open document is attended. -/
theorem attending_run (h : ∀ m ∈ moments step { analyze := analyze } actions,
      m.state.Heedful (ComputedFrom analyze actions) m.event) :
    (run analyze actions).Attending (ComputedFrom analyze actions) :=
  Attending.run ⟨⟨.empty, nofun, nofun⟩, fun _ => nofun⟩
    (fun _ ht _ hf => computedFrom_of_mem_flights ht hf) h

/-- Where edits are heedful, a result that is rejected leaves the workspace as it is, and its
document is closed, or an analysis of it waits under its number, or a result made of its text is at
hand, or another analysis is in flight that has its number and its version. -/
theorem attended_of_rejected (analyze : String → α) (actions : List (Action α))
    (h : ∀ m ∈ moments step { analyze := analyze } actions,
      m.state.Heedful (ComputedFrom analyze actions) m.event)
    {i : Nat} {f : Flight α} (hf : (run analyze actions).flights[i]? = some f)
    (hrejected : (f.offer (run analyze actions).workspace).2 = false) :
    (run analyze (actions ++ [.finished i])).workspace = (run analyze actions).workspace ∧
      (run analyze (actions ++ [.finished i])).Attended (ComputedFrom analyze actions) f.uri := by
  have hmade : ∀ g ∈ (run analyze actions).flights, _ :=
    fun g hg => computedFrom_of_mem_flights reaches_run hg
  have hheedful : (run analyze actions).Heedful (ComputedFrom analyze actions) (.finished i) :=
    trivial
  rw [run_concat]
  refine ⟨?_, ((attending_run h).step hmade hheedful).attended f.uri⟩
  simp only [step, hf]
  obtain ⟨-, -, -, -, heq⟩ | ⟨-, heq⟩ :=
    offer_cases (run analyze actions).workspace f.uri f.snapshot.seq f.snapshot.version f.result
  · rw [Flight.offer, heq] at hrejected
    cases hrejected
  · rw [Flight.offer, heq]

/-- At an edit that draws no number, is the text left as it was, and does an analysis wait under the
number of the document? -/
def heeds (s : Activity α) : Action α → Bool
  | .changed uri version changes => (s.workspace.change uri version changes).2.isSome ||
      (s.workspace.documents.get? uri).all fun doc =>
        (doc.edit version changes).text == doc.text &&
          s.tasks.any fun t => t.uri == uri && t.seq == doc.seq
  | _ => true

theorem heedful_of_heeds {made : Uri → String → α → Prop} {a : Action α} (h : s.heeds a = true) :
    s.Heedful made a := by
  cases a with
  | changed uri version changes =>
    intro hkept doc hdoc
    rw [heeds, hkept, hdoc] at h
    simp only [Option.isSome_none, Bool.false_or, Option.all_some, Bool.and_eq_true, beq_iff_eq,
      List.any_eq_true] at h
    obtain ⟨htext, t, ht, huri, hseq⟩ := h
    exact ⟨htext, .inl ⟨t, ht, huri, hseq⟩⟩
  | _ => trivial

/-- A document that has a result and is edited; then it is edited without a change of its text,
while one analysis waits and another one is in flight. -/
def hurrying (uri : Uri) : List (Action String) :=
  [.opened uri 1 "x", .started 0, .finished 0, .changed uri 2 [⟨none, ['y']⟩], .requested uri,
    .changed uri 3 [], .requested uri, .started 0]

theorem attended_of_rejected_hurrying :
    let actions := hurrying ⟨"a"⟩
    let s := run id (actions ++ [.finished 0])
    (run id actions).flights[0]? = some ⟨⟨"a"⟩, ⟨"y", 2, 2⟩, "y"⟩ ∧
      (Flight.offer ⟨⟨"a"⟩, ⟨"y", 2, 2⟩, "y"⟩ (run id actions).workspace).2 = false ∧
      s.tasks.length = 0 ∧ s.workspace.cache.get? ⟨"a"⟩ = some "x" ∧
      s.Attended (ComputedFrom id actions) ⟨"a"⟩ := by
  intro actions s
  have hheedful : ∀ m ∈ moments step { analyze := id } actions,
      m.state.Heedful (ComputedFrom id actions) m.event := by
    have hall : (moments step { analyze := id } actions).all (fun m => m.state.heeds m.event) =
        true := by decide +kernel
    exact fun m hm => heedful_of_heeds (List.all_eq_true.1 hall m hm)
  have hf : (run id actions).flights[0]? = some ⟨⟨"a"⟩, ⟨"y", 2, 2⟩, "y"⟩ := by decide +kernel
  have hrejected :
      (Flight.offer ⟨⟨"a"⟩, ⟨"y", 2, 2⟩, "y"⟩ (run id actions).workspace).2 = false := by
    decide +kernel
  exact ⟨hf, hrejected, by decide +kernel, by decide +kernel,
    (attended_of_rejected id actions hheedful hf hrejected).2⟩

/-- A document that is edited without a change of its text, while the analysis of its text is in
flight and there is a result of an earlier one. -/
def stranding (uri : Uri) : List (Action String) :=
  [.opened uri 1 "x", .started 0, .finished 0, .changed uri 2 [⟨none, ['y']⟩], .started 0,
    .changed uri 3 []]

theorem unattended_of_rejected :
    let actions := stranding ⟨"a"⟩
    let s := run id (actions ++ [.finished 0])
    Set.InjOn Text.hash (texts id actions) ∧
      (run id actions).flights[0]? = some ⟨⟨"a"⟩, ⟨"y", 2, 2⟩, "y"⟩ ∧
      (Flight.offer ⟨⟨"a"⟩, ⟨"y", 2, 2⟩, "y"⟩ (run id actions).workspace).2 = false ∧
      (∃ doc, s.workspace.documents.get? ⟨"a"⟩ = some doc ∧ doc.text = "y") ∧
      s.tasks.length = 0 ∧ s.flights = [] ∧ s.workspace.cache.get? ⟨"a"⟩ = some "x" ∧
      ¬ ComputedFrom id (actions ++ [.finished 0]) ⟨"a"⟩ "y" "x" := by
  intro actions s
  have hash : Set.InjOn Text.hash (texts id actions) :=
    injOn_of_forall_mem ["x", "y"] (by decide +kernel) (by decide +kernel)
  refine ⟨hash, by decide +kernel, by decide +kernel, by decide +kernel, by decide +kernel,
    by decide +kernel, by decide +kernel, ?_⟩
  rintro ⟨t, f, ht, hf, -, htext, hresult, -⟩
  exact ht.of_inits (fun t => ∀ f ∈ t.flights, f.snapshot.text = "y" → f.result ≠ "x")
    (by decide +kernel) f hf htext hresult

end

end Krl.Workspace.Activity
