import Krl.Proofs.Server.Record

/-!
# The order of the settings that results are made with

A result of earlier settings is only kept by a timer that awaits its document since before the load
(`Dated.load_of_mem_keeps`). A document that no such timer awaits gets none (`Dated.Since.step`).

* `loads_ascend`: where no timer awaits a document when settings are loaded, the loads of what is
  kept and published for it ascend.
* `loads_descend`: else they may descend.
-/

set_option autoImplicit false

namespace Krl.Server

/-! ## Old timers -/

section
variable {site : Site} {s : Server} {uri : Uri} {t : Timer}

/-- A timer that has been there before an event, and awaits a document behind it, awaited it before:
a number that is drawn is new to all timers. -/
theorem mem_awaiting_of_step (h : Orderly s) (site : Site) (e : Event)
    (ht : t ∈ (s.step site e).awaiting uri) (hold : t ∈ s.timers) : t ∈ s.awaiting uri := by
  have hsame : (s.step site e).workspace.documents = s.workspace.documents →
      t ∈ s.awaiting uri := by
    intro hdocs
    obtain ⟨-, huri, doc, htarget⟩ := mem_awaiting.1 ht
    exact mem_awaiting.2 ⟨hold, huri, doc, target?_congr hdocs t ▸ htarget⟩
  cases e with
  | elapse ms =>
    obtain ⟨cache, heq⟩ := elapse_frame site s ms
    exact hsame (by rw [step, heq])
  | request r =>
    by_cases hreload : s.reloads (.request r) = true
    · obtain ⟨reply, hstep⟩ := step_of_reloads site hreload
      obtain ⟨settings, analyzer, cache, timers, heq⟩ := reload_frame site s reply
      exact hsame (by rw [hstep, heq])
    · obtain hrenewed | hclosed | hundisturbed :=
        handle_cases site h.consistent (Bool.eq_false_iff.2 hreload) uri
      · rw [step, hrenewed.awaiting h.seq_le, List.mem_singleton] at ht
        have hle := h.seq_le t hold
        rw [ht] at hle
        exact absurd hle (Nat.not_succ_le_self _)
      · rw [step, hclosed.awaiting] at ht
        cases ht
      · exact hundisturbed.awaiting ▸ ht

end

/-! ## The order of loads -/

namespace Dated

section
variable {site : Site} {d : Dated} {uri : Uri} {k : Kept}

/-- What is kept for a document is made by a timer that awaits it, or on demand with the settings in
force. -/
theorem load_of_mem_keeps {e : Event} (hk : k ∈ d.keeps site e) (huri : k.uri = uri) :
    (∃ t ∈ d.server.awaiting uri, k.load = d.setUnder t) ∨ k.load = d.load := by
  cases e with
  | elapse ms =>
    obtain ⟨t, ht, hkept⟩ := List.mem_filterMap.1 hk
    obtain ⟨doc, htarget, rfl⟩ := Option.map_eq_some_iff.1 hkept
    exact .inl ⟨t, mem_awaiting.2 ⟨(List.takeWhile_sublist _).mem ht, huri, doc, htarget⟩, rfl⟩
  | request r =>
    obtain ⟨entry, -, rfl⟩ := Option.map_eq_some_iff.1 (Option.mem_toList.1 hk)
    exact .inr rfl

theorem load_le_step (site : Site) (d : Dated) (e : Event) : d.load ≤ (d.step site e).load := by
  simp only [step]
  split
  · exact Nat.le_succ _
  · exact Nat.le_refl _

/-- No timer awaits the document that was set under an earlier load than this one. -/
def Since (d : Dated) (uri : Uri) (n : Nat) : Prop :=
  n ≤ d.load ∧ ∀ t ∈ d.server.awaiting uri, n ≤ d.setUnder t

theorem Since.step {n : Nat} (h : d.Since uri n) (hd : Orderly d.server) (site : Site) (e : Event) :
    (d.step site e).Since uri n := by
  have hload := Nat.le_trans h.1 (load_le_step site d e)
  refine ⟨hload, fun t ht => ?_⟩
  rw [setUnder_step]
  split
  · next hold => exact h.2 t (mem_awaiting_of_step hd site e ht hold)
  · exact hload

theorem Since.le_of_mem_keeps {n : Nat} (h : d.Since uri n) {e : Event} (hk : k ∈ d.keeps site e)
    (huri : k.uri = uri) : n ≤ k.load := by
  obtain ⟨t, ht, heq⟩ | heq := load_of_mem_keeps hk huri
  · rw [heq]
    exact h.2 t ht
  · rw [heq]
    exact h.1

/-- All that awaits the document was set under the last load, and the loads of what has been kept
for it ascend. -/
structure Ascending (d : Dated) (uri : Uri) : Prop where
  orderly : Orderly d.server
  setUnder_le : ∀ t, d.setUnder t ≤ d.load
  since : d.Since uri d.load
  kept_le : ∀ k ∈ d.kept, k.load ≤ d.load
  pairwise : (d.kept.filter (·.uri = uri)).Pairwise (·.load ≤ ·.load)

theorem Ascending.step (h : d.Ascending uri) (site : Site) (e : Event)
    (hquiet : d.server.reloads e = true → d.server.awaiting uri = []) :
    (d.step site e).Ascending uri := by
  have hload := load_le_step site d e
  have hkeeps : ∀ k ∈ d.keeps site e, k.load ≤ d.load := by
    intro k hk
    obtain ⟨t, -, heq⟩ | heq := load_of_mem_keeps hk rfl
    · rw [heq]
      exact h.setUnder_le t
    · exact Nat.le_of_eq heq
  refine ⟨h.orderly.step site e, fun t => ?_, ?_, fun k hk => ?_, ?_⟩
  · rw [setUnder_step]
    split
    · exact Nat.le_trans (h.setUnder_le t) hload
    · exact Nat.le_refl _
  · by_cases hreload : d.server.reloads e = true
    · -- what awaits the document behind the load has been set by it
      refine ⟨Nat.le_refl _, fun t ht => ?_⟩
      rw [setUnder_step]
      split
      · next hold =>
        have hmem := mem_awaiting_of_step h.orderly site e ht hold
        rw [hquiet hreload] at hmem
        cases hmem
      · exact Nat.le_refl _
    · have hsame : (d.step site e).load = d.load := if_neg hreload
      rw [hsame]
      exact h.since.step h.orderly site e
  · rcases List.mem_append.1 hk with hk | hk
    · exact Nat.le_trans (h.kept_le k hk) hload
    · exact Nat.le_trans (hkeeps k hk) hload
  · have hfrom : ∀ k ∈ (d.keeps site e).filter (·.uri = uri), d.load ≤ k.load := by
      intro k hk
      obtain ⟨hk, huri⟩ := List.mem_filter.1 hk
      exact h.since.le_of_mem_keeps hk (of_decide_eq_true huri)
    have hnew : ((d.keeps site e).filter (·.uri = uri)).Pairwise (·.load ≤ ·.load) :=
      List.pairwise_of_forall_mem_list fun a ha b hb =>
        Nat.le_trans (hkeeps a (List.mem_filter.1 ha).1) (hfrom b hb)
    simp only [Dated.step, List.filter_append]
    exact List.pairwise_append.2 ⟨h.pairwise, hnew, fun a ha b hb =>
      Nat.le_trans (h.kept_le a (List.mem_filter.1 ha).1) (hfrom b hb)⟩

theorem Ascending.run (h : d.Ascending uri) (site : Site) (events : List Event)
    (hquiet : ∀ m ∈ moments (Server.step site) d.server events,
      m.state.reloads m.event = true → m.state.awaiting uri = []) :
    (d.run site events).Ascending uri := by
  induction events generalizing d with
  | nil => exact h
  | cons e events ih =>
    obtain ⟨hfirst, hrest⟩ := List.forall_mem_cons.1 hquiet
    exact ih (h.step site e hfirst) hrest

end

end Dated

/-! ## Sessions -/

theorem ascending_start (site : Site) (reply : SettingsReply) (uri : Uri) :
    Dated.Ascending { server := start site reply } uri := by
  obtain ⟨settings, heq⟩ := start_eq site reply
  refine ⟨.start site reply, fun _ => Nat.le_refl _, ⟨Nat.le_refl _, ?_⟩, nofun, .nil⟩
  rw [heq]
  exact nofun

/-- The loads of the settings with which the results that are kept for a document, and what is
published of them, are made, in order. -/
def loadsOf (site : Site) (reply : SettingsReply) (events : List Event) (uri : Uri) : List Nat :=
  ((Dated.session site reply events).kept.filter (·.uri = uri)).map (·.load)

/-- Where no timer awaits a document whenever settings are loaded, nothing of earlier settings is
kept or published for it behind a result of later ones, by a record of the session that is true. -/
theorem loads_ascend (site : Site) (reply : SettingsReply) (events : List Event) (uri : Uri)
    (h : ∀ m ∈ moments (step site) (start site reply) events,
      m.state.reloads m.event = true → m.state.awaiting uri = []) :
    Dated.Genuine site reply events (Dated.session site reply events) ∧
      (loadsOf site reply events uri).Pairwise (· ≤ ·) :=
  ⟨Dated.genuine_session site reply events,
    List.pairwise_map.2 ((ascending_start site reply uri).run site events h).pairwise⟩

/-- A session in which settings are loaded while one document waits for nothing, and another one for
its analysis; the first is then analysed on demand, by its timer, and once more for an edit. -/
def reloadingBetween (a b : Uri) : List Event :=
  [.request (.opened a 1 "x"), .elapse 500, .request (.opened b 1 "y"),
    .request (.settingsChanged (some [.object [("debounceMs", .int 10)]])), .request (.symbols a),
    .elapse 500, .request (.changed a 2 [⟨none, ['z']⟩]), .elapse 500]

theorem loads_ascend_between :
    let site : Site := ⟨⟨fun command _ => .error ⟨command.program, Tool.noSuchFile⟩⟩, {}⟩
    let events := reloadingBetween ⟨"a"⟩ ⟨"b"⟩
    (∀ m ∈ moments (step site) (start site none) events,
      m.state.reloads m.event = true → m.state.awaiting ⟨"a"⟩ = []) ∧
    (∃ m ∈ moments (step site) (start site none) events,
      m.state.reloads m.event = true ∧ m.state.timers ≠ []) ∧
    loadsOf site none events ⟨"a"⟩ = [0, 1, 1, 1] ∧
    Dated.Genuine site none events (Dated.session site none events) ∧
    (loadsOf site none events ⟨"a"⟩).Pairwise (· ≤ ·) := by
  intro site events
  have hquiet : ∀ m ∈ moments (step site) (start site none) events,
      m.state.reloads m.event = true → m.state.awaiting ⟨"a"⟩ = [] := by
    have hall : (moments (step site) (start site none) events).all
        (fun m => !m.state.reloads m.event || m.state.awaiting ⟨"a"⟩ == []) = true := by
      decide +kernel
    simpa [← Bool.not_eq_true, or_iff_not_imp_left] using hall
  have hload : ∃ m ∈ moments (step site) (start site none) events,
      m.state.reloads m.event = true ∧ m.state.timers ≠ [] := by
    have hany : (moments (step site) (start site none) events).any
        (fun m => m.state.reloads m.event && m.state.timers != []) = true := by decide +kernel
    simpa using hany
  exact ⟨hquiet, hload, by decide +kernel, loads_ascend site none events ⟨"a"⟩ hquiet⟩

/-- A timer that waits longer than the one that a load sets beside it has the last word, with the
settings from before the load. -/
theorem loads_descend :
    let site : Site := ⟨⟨fun command _ => .error ⟨command.program, Tool.noSuchFile⟩⟩,
      { debounce := 1000, compiler := some ⟨"earlier", []⟩ }⟩
    let events : List Event := [.request (.opened ⟨"a"⟩ 1 "x"),
      .request (.settingsChanged (some [.object [("compiler", .object
        [("command", .array [.string "later"])]), ("debounceMs", .int 10)]])), .elapse 100,
      .elapse 2000]
    let diagnostics := fun compiler =>
      Diagnostic.ofCompiled (Tool.compile site.host (some ⟨compiler, []⟩) "x")
    (session site none events).published ⟨"a"⟩ =
        [⟨10, ⟨"a"⟩, diagnostics "later", some 1⟩, ⟨1000, ⟨"a"⟩, diagnostics "earlier", some 1⟩] ∧
      diagnostics "later" ≠ diagnostics "earlier" ∧
      loadsOf site none events ⟨"a"⟩ = [1, 0] ∧
      ¬ (loadsOf site none events ⟨"a"⟩).Pairwise (· ≤ ·) := by
  intro site events diagnostics
  have hloads : loadsOf site none events ⟨"a"⟩ = [1, 0] := by decide +kernel
  exact ⟨by decide +kernel, by decide +kernel, hloads, hloads ▸ by decide⟩

end Krl.Server
