import Krl.Proofs.Workspace.Consistent
import Krl.Server

/-!
# What a server can do

Each operation of a server, and all that it changes.

* `fire_cases`: a timer publishes an analysis of its document, or only the clock moves.
* `analysisFor_cases`: an analysis on demand is kept where there was none.
* `changed_frame`, `analysisFor_frame`: what an edit and an analysis on demand leave as it is.
* `refreshAll_frame`, `mem_timers_refreshAll`: a reload touches results and timers alone, and sets a
  timer for each document.
* `lastPublication?_publish`: what the editor was told last about a document.
-/

set_option autoImplicit false

namespace Krl.Server

variable {site : Site} {s : Server} {timer t : Timer} {ts : List Timer}

/-! ## Timers -/

theorem mem_insertTimer : t ∈ insertTimer timer ts ↔ t = timer ∨ t ∈ ts := by
  induction ts with
  | nil => simp [insertTimer]
  | cons u ts ih =>
    rw [insertTimer]
    split
    · rw [List.mem_cons, ih, List.mem_cons]
      exact or_left_comm
    · exact List.mem_cons

/-- The timer that is set for an analysis, with the settings in force. -/
def newTimer (s : Server) (uri : Uri) (seq : Nat) : Timer :=
  ⟨s.clock + s.settings.debounce, uri, seq, s.analyzer, s.settings.maxProblems⟩

theorem mem_timers_setTimer {uri : Uri} {seq : Nat} :
    t ∈ (s.setTimer uri seq).timers ↔ t = s.newTimer uri seq ∨ t ∈ s.timers := mem_insertTimer

/-- The result of an analysis is kept. -/
def store (s : Server) (uri : Uri) (result : Analysis) : Server :=
  { s with workspace := { s.workspace with cache := s.workspace.cache.insert uri result } }

/-- A timer whose document still has its number has the document analysed, keeps the result and
publishes its diagnostics; any other timer does nothing. -/
theorem fire_cases (site : Site) (s : Server) (timer : Timer) :
    (∃ doc, s.workspace.documents.get? timer.uri = some doc ∧ doc.seq = timer.seq ∧
      s.fire site timer =
        (store { s with clock := timer.due } timer.uri
          (timer.analyzer.analyze site.host doc.text)).publish timer.uri
            ((timer.analyzer.analyze site.host doc.text).diagnostics.take timer.limit)
            (some doc.version)) ∨
    ((∀ doc, s.workspace.documents.get? timer.uri = some doc → doc.seq ≠ timer.seq) ∧
      s.fire site timer = { s with clock := timer.due }) := by
  cases hdoc : s.workspace.documents.get? timer.uri with
  | none =>
    refine .inr ⟨nofun, ?_⟩
    simp [fire, Workspace.snapshot?, hdoc]
  | some doc =>
    by_cases hseq : doc.seq = timer.seq
    · refine .inl ⟨doc, rfl, hseq, ?_⟩
      simp [fire, Workspace.snapshot?, Workspace.offer, Workspace.isCurrent, Document.snapshot,
        hdoc, hseq, store]
    · refine .inr ⟨fun d hd => ?_, ?_⟩
      · cases hd
        exact hseq
      · simp [fire, Workspace.snapshot?, Document.snapshot, hdoc, hseq]

theorem timers_fire (site : Site) (s : Server) (timer : Timer) :
    (s.fire site timer).timers = s.timers := by
  obtain ⟨doc, -, -, heq⟩ | ⟨-, heq⟩ := fire_cases site s timer
  · rw [heq]
    rfl
  · rw [heq]

theorem timers_foldl_fire (site : Site) (s : Server) (due : List Timer) :
    (due.foldl (fire site) s).timers = s.timers := by
  induction due generalizing s with
  | nil => rfl
  | cons t due ih => exact (ih _).trans (timers_fire site s t)

/-- Waiting leaves the timers that are not yet due. -/
theorem timers_elapse (site : Site) (s : Server) (ms : Nat) :
    (s.elapse site ms).timers = s.timers.dropWhile (·.due ≤ s.clock + ms) :=
  timers_foldl_fire ..

/-! ## Requests -/

/-- A document with a result is not analysed on demand; one without a result is, and the result
kept. -/
theorem analysisFor_cases (site : Site) (s : Server) (uri : Uri) :
    (s.analysisFor site uri).1 = s ∨
    ∃ doc, s.workspace.documents.get? uri = some doc ∧ s.workspace.cache.get? uri = none ∧
      (s.analysisFor site uri).1 = s.store uri (s.analyzer.analyze site.host doc.text) := by
  unfold analysisFor
  cases hcache : s.workspace.cache.get? uri with
  | some result => exact .inl rfl
  | none =>
    cases hdoc : s.workspace.documents.get? uri with
    | none =>
      refine .inl ?_
      simp [Workspace.snapshot?, hdoc]
    | some doc =>
      refine .inr ⟨doc, rfl, rfl, ?_⟩
      simp [Workspace.snapshot?, Workspace.offer, Workspace.isCurrent, Document.snapshot, hdoc,
        store]

/-- An analysis on demand touches results, and nothing else. -/
theorem analysisFor_frame (site : Site) (s : Server) (uri : Uri) : ∃ cache,
    (s.analysisFor site uri).1 = { s with workspace := { s.workspace with cache := cache } } := by
  obtain heq | ⟨doc, -, -, heq⟩ := analysisFor_cases site s uri
  · exact ⟨s.workspace.cache, heq⟩
  · exact ⟨_, heq⟩

theorem timers_analysisFor (site : Site) (s : Server) (uri : Uri) :
    (s.analysisFor site uri).1.timers = s.timers := by
  obtain ⟨cache, heq⟩ := analysisFor_frame site s uri
  rw [heq]

/-- An edit writes its document and may draw a number and set a timer, and touches nothing else. -/
theorem changed_frame (site : Site) (s : Server) (uri : Uri) (version : Int)
    (changes : List Text.Change) :
    ∃ doc lastSeq timers, (s.serve site (.changed uri version changes)).1 =
      { s with
          workspace := { s.workspace with
            documents := s.workspace.documents.insert uri doc
            lastSeq := lastSeq }
          timers := timers } := by
  obtain ⟨-, -, heq⟩ | ⟨-, heq⟩ := Workspace.change_cases s.workspace uri version changes
  · refine ⟨s.workspace.edited uri version changes, s.workspace.lastSeq, s.timers, ?_⟩
    rw [serve, heq]
    rfl
  · refine ⟨⟨(s.workspace.edited uri version changes).text, version, s.workspace.lastSeq + 1,
      Text.hash (s.workspace.edited uri version changes).text⟩, s.workspace.lastSeq + 1,
      insertTimer (s.newTimer uri (s.workspace.lastSeq + 1)) s.timers, ?_⟩
    rw [serve, heq]
    rfl

theorem workspace_adopt (s : Server) (uri : Uri) (changed : Workspace Analysis × Option Nat) :
    (s.adopt uri changed).workspace = changed.1 := by
  unfold adopt
  split <;> rfl

/-- Settings that can be read are laid over those of the site, and an analyzer is made of them. -/
theorem loadSettings_cases (site : Site) (s : Server) (reply : SettingsReply) :
    s.loadSettings site reply = s ∨ ∃ settings, s.loadSettings site reply =
      { s with settings := settings, analyzer := .ofSettings settings } := by
  unfold loadSettings
  split
  · exact .inl rfl
  · exact .inr ⟨_, rfl⟩

/-- A server that has just started holds settings and their analyzer, and nothing else. -/
theorem start_eq (site : Site) (reply : SettingsReply) :
    ∃ settings, start site reply = { settings := settings, analyzer := .ofSettings settings } := by
  obtain heq | ⟨settings, heq⟩ := loadSettings_cases site (initial site) reply
  · exact ⟨site.settings, heq⟩
  · exact ⟨settings, heq⟩

/-! ## Reloads -/

/-- A server with results dropped and timers set. -/
def refreshEntries (s : Server) (entries : List (Uri × Document)) : Server :=
  entries.foldl (fun s e => s.refresh e.1 e.2.seq) s

/-- Nothing but results and timers is touched. -/
theorem refreshEntries_frame (s : Server) (entries : List (Uri × Document)) :
    ∃ cache timers, s.refreshEntries entries =
      { s with workspace := { s.workspace with cache := cache }, timers := timers } := by
  induction entries generalizing s with
  | nil => exact ⟨s.workspace.cache, s.timers, rfl⟩
  | cons e entries ih =>
    obtain ⟨cache, timers, heq⟩ := ih (s.refresh e.1 e.2.seq)
    refine ⟨cache, timers, ?_⟩
    rw [refreshEntries, List.foldl_cons]
    exact heq

theorem consistent_refreshEntries (h : s.workspace.Consistent) (entries : List (Uri × Document)) :
    (s.refreshEntries entries).workspace.Consistent := by
  induction entries generalizing s with
  | nil => exact h
  | cons e entries ih =>
    rw [refreshEntries, List.foldl_cons]
    exact ih (h.forget e.1)

theorem mem_timers_refreshEntries {entries : List (Uri × Document)} :
    t ∈ (s.refreshEntries entries).timers ↔
      t ∈ s.timers ∨ ∃ e ∈ entries, t = s.newTimer e.1 e.2.seq := by
  induction entries generalizing s with
  | nil => simp [refreshEntries]
  | cons e entries ih =>
    have hstep : t ∈ (s.refresh e.1 e.2.seq).timers ↔
        t = s.newTimer e.1 e.2.seq ∨ t ∈ s.timers := mem_insertTimer
    have hnew : ∀ uri seq, (s.refresh e.1 e.2.seq).newTimer uri seq = s.newTimer uri seq :=
      fun _ _ => rfl
    rw [refreshEntries, List.foldl_cons, ← refreshEntries, ih, hstep]
    simp only [hnew, List.mem_cons, exists_eq_or_imp]
    exact or_assoc.trans or_left_comm

theorem refreshAll_frame (s : Server) : ∃ cache timers, s.refreshAll =
    { s with workspace := { s.workspace with cache := cache }, timers := timers } :=
  s.refreshEntries_frame s.workspace.documents.entries

/-- When settings are loaded, no document is touched, nothing published and no time passes. -/
theorem reload_frame (site : Site) (s : Server) (reply : SettingsReply) :
    ∃ settings analyzer cache timers, (s.loadSettings site reply).refreshAll =
      { s with
          workspace := { s.workspace with cache := cache }
          settings := settings
          analyzer := analyzer
          timers := timers } := by
  obtain ⟨cache, timers, heq⟩ := (s.loadSettings site reply).refreshAll_frame
  rw [heq]
  obtain hload | ⟨settings, hload⟩ := loadSettings_cases site s reply <;> rw [hload]
  · exact ⟨s.settings, s.analyzer, cache, timers, rfl⟩
  · exact ⟨settings, .ofSettings settings, cache, timers, rfl⟩

theorem consistent_refreshAll (h : s.workspace.Consistent) : s.refreshAll.workspace.Consistent :=
  consistent_refreshEntries h s.workspace.documents.entries

/-- The timers behind a reload are those before it, and one for each document. -/
theorem mem_timers_refreshAll : t ∈ s.refreshAll.timers ↔
    t ∈ s.timers ∨ ∃ e ∈ s.workspace.documents.entries, t = s.newTimer e.1 e.2.seq :=
  mem_timers_refreshEntries

/-! ## Publications -/

/-- What the editor was told last about a document. -/
def lastPublication? (s : Server) (uri : Uri) : Option Publication :=
  (s.log.filter (·.uri = uri)).getLast?

theorem lastPublication?_publish (s : Server) (uri key : Uri) (diagnostics : List Diagnostic)
    (version : Option Int) : (s.publish uri diagnostics version).lastPublication? key =
      if key = uri then some ⟨s.clock, uri, diagnostics, version⟩ else s.lastPublication? key := by
  by_cases h : key = uri
  · subst h
    simp [lastPublication?]
  · simp [lastPublication?, h, Ne.symm h]

end Krl.Server
