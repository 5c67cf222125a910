import Krl.Proofs.Server.Expiry

/-!
# What a request means to a document

To one document a request other than for new settings does one of three things: the document draws a
number and a timer is set for it (`Renewed`), it is closed (`Closed`), or it stays as it is but for
its version and its result (`Undisturbed`). Each tells which timers await the document afterwards,
and what is published for it. A timer that awaits a document has been set under its last number,
since numbers are drawn once and timers are set under drawn ones only (`Orderly`).

* `renewed_opened`, `changed_cases`, `closed_closed`, `undisturbed_of_not_concerns`: which requests
  do what.
* `Orderly.step`: the invariant is kept by each event.
-/

set_option autoImplicit false

namespace Krl.Server

variable {site : Site} {s s' : Server} {uri : Uri}

/-! ## One document -/

/-- The document draws a number, and a timer is set for it. -/
structure Renewed (s s' : Server) (uri : Uri) : Prop where
  document : ∃ doc, s'.workspace.documents.get? uri = some doc ∧ doc.seq = s.workspace.lastSeq + 1
  timers : s'.timers = insertTimer (s.newTimer uri (s.workspace.lastSeq + 1)) s.timers
  log : s'.log = s.log

/-- There is no such document any more. -/
structure Closed (s s' : Server) (uri : Uri) : Prop where
  document : s'.workspace.documents.get? uri = none
  timers : s'.timers = s.timers
  log : s'.log = s.log ++ [⟨s.clock, uri, [], none⟩]

/-- The document keeps its number, and no timer is set and nothing published for it. -/
structure Undisturbed (s s' : Server) (uri : Uri) : Prop where
  seq : (s'.workspace.documents.get? uri).map (·.seq) =
    (s.workspace.documents.get? uri).map (·.seq)
  timers : s'.timers.filter (·.uri = uri) = s.timers.filter (·.uri = uri)
  log : s'.log.filter (·.uri = uri) = s.log.filter (·.uri = uri)

/-- A timer awaits a document if it has the number of the document. -/
theorem isSome_target? (s : Server) (timer : Timer) : (s.target? timer).isSome =
    ((s.workspace.documents.get? timer.uri).map (·.seq) == some timer.seq) := by
  cases hdoc : s.workspace.documents.get? timer.uri with
  | none => simp [target?, hdoc]
  | some doc => by_cases hseq : doc.seq = timer.seq <;> simp [target?, hdoc, Option.filter, hseq]

theorem awaiting_eq (s : Server) (uri : Uri) : s.awaiting uri =
    (s.timers.filter (·.uri = uri)).filter fun t =>
      (s.workspace.documents.get? uri).map (·.seq) == some t.seq := by
  rw [awaiting, List.filter_filter]
  refine List.filter_congr fun t _ => ?_
  by_cases huri : t.uri = uri
  · simp [isSome_target?, huri]
  · simp [huri]

namespace Renewed

/-- The timer that has just been set is the only one that awaits the document. -/
theorem awaiting (h : Renewed s s' uri) (hseq : ∀ t ∈ s.timers, t.seq ≤ s.workspace.lastSeq) :
    s'.awaiting uri = [s.newTimer uri (s.workspace.lastSeq + 1)] := by
  obtain ⟨doc, hdoc, hnew⟩ := h.document
  rw [Server.awaiting, h.timers]
  refine filter_insertTimer_of_pos ?_ fun t ht => ?_
  · simp [isSome_target?, newTimer, hdoc, hnew]
  · by_cases huri : t.uri = uri
    · have := hseq t ht
      have hne : s.workspace.lastSeq + 1 ≠ t.seq := by omega
      simp [isSome_target?, huri, hdoc, hnew, hne]
    · simp [huri]

theorem published (h : Renewed s s' uri) : s'.published uri = s.published uri := by
  rw [Server.published, h.log, Server.published]

theorem cleared (h : Renewed s s' uri) : s'.cleared uri = s.cleared uri := by
  rw [Server.cleared, h.log, Server.cleared]

end Renewed

namespace Closed

theorem awaiting (h : Closed s s' uri) : s'.awaiting uri = [] := by
  simp [awaiting_eq, h.document]

theorem published (h : Closed s s' uri) : s'.published uri = s.published uri := by
  simp [Server.published, h.log]

theorem cleared (h : Closed s s' uri) :
    s'.cleared uri = s.cleared uri ++ [⟨s.clock, uri, [], none⟩] := by
  simp [Server.cleared, h.log]

end Closed

namespace Undisturbed

theorem refl (s : Server) (uri : Uri) : Undisturbed s s uri := ⟨rfl, rfl, rfl⟩

theorem awaiting (h : Undisturbed s s' uri) : s'.awaiting uri = s.awaiting uri := by
  rw [awaiting_eq, h.seq, h.timers, ← awaiting_eq]

theorem published (h : Undisturbed s s' uri) : s'.published uri = s.published uri := by
  have hlog := congrArg (List.filter fun p => p.version.isSome) h.log
  simpa [Server.published, List.filter_filter, Bool.and_comm] using hlog

theorem cleared (h : Undisturbed s s' uri) : s'.cleared uri = s.cleared uri := by
  have hlog := congrArg (List.filter fun p => p.version.isNone) h.log
  simpa [Server.cleared, List.filter_filter, Bool.and_comm] using hlog

end Undisturbed

/-! ## Requests -/

/-- Does the request speak of the document, or of all documents? -/
def Request.concerns (uri : Uri) : Request → Prop
  | .opened u _ _ => u = uri
  | .changed u _ _ => u = uri
  | .closed u => u = uri
  | .settingsChanged _ => True
  | _ => False

theorem undisturbed_setTimer (s : Server) {u : Uri} (hu : u ≠ uri) (seq : Nat) :
    Undisturbed s (s.setTimer u seq) uri :=
  ⟨rfl, filter_insertTimer_of_neg (by simpa using hu), rfl⟩

theorem Undisturbed.trans {s₁ s₂ s₃ : Server} (h₁ : Undisturbed s₁ s₂ uri)
    (h₂ : Undisturbed s₂ s₃ uri) : Undisturbed s₁ s₃ uri :=
  ⟨h₂.seq.trans h₁.seq, h₂.timers.trans h₁.timers, h₂.log.trans h₁.log⟩

theorem undisturbed_of_workspace (s : Server) {w : Workspace Analysis}
    (h : w.documents.get? uri = s.workspace.documents.get? uri) :
    Undisturbed s { s with workspace := w } uri :=
  ⟨congrArg (Option.map _) h, rfl, rfl⟩

/-- An edit that keeps the number of its document leaves it as it is. -/
theorem undisturbed_edit (s : Server) {doc : Document}
    (hdoc : s.workspace.documents.get? uri = some doc) (version : Int)
    (changes : List Text.Change) : Undisturbed s { s with workspace := { s.workspace with
      documents := s.workspace.documents.insert uri (doc.edit version changes) } } uri := by
  have hnew := Table.get?_insert_self s.workspace.documents uri (doc.edit version changes)
  refine ⟨?_, rfl, rfl⟩
  rw [hdoc]
  exact (congrArg (Option.map (·.seq)) hnew).trans rfl

/-- A request that does not concern a document leaves it as it is. -/
theorem undisturbed_of_not_concerns (site : Site) (s : Server) {r : Request}
    (hr : ¬ r.concerns uri) : Undisturbed s (s.serve site r).1 uri ∧
      (s.serve site r).1.workspace.documents.get? uri = s.workspace.documents.get? uri := by
  have hdemand : ∀ u, Undisturbed s (s.analysisFor site u).1 uri ∧
      (s.analysisFor site u).1.workspace.documents = s.workspace.documents := by
    intro u
    obtain ⟨cache, heq⟩ := analysisFor_frame site s u
    rw [heq]
    exact ⟨undisturbed_of_workspace s rfl, rfl⟩
  cases r with
  | opened u version text =>
    have hdoc : (s.workspace.openDocument u version text).1.documents.get? uri =
        s.workspace.documents.get? uri := by
      rw [Workspace.documents_openDocument, Table.get?_insert_of_ne _ hr]
    exact ⟨(undisturbed_of_workspace s hdoc).trans (undisturbed_setTimer _ hr _), hdoc⟩
  | changed u version changes =>
    rw [serve]
    obtain ⟨-, -, heq⟩ | ⟨-, heq⟩ := Workspace.change_cases s.workspace u version changes
    · rw [heq]
      have hdoc := Table.get?_insert_of_ne s.workspace.documents hr
        (s.workspace.edited u version changes)
      exact ⟨undisturbed_of_workspace s hdoc, hdoc⟩
    · rw [heq]
      have hdoc := Table.get?_insert_of_ne s.workspace.documents hr
        ⟨(s.workspace.edited u version changes).text, version, s.workspace.lastSeq + 1,
          Text.hash (s.workspace.edited u version changes).text⟩
      exact ⟨(undisturbed_of_workspace s hdoc).trans (undisturbed_setTimer _ hr _), hdoc⟩
  | closed u =>
    have hdoc := Table.get?_erase_of_ne s.workspace.documents hr
    refine ⟨(undisturbed_of_workspace s hdoc).trans ⟨rfl, rfl, ?_⟩, hdoc⟩
    have hne : u ≠ uri := hr
    simp [serve, hne]
  | settingsChanged reply => exact absurd trivial hr
  | completion u cursor trigger =>
    simp only [serve]
    split
    · exact ⟨.refl s uri, rfl⟩
    · exact ⟨(hdemand u).1, by rw [(hdemand u).2]⟩
  | symbols u => exact ⟨(hdemand u).1, by rw [serve, (hdemand u).2]⟩
  | malformed => exact ⟨.refl s uri, rfl⟩
  | shutdown => exact ⟨⟨rfl, rfl, rfl⟩, rfl⟩

theorem renewed_opened (site : Site) (s : Server) (uri : Uri) (version : Int) (text : String) :
    Renewed s (s.serve site (.opened uri version text)).1 uri :=
  ⟨⟨_, Table.get?_insert_self .., rfl⟩, rfl, rfl⟩

/-- The text of a document; one that is not open has no text yet. -/
def textOf (s : Server) (uri : Uri) : String :=
  ((s.workspace.documents.get? uri).getD {}).text

theorem textOf_of_get? {doc : Document} (h : s.workspace.documents.get? uri = some doc) :
    s.textOf uri = doc.text := by
  rw [textOf, h]
  rfl

/-- An edit that finds a result and leaves a text with the hash of the old one changes no more than
text and version; any other has its document draw a number. -/
theorem changed_cases (site : Site) (h : s.workspace.Consistent) (uri : Uri) (version : Int)
    (changes : List Text.Change) :
    ((s.workspace.cache.get? uri).isSome ∧ ∃ doc, s.workspace.documents.get? uri = some doc ∧
      Text.hash (doc.edit version changes).text = Text.hash doc.text ∧
      (s.serve site (.changed uri version changes)).1 = { s with workspace := { s.workspace with
        documents := s.workspace.documents.insert uri (doc.edit version changes) } }) ∨
    (¬ ((s.workspace.cache.get? uri).isSome ∧
        (s.workspace.edited uri version changes).text = s.textOf uri) ∧
      Renewed s (s.serve site (.changed uri version changes)).1 uri ∧
      (s.serve site (.changed uri version changes)).1.textOf uri =
        (s.workspace.edited uri version changes).text) := by
  have hopen : (s.workspace.cache.get? uri).isSome → ∃ doc,
      s.workspace.documents.get? uri = some doc ∧
        s.workspace.edited uri version changes = doc.edit version changes := by
    intro hcached
    obtain ⟨result, hresult⟩ := Option.isSome_iff_exists.1 hcached
    obtain ⟨doc, hdoc⟩ := Option.isSome_iff_exists.1 (h.cached uri result hresult)
    exact ⟨doc, hdoc, by rw [Workspace.edited, hdoc]; rfl⟩
  rw [serve]
  obtain ⟨hhash, hcached, heq⟩ | ⟨hnot, heq⟩ :=
    Workspace.change_cases s.workspace uri version changes
  · obtain ⟨doc, hdoc, hed⟩ := hopen hcached
    rw [hed] at hhash heq
    exact .inl ⟨hcached, doc, hdoc, hhash.trans (h.hash uri doc hdoc), by rw [heq]; rfl⟩
  · have hnew := Table.get?_insert_self s.workspace.documents uri
      ⟨(s.workspace.edited uri version changes).text, version, s.workspace.lastSeq + 1,
        Text.hash (s.workspace.edited uri version changes).text⟩
    rw [heq]
    refine .inr ⟨?_, ⟨⟨_, hnew, rfl⟩, rfl, rfl⟩,
      congrArg (fun doc => (Option.getD doc {}).text) hnew⟩
    rintro ⟨hcached, htext⟩
    refine hnot ⟨?_, hcached⟩
    obtain ⟨doc, hdoc, hed⟩ := hopen hcached
    rw [htext, textOf_of_get? hdoc, hed]
    exact (h.hash uri doc hdoc).symm

theorem closed_closed (site : Site) (s : Server) (uri : Uri) :
    Closed s (s.serve site (.closed uri)).1 uri :=
  ⟨Table.get?_erase_self .., rfl, rfl⟩

/-! ## Requests that load no settings -/

/-- Are settings loaded anew? -/
def reloads (s : Server) : Event → Bool
  | .request (.settingsChanged _) => !s.stopped
  | _ => false

theorem step_of_reloads (site : Site) {e : Event} (h : s.reloads e = true) :
    ∃ reply, s.step site e = (s.loadSettings site reply).refreshAll := by
  cases e with
  | elapse ms => cases h
  | request r =>
    cases r <;> simp only [reloads, Bool.false_eq_true, Bool.not_eq_true'] at h
    next reply =>
    refine ⟨reply, ?_⟩
    rw [step, handle_of_not_stopped site h]
    rfl

section
variable {r : Request}

/-- A request that loads no settings leaves settings and clock, and sets one timer at most. -/
theorem handle_frame (site : Site) (h : s.reloads (.request r) = false) :
    (s.handle site r).1.settings = s.settings ∧ (s.handle site r).1.analyzer = s.analyzer ∧
      (s.handle site r).1.clock = s.clock ∧ ((s.handle site r).1.timers = s.timers ∨
        ∃ u seq, (s.handle site r).1.timers = insertTimer (s.newTimer u seq) s.timers) := by
  by_cases hstopped : s.stopped = true
  · rw [handle_of_stopped site hstopped]
    exact ⟨rfl, rfl, rfl, .inl rfl⟩
  have hdemand : ∀ u, (s.analysisFor site u).1.settings = s.settings ∧
      (s.analysisFor site u).1.analyzer = s.analyzer ∧
      (s.analysisFor site u).1.clock = s.clock ∧
      ((s.analysisFor site u).1.timers = s.timers ∨
        ∃ v seq, (s.analysisFor site u).1.timers = insertTimer (s.newTimer v seq) s.timers) := by
    intro u
    obtain ⟨cache, heq⟩ := analysisFor_frame site s u
    rw [heq]
    exact ⟨rfl, rfl, rfl, .inl rfl⟩
  rw [handle_of_not_stopped site (Bool.eq_false_iff.2 hstopped)]
  cases r with
  | opened u version text => exact ⟨rfl, rfl, rfl, .inr ⟨u, _, rfl⟩⟩
  | changed u version changes =>
    rw [serve]
    obtain ⟨-, -, heq⟩ | ⟨-, heq⟩ := Workspace.change_cases s.workspace u version changes
    · rw [heq]
      exact ⟨rfl, rfl, rfl, .inl rfl⟩
    · rw [heq]
      exact ⟨rfl, rfl, rfl, .inr ⟨u, _, rfl⟩⟩
  | closed u => exact ⟨rfl, rfl, rfl, .inl rfl⟩
  | settingsChanged reply => simp [reloads, hstopped] at h
  | completion u cursor trigger =>
    simp only [serve]
    split
    · exact ⟨rfl, rfl, rfl, .inl rfl⟩
    · exact hdemand u
  | symbols u => exact hdemand u
  | malformed => exact ⟨rfl, rfl, rfl, .inl rfl⟩
  | shutdown => exact ⟨rfl, rfl, rfl, .inl rfl⟩

/-- To a document such a request does one of three things. -/
theorem handle_cases (site : Site) (hs : s.workspace.Consistent)
    (h : s.reloads (.request r) = false) (uri : Uri) : Renewed s (s.handle site r).1 uri ∨
      Closed s (s.handle site r).1 uri ∨ Undisturbed s (s.handle site r).1 uri := by
  by_cases hstopped : s.stopped = true
  · rw [handle_of_stopped site hstopped]
    exact .inr (.inr (.refl s uri))
  rw [handle_of_not_stopped site (Bool.eq_false_iff.2 hstopped)]
  by_cases hr : r.concerns uri
  · cases r <;> simp only [Request.concerns] at hr
    · exact .inl (hr ▸ renewed_opened site s _ _ _)
    · next u version changes =>
      subst hr
      obtain ⟨-, doc, hdoc, -, heq⟩ | ⟨-, hrenewed, -⟩ := changed_cases site hs u version changes
      · refine .inr (.inr ?_)
        rw [heq]
        exact undisturbed_edit s hdoc version changes
      · exact .inl hrenewed
    · exact .inr (.inl (hr ▸ closed_closed site s _))
    · simp [reloads, hstopped] at h
  · exact .inr (.inr (undisturbed_of_not_concerns site s hr).1)

end

/-! ## The invariant -/

/-- What holds wherever the events lead: no number is in use that has not been drawn, and timers
stand in the order in which they are due. -/
structure Orderly (s : Server) : Prop where
  consistent : s.workspace.Consistent
  drawn : ∀ e ∈ s.workspace.documents.entries, e.2.seq ≤ s.workspace.lastSeq
  ordered : Ordered s.timers
  seq_le : ∀ t ∈ s.timers, t.seq ≤ s.workspace.lastSeq

namespace Orderly

theorem withWorkspace (h : Orderly s) {w : Workspace Analysis} (hw : w.Consistent)
    (hdrawn : ∀ e ∈ w.documents.entries, e.2.seq ≤ w.lastSeq)
    (hle : s.workspace.lastSeq ≤ w.lastSeq) : Orderly { s with workspace := w } :=
  ⟨hw, hdrawn, h.ordered, fun t ht => Nat.le_trans (h.seq_le t ht) hle⟩

theorem setTimer (h : Orderly s) (uri : Uri) {seq : Nat} (hseq : seq ≤ s.workspace.lastSeq) :
    Orderly (s.setTimer uri seq) := by
  refine ⟨h.consistent, h.drawn, ordered_insertTimer h.ordered _, fun t ht => ?_⟩
  rcases mem_timers_setTimer.1 ht with rfl | ht
  · exact hseq
  · exact h.seq_le t ht

theorem drawn_insert (h : Orderly s) (uri : Uri) {doc : Document} {n : Nat} (hseq : doc.seq ≤ n)
    (hn : s.workspace.lastSeq ≤ n) :
    ∀ e ∈ (s.workspace.documents.insert uri doc).entries, e.2.seq ≤ n := by
  intro e he
  rcases Table.mem_entries_insert he with he | he
  · exact Nat.le_trans (h.drawn e he) hn
  · rw [he]
    exact hseq

theorem opened (h : Orderly s) (site : Site) (uri : Uri) (version : Int) (text : String) :
    Orderly (s.serve site (.opened uri version text)).1 :=
  have hopened := h.withWorkspace (h.consistent.openDocument uri version text)
    (h.drawn_insert uri (Nat.le_refl _) (Nat.le_succ _)) (Nat.le_succ _)
  hopened.setTimer uri (Nat.le_refl _)

theorem changed (h : Orderly s) (site : Site) (uri : Uri) (version : Int)
    (changes : List Text.Change) : Orderly (s.serve site (.changed uri version changes)).1 := by
  have hw := h.consistent.change uri version changes
  rw [serve]
  obtain ⟨doc, hdoc, -, heq⟩ | heq := h.consistent.kept_cases uri version changes
  · rw [heq] at hw ⊢
    exact h.withWorkspace hw (h.drawn_insert uri (h.consistent.seq_le uri doc hdoc) (Nat.le_refl _))
      (Nat.le_refl _)
  · rw [heq] at hw ⊢
    exact (h.withWorkspace hw (h.drawn_insert uri (Nat.le_refl _) (Nat.le_succ _))
      (Nat.le_succ _)).setTimer uri (Nat.le_refl _)

theorem closed (h : Orderly s) (site : Site) (uri : Uri) :
    Orderly (s.serve site (.closed uri)).1 :=
  ⟨h.consistent.close uri, fun e he => h.drawn e (Table.mem_entries_erase he), h.ordered, h.seq_le⟩

theorem store (h : Orderly s) {uri : Uri} {doc : Document}
    (hdoc : s.workspace.documents.get? uri = some doc) (result : Analysis) :
    Orderly (s.store uri result) :=
  h.withWorkspace (h.consistent.store hdoc result) h.drawn (Nat.le_refl _)

theorem analysisFor (h : Orderly s) (site : Site) (uri : Uri) :
    Orderly (s.analysisFor site uri).1 := by
  obtain heq | ⟨doc, hdoc, -, heq⟩ := analysisFor_cases site s uri
  · rw [heq]
    exact h
  · rw [heq]
    exact h.store hdoc _

theorem refreshEntries (h : Orderly s) {entries : List (Uri × Document)}
    (hentries : ∀ e ∈ entries, e.2.seq ≤ s.workspace.lastSeq) :
    Orderly (s.refreshEntries entries) := by
  induction entries generalizing s with
  | nil => exact h
  | cons e entries ih =>
    obtain ⟨he, hrest⟩ := List.forall_mem_cons.1 hentries
    have hforget : Orderly { s with workspace := s.workspace.forget e.1 } :=
      h.withWorkspace (h.consistent.forget e.1) h.drawn (Nat.le_refl _)
    exact ih (hforget.setTimer e.1 he) hrest

theorem settingsChanged (h : Orderly s) (site : Site) (reply : SettingsReply) :
    Orderly (s.serve site (.settingsChanged reply)).1 := by
  have hload : Orderly (s.loadSettings site reply) := by
    obtain heq | ⟨settings, heq⟩ := loadSettings_cases site s reply
    · rw [heq]
      exact h
    · rw [heq]
      exact ⟨h.consistent, h.drawn, h.ordered, h.seq_le⟩
  exact hload.refreshEntries hload.drawn

theorem serve (h : Orderly s) (site : Site) (r : Request) : Orderly (s.serve site r).1 := by
  cases r with
  | opened uri version text => exact h.opened site uri version text
  | changed uri version changes => exact h.changed site uri version changes
  | closed uri => exact h.closed site uri
  | settingsChanged reply => exact h.settingsChanged site reply
  | completion uri cursor trigger =>
    simp only [Server.serve]
    split
    · exact h
    · exact h.analysisFor site uri
  | symbols uri => exact h.analysisFor site uri
  | malformed => exact h
  | shutdown => exact ⟨h.consistent, h.drawn, h.ordered, h.seq_le⟩

theorem fire (h : Orderly s) (site : Site) (timer : Timer) : Orderly (s.fire site timer) := by
  obtain ⟨doc, hdoc, -, heq⟩ | ⟨-, heq⟩ := fire_cases site s timer
  · rw [heq]
    exact ⟨h.consistent.store hdoc _, h.drawn, h.ordered, h.seq_le⟩
  · rw [heq]
    exact ⟨h.consistent, h.drawn, h.ordered, h.seq_le⟩

theorem foldl_fire (h : Orderly s) (site : Site) (due : List Timer) :
    Orderly (due.foldl (Server.fire site) s) := by
  induction due generalizing s with
  | nil => exact h
  | cons t due ih => exact ih (h.fire site t)

theorem elapse (h : Orderly s) (site : Site) (ms : Nat) : Orderly (s.elapse site ms) := by
  have hrest : (s.timers.dropWhile (·.due ≤ s.clock + ms)).Sublist s.timers :=
    List.dropWhile_sublist _
  have hwait : Orderly { s with timers := s.timers.dropWhile (·.due ≤ s.clock + ms) } :=
    ⟨h.consistent, h.drawn, h.ordered.sublist hrest, fun t ht => h.seq_le t (hrest.mem ht)⟩
  have hfired := hwait.foldl_fire site (s.timers.takeWhile (·.due ≤ s.clock + ms))
  exact ⟨hfired.consistent, hfired.drawn, hfired.ordered, hfired.seq_le⟩

theorem step (h : Orderly s) (site : Site) (e : Event) : Orderly (s.step site e) := by
  cases e with
  | elapse ms => exact h.elapse site ms
  | request r =>
    by_cases hstopped : s.stopped = true
    · rw [Server.step, handle_of_stopped site hstopped]
      exact h
    · rw [Server.step, handle_of_not_stopped site (Bool.eq_false_iff.2 hstopped)]
      exact h.serve site r

theorem start (site : Site) (reply : SettingsReply) : Orderly (start site reply) := by
  obtain ⟨settings, heq⟩ := start_eq site reply
  rw [heq]
  exact ⟨.empty, nofun, .nil, nofun⟩

end Orderly

end Krl.Server
