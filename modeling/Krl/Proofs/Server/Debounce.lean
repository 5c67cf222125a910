import Krl.Proofs.Server.Freshness
import Krl.Proofs.Server.Requests

/-!
# Analyses that wait

An opening, and an edit that alters the text or finds no result, has the document analysed after the
wait that is set, unless the document is closed or another analysis is asked for before. While the
settings stay as they are, exactly these analyses are published, each once and at its time: what is
published for a document are its outcomes, one after another, of the moments at which an analysis is
asked for (`published_run`).

* `published_of_moments`: what a session publishes for a document, moment by moment.
-/

set_option autoImplicit false

namespace Krl.Server

/-! ## What is to be published -/

/-- Does the request ask for an analysis of the document? An opening does, and an edit that alters
the text or finds no result. -/
def schedules (s : Server) (uri : Uri) : Request → Bool
  | .opened u _ _ => !s.stopped && u = uri
  | .changed u version changes => !s.stopped && u = uri &&
      ((s.workspace.edited uri version changes).text ≠ s.textOf uri ||
        !s.workspace.cache.contains uri)
  | _ => false

def closes (s : Server) (uri : Uri) : Request → Bool
  | .closed u => !s.stopped && u = uri
  | _ => false

section
variable (site : Site) (settings : Settings) (uri : Uri)

/-- The state at the beginning of the wait in which a time comes, unless the document is closed or
another analysis of it is asked for before. -/
def waitFor? (due : Nat) : Server → List Event → Option Server
  | _, [] => none
  | s, .elapse ms :: later =>
    if due ≤ s.clock + ms then some s else waitFor? due (s.elapse site ms) later
  | s, .request r :: later =>
    if s.schedules uri r || s.closes uri r then none else waitFor? due (s.handle site r).1 later

/-- What comes of an analysis of the present text that is due at a time: its diagnostics, under the
version that the document then has. -/
def outcome? (due : Nat) (s : Server) (later : List Event) : Option Publication :=
  (waitFor? site uri due s later).map fun t =>
    ⟨due, uri, ((Analyzer.ofSettings settings).analyze site.host (s.textOf uri)).diagnostics.take
      settings.maxProblems, (t.workspace.documents.get? uri).map (·.version)⟩

/-- What comes of the analysis that is asked for at a moment, if one is. -/
def publicationOf? (m : Moment Server Event) : Option Publication :=
  match m.event with
  | .request r =>
    if m.state.schedules uri r then
      outcome? site settings uri (m.state.clock + settings.debounce) (m.state.handle site r).1
        m.later
    else none
  | .elapse _ => none

/-- The empty list that a closing publishes. -/
def clearingOf? (m : Moment Server Event) : Option Publication :=
  match m.event with
  | .request r => if m.state.closes uri r then some ⟨m.state.clock, uri, [], none⟩ else none
  | .elapse _ => none

end

/-! ## Requests -/

section
variable {site : Site} {settings : Settings} {s : Server} {uri : Uri} {r : Request}

theorem handle_closed (site : Site) (h : s.closes uri r = true) :
    Closed s (s.handle site r).1 uri := by
  cases r <;> simp only [closes, Bool.false_eq_true, Bool.and_eq_true, Bool.not_eq_true',
    decide_eq_true_eq] at h
  obtain ⟨hrunning, rfl⟩ := h
  rw [handle_of_not_stopped site hrunning]
  exact closed_closed site s _

/-- Where hashes tell the two texts apart, an edit that asks for an analysis draws a number. -/
theorem handle_renewed (hs : s.workspace.Consistent)
    (hfaithful : s.workspace.Faithful (s.handle site r).1.workspace)
    (h : s.schedules uri r = true) : Renewed s (s.handle site r).1 uri := by
  cases r <;> simp only [schedules, Bool.false_eq_true, Bool.and_eq_true, Bool.not_eq_true',
    decide_eq_true_eq] at h
  · obtain ⟨hrunning, rfl⟩ := h
    rw [handle_of_not_stopped site hrunning]
    exact renewed_opened site s _ _ _
  · next u version changes =>
    obtain ⟨⟨hrunning, rfl⟩, hasks⟩ := h
    rw [handle_of_not_stopped site hrunning] at hfaithful ⊢
    obtain ⟨hcached, doc, hdoc, hhash, heq⟩ | ⟨-, hrenewed, -⟩ :=
      changed_cases site hs u version changes
    · rw [heq] at hfaithful
      have htext := hfaithful u doc _ hdoc (Table.get?_insert_self ..) hhash
      have hsame : (s.workspace.edited u version changes).text = s.textOf u := by
        rw [textOf_of_get? hdoc, ← htext, Workspace.edited, hdoc]
        rfl
      simp [hsame, Table.contains, hcached] at hasks
    · exact hrenewed

/-- A request that neither asks for an analysis of the document nor closes it leaves its text. -/
theorem handle_undisturbed (hs : s.workspace.Consistent)
    (hfaithful : s.workspace.Faithful (s.handle site r).1.workspace)
    (hreload : s.reloads (.request r) = false) (hschedules : s.schedules uri r = false)
    (hcloses : s.closes uri r = false) :
    Undisturbed s (s.handle site r).1 uri ∧ (s.handle site r).1.textOf uri = s.textOf uri := by
  by_cases hstopped : s.stopped = true
  · rw [handle_of_stopped site hstopped]
    exact ⟨.refl s uri, rfl⟩
  have hrunning := Bool.eq_false_iff.2 hstopped
  rw [handle_of_not_stopped site hrunning] at hfaithful ⊢
  by_cases hr : r.concerns uri
  · cases r <;> simp only [Request.concerns] at hr
    · simp [schedules, hrunning, hr] at hschedules
    · next u version changes =>
      subst hr
      obtain ⟨hcached, doc, hdoc, hhash, heq⟩ | ⟨hnot, -, -⟩ :=
        changed_cases site hs u version changes
      · rw [heq] at hfaithful ⊢
        have hnew := Table.get?_insert_self s.workspace.documents u (doc.edit version changes)
        have htext := hfaithful u doc _ hdoc hnew hhash
        refine ⟨undisturbed_edit s hdoc version changes, ?_⟩
        rw [textOf_of_get? hdoc, ← htext]
        exact congrArg (fun d => (Option.getD d {}).text) hnew
      · have hasks : (s.workspace.edited u version changes).text = s.textOf u ∧
            (s.workspace.cache.get? u).isSome = true := by
          simpa [schedules, hrunning, Table.contains] using hschedules
        exact absurd hasks.symm hnot
    · simp [closes, hrunning, hr] at hcloses
    · simp [reloads, hrunning] at hreload
  · obtain ⟨hsame, hdoc⟩ := undisturbed_of_not_concerns site s hr
    exact ⟨hsame, by rw [textOf, hdoc, textOf]⟩

/-! ## Runs -/

/-- An orderly server with these settings in force, under which all its timers have been set. -/
structure Steady (settings : Settings) (s : Server) : Prop extends Orderly s where
  settings_eq : s.settings = settings
  analyzer_eq : s.analyzer = .ofSettings settings
  timers : ∀ t ∈ s.timers, t.analyzer = .ofSettings settings ∧ t.limit = settings.maxProblems

namespace Steady

theorem handle (h : Steady settings s) (site : Site) (hreload : s.reloads (.request r) = false) :
    Steady settings (s.handle site r).1 := by
  obtain ⟨hsettings, hanalyzer, -, htimers⟩ := handle_frame site hreload
  refine ⟨h.toOrderly.step site (.request r), hsettings.trans h.settings_eq,
    hanalyzer.trans h.analyzer_eq, fun t ht => ?_⟩
  obtain heq | ⟨u, seq, heq⟩ := htimers
  · exact h.timers t (heq ▸ ht)
  · rcases mem_insertTimer.1 (heq ▸ ht) with rfl | ht
    · exact ⟨h.analyzer_eq, by rw [newTimer, h.settings_eq]⟩
    · exact h.timers t ht

theorem elapse (h : Steady settings s) (site : Site) (ms : Nat) :
    Steady settings (s.elapse site ms) := by
  obtain ⟨cache, heq⟩ := elapse_frame site s ms
  refine ⟨h.toOrderly.elapse site ms, ?_, ?_, fun t ht => h.timers t ?_⟩
  · rw [heq]
    exact h.settings_eq
  · rw [heq]
    exact h.analyzer_eq
  · rw [timers_elapse] at ht
    exact (List.dropWhile_sublist _).mem ht

/-- A timer publishes the outcome of its analysis. -/
theorem publication_eq (h : Steady settings s) {t : Timer} (ht : t ∈ s.awaiting uri) {ms : Nat}
    (hdue : t.due ≤ s.clock + ms) (later : List Event) :
    (s.target? t).map (t.publication site) =
      outcome? site settings uri t.due s (.elapse ms :: later) := by
  obtain ⟨hmem, rfl, doc, htarget⟩ := mem_awaiting.1 ht
  obtain ⟨hanalyzer, hlimit⟩ := h.timers t hmem
  have hdoc := (target?_eq_some.1 htarget).1
  rw [htarget, outcome?, waitFor?, if_pos hdue]
  simp [Timer.publication, hanalyzer, hlimit, textOf_of_get? hdoc, hdoc]

end Steady

theorem textOf_elapse (site : Site) (s : Server) (ms : Nat) (uri : Uri) :
    (s.elapse site ms).textOf uri = s.textOf uri := by
  obtain ⟨cache, heq⟩ := elapse_frame site s ms
  rw [textOf, heq, textOf]

/-- The timers that await a document have their outcomes in a wait, or behind it. -/
theorem outcomes_elapse (h : Steady settings s) (site : Site) (ms : Nat) (later : List Event) :
    (s.awaiting uri).filterMap (fun t => outcome? site settings uri t.due s (.elapse ms :: later)) =
      ((s.awaiting uri).filter (·.due ≤ s.clock + ms)).filterMap
          (fun t => (s.target? t).map (t.publication site)) ++
        ((s.elapse site ms).awaiting uri).filterMap fun t =>
          outcome? site settings uri t.due (s.elapse site ms) later := by
  have hsplit := filter_due_append (ordered_awaiting h.ordered uri) (s.clock + ms)
  rw [awaiting_elapse h.ordered]
  conv_lhs => rw [← hsplit, List.filterMap_append]
  congr 1
  · refine List.filterMap_congr fun t ht => ?_
    obtain ⟨hmem, hdue⟩ := List.mem_filter.1 ht
    exact (h.publication_eq hmem (of_decide_eq_true hdue) later).symm
  · refine List.filterMap_congr fun t ht => ?_
    have hdue : ¬ t.due ≤ s.clock + ms :=
      Nat.not_le_of_lt (of_decide_eq_true (List.mem_filter.1 ht).2)
    rw [outcome?, waitFor?, if_neg hdue, outcome?, textOf_elapse]

/-- What is still to be published for a document: the outcomes of the analyses that it awaits, and
of those that will be asked for. -/
def toCome (site : Site) (settings : Settings) (uri : Uri) (s : Server) (events : List Event) :
    List Publication :=
  ((s.awaiting uri).filterMap fun t => outcome? site settings uri t.due s events) ++
    (moments (step site) s events).filterMap (publicationOf? site settings uri)

theorem toCome_nil (s : Server) : toCome site settings uri s [] = [] := by
  simp [toCome, moments, outcome?, waitFor?]

/-- While time passes, what is to come comes. -/
theorem published_toCome_elapse (h : Steady settings s) (ms : Nat) (later : List Event) :
    (s.elapse site ms).published uri ++ toCome site settings uri (s.elapse site ms) later =
      s.published uri ++ toCome site settings uri s (.elapse ms :: later) := by
  have hmoment : publicationOf? site settings uri ⟨s, .elapse ms, later⟩ = none := rfl
  rw [toCome, toCome, outcomes_elapse h, moments, List.filterMap_cons_none hmoment,
    published_elapse h.ordered]
  simp only [List.append_assoc]
  rfl

/-- A request puts what it asks for in the place of what was to come, takes away what was to come,
or leaves it. -/
theorem published_toCome_request (h : Steady settings s) (later : List Event)
    (hfaithful : s.workspace.Faithful (s.handle site r).1.workspace)
    (hreload : s.reloads (.request r) = false) :
    (s.handle site r).1.published uri ++ toCome site settings uri (s.handle site r).1 later =
      s.published uri ++ toCome site settings uri s (.request r :: later) := by
  have hmoments : moments (step site) s (.request r :: later) =
      ⟨s, .request r, later⟩ :: moments (step site) (s.handle site r).1 later := rfl
  by_cases hschedules : s.schedules uri r = true
  · -- the timer that is set now is the only one that awaits the document: others come to nothing
    have hrenewed := handle_renewed h.consistent hfaithful hschedules
    have hmoment : publicationOf? site settings uri ⟨s, .request r, later⟩ =
        outcome? site settings uri (s.clock + settings.debounce) (s.handle site r).1 later :=
      if_pos hschedules
    have hdue : (s.newTimer uri (s.workspace.lastSeq + 1)).due = s.clock + settings.debounce := by
      rw [newTimer, h.settings_eq]
    have hgone : ∀ due, outcome? site settings uri due s (.request r :: later) = none := by
      simp [outcome?, waitFor?, hschedules]
    simp only [toCome, hmoments, hgone, List.filterMap_none, List.nil_append]
    rw [hrenewed.published, hrenewed.awaiting h.seq_le]
    simp only [List.filterMap_cons, List.filterMap_nil, hmoment, hdue]
    cases outcome? site settings uri (s.clock + settings.debounce) (s.handle site r).1 later <;> rfl
  have hmoment : publicationOf? site settings uri ⟨s, .request r, later⟩ = none :=
    if_neg hschedules
  rw [toCome, toCome, hmoments, List.filterMap_cons_none hmoment]
  by_cases hcloses : s.closes uri r = true
  · -- no timer awaits a document that is closed
    have hclosed := handle_closed site hcloses
    have hgone : ∀ due, outcome? site settings uri due s (.request r :: later) = none := by
      simp [outcome?, waitFor?, hcloses]
    simp only [hclosed.published, hclosed.awaiting, hgone, List.filterMap_none, List.filterMap_nil]
  · obtain ⟨hsame, htext⟩ := handle_undisturbed h.consistent hfaithful hreload
      (Bool.eq_false_iff.2 hschedules) (Bool.eq_false_iff.2 hcloses)
    have hstays : ∀ due, outcome? site settings uri due s (.request r :: later) =
        outcome? site settings uri due (s.handle site r).1 later := by
      simp [outcome?, waitFor?, hschedules, hcloses, htext]
    simp only [hsame.published, hsame.awaiting, hstays]

/-- What a run publishes for a document: the outcomes of the analyses that it awaits already, and of
those that are asked for on the way. -/
theorem published_run (events : List Event) (h : Steady settings s)
    (hash : Set.InjOn Text.hash (Workspace.textsOf (step site) workspace s events))
    (hload : ∀ m ∈ moments (step site) s events, m.state.reloads m.event = false) :
    (s.run site events).published uri = s.published uri ++ toCome site settings uri s events := by
  induction events generalizing s with
  | nil =>
    rw [toCome_nil, List.append_nil]
    rfl
  | cons e later ih =>
    obtain ⟨hfirst, hrest⟩ := List.forall_mem_cons.1 hload
    have hfaithful := Workspace.faithful_of_injOn_cons hash
    have hmono := hash.mono Workspace.textsOf_cons
    cases e with
    | elapse ms =>
      exact (ih (h.elapse site ms) hmono hrest).trans (published_toCome_elapse h ms later)
    | request r =>
      exact (ih (h.handle site hfirst) hmono hrest).trans
        (published_toCome_request h later hfaithful hfirst)

/-- A closing publishes the empty list, and no other request publishes anything. -/
theorem cleared_handle (h : Steady settings s) (later : List Event)
    (hfaithful : s.workspace.Faithful (s.handle site r).1.workspace)
    (hreload : s.reloads (.request r) = false) : (s.handle site r).1.cleared uri =
      s.cleared uri ++ (clearingOf? uri ⟨s, .request r, later⟩).toList := by
  by_cases hcloses : s.closes uri r = true
  · have hmoment : clearingOf? uri ⟨s, .request r, later⟩ = some ⟨s.clock, uri, [], none⟩ :=
      if_pos hcloses
    rw [hmoment, (handle_closed site hcloses).cleared]
    rfl
  have hmoment : clearingOf? uri ⟨s, .request r, later⟩ = none := if_neg hcloses
  rw [hmoment, Option.toList_none, List.append_nil]
  by_cases hschedules : s.schedules uri r = true
  · exact (handle_renewed h.consistent hfaithful hschedules).cleared
  · exact (handle_undisturbed h.consistent hfaithful hreload
      (Bool.eq_false_iff.2 hschedules) (Bool.eq_false_iff.2 hcloses)).1.cleared

/-- What a run publishes for a document when it is closed. -/
theorem cleared_run (events : List Event) (h : Steady settings s)
    (hash : Set.InjOn Text.hash (Workspace.textsOf (step site) workspace s events))
    (hload : ∀ m ∈ moments (step site) s events, m.state.reloads m.event = false) :
    (s.run site events).cleared uri =
      s.cleared uri ++ (moments (step site) s events).filterMap (clearingOf? uri) := by
  induction events generalizing s with
  | nil => exact (List.append_nil _).symm
  | cons e later ih =>
    obtain ⟨hfirst, hrest⟩ := List.forall_mem_cons.1 hload
    have hfaithful := Workspace.faithful_of_injOn_cons hash
    have hmono := hash.mono Workspace.textsOf_cons
    cases e with
    | elapse ms =>
      have hmoment : clearingOf? uri ⟨s, .elapse ms, later⟩ = none := rfl
      have hwait : (s.elapse site ms).cleared uri = s.cleared uri := cleared_elapse ms uri
      rw [moments, List.filterMap_cons_none hmoment, ← hwait]
      exact ih (h.elapse site ms) hmono hrest
    | request r =>
      refine (ih (h.handle site hfirst) hmono hrest).trans ?_
      rw [cleared_handle h later hfaithful hfirst, List.append_assoc]
      cases hmoment : clearingOf? uri ⟨s, .request r, later⟩ <;>
        simp [moments, hmoment, step]

end

/-! ## Sessions -/

theorem steady_start (site : Site) (reply : SettingsReply) :
    Steady (start site reply).settings (start site reply) := by
  obtain ⟨settings, heq⟩ := start_eq site reply
  refine ⟨.start site reply, rfl, ?_, ?_⟩ <;> rw [heq]
  exact nofun

/-- Where hashes tell the texts of a session apart and its settings are not loaded again, what it
publishes for a document is, moment by moment, what comes of the analyses that are asked for: each
is published once, after the wait that is set, if the time comes within the session and the document
has neither been closed before nor another analysis of it asked for; under the version that the
document then has, and with as many diagnostics of the text that was left as the limit admits. Apart
from these, each closing publishes the empty list. -/
theorem published_of_moments (site : Site) (reply : SettingsReply) (events : List Event)
    (hash : Set.InjOn Text.hash (texts site reply events))
    (hload : ∀ m ∈ moments (step site) (start site reply) events, m.state.reloads m.event = false)
    (uri : Uri) :
    (session site reply events).published uri =
      (moments (step site) (start site reply) events).filterMap
        (publicationOf? site (start site reply).settings uri) ∧
    (session site reply events).cleared uri =
      (moments (step site) (start site reply) events).filterMap (clearingOf? uri) := by
  have hsteady := steady_start site reply
  obtain ⟨settings, heq⟩ := start_eq site reply
  have hpublished : (start site reply).published uri = [] := by rw [heq]; rfl
  have hcleared : (start site reply).cleared uri = [] := by rw [heq]; rfl
  have hawaiting : (start site reply).awaiting uri = [] := by rw [heq]; rfl
  refine ⟨(published_run events hsteady hash hload).trans ?_,
    (cleared_run events hsteady hash hload).trans ?_⟩
  · rw [hpublished, toCome, hawaiting]
    rfl
  · rw [hcleared]
    rfl

/-- A session in which a document is edited before its analysis is due, and then, once a result has
been asked for, edited twice in such a way that the text is the same in the end; closed while an
analysis waits, opened again, and edited without effect before and after its last analysis. -/
def rewriting (uri : Uri) : List Event :=
  [.request (.opened uri 1 "x"), .elapse 50, .request (.changed uri 2 [⟨none, ['y']⟩]), .elapse 60,
    .request (.symbols uri), .request (.changed uri 3 [⟨none, ['z']⟩, ⟨none, ['y']⟩]), .elapse 100,
    .request (.changed uri 4 [⟨none, ['z']⟩]), .elapse 10, .request (.closed uri), .elapse 500,
    .request (.opened uri 1 "x"), .elapse 30, .request (.changed uri 2 []), .elapse 500,
    .request (.changed uri 3 []), .elapse 500]

theorem published_of_moments_rewriting :
    let site : Site := ⟨⟨fun _ text => .error ⟨text, Tool.noSuchFile⟩⟩,
      { debounce := 100, compiler := some ⟨"krlc", []⟩ }⟩
    let diagnostics := fun text =>
      Diagnostic.ofCompiled (Tool.compile site.host site.settings.compiler text)
    let s := session site none (rewriting ⟨"a"⟩)
    Set.InjOn Text.hash (texts site none (rewriting ⟨"a"⟩)) ∧
    (∀ m ∈ moments (step site) (start site none) (rewriting ⟨"a"⟩),
      m.state.reloads m.event = false) ∧
    s.published ⟨"a"⟩ =
      [⟨150, ⟨"a"⟩, diagnostics "y", some 3⟩, ⟨850, ⟨"a"⟩, diagnostics "x", some 2⟩] ∧
    s.cleared ⟨"a"⟩ = [⟨220, ⟨"a"⟩, [], none⟩] := by
  intro site diagnostics s
  have hash : Set.InjOn Text.hash (texts site none (rewriting ⟨"a"⟩)) :=
    Workspace.injOn_of_forall_mem ["x", "y", "z"] (by decide +kernel) (by decide +kernel)
  have hload : ∀ m ∈ moments (step site) (start site none) (rewriting ⟨"a"⟩),
      m.state.reloads m.event = false := by
    have hall : (moments (step site) (start site none) (rewriting ⟨"a"⟩)).all
        (fun m => !m.state.reloads m.event) = true := by decide +kernel
    simpa using hall
  obtain ⟨hpublished, hcleared⟩ := published_of_moments site none _ hash hload ⟨"a"⟩
  exact ⟨hash, hload, hpublished.trans (by decide +kernel), hcleared.trans (by decide +kernel)⟩

end Krl.Server
