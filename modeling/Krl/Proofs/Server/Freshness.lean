import Krl.Proofs.Server.Operations
import Krl.Proofs.Workspace.Texts
import Mathlib.Data.List.Induction

/-!
# Settled sessions are fresh

The result of a document may be missing or out of date, but then a timer waits that will make up for
it. The invariant (`Watched`) says which: each open document is awaited by a timer under its present
number, or else its result and its last diagnostics are those of its text. It speaks of the timers
that are still to fire, and so holds between two of them as well. It is kept by the firing of one
timer (`Watched.fire`), by waiting (`Watched.elapse`) and by each request (`Watched.serve`), as long
as hashes tell the texts apart.

* `fresh_of_no_timers`: where no timer waits, results and last diagnostics are those of the texts.
-/

set_option autoImplicit false

namespace Krl.Server

/-! ## The invariant -/

/-- A timer waits that will fire while the document has its present number. -/
def Awaited (pending : List Timer) (uri : Uri) (doc : Document) : Prop :=
  ∃ t ∈ pending, t.uri = uri ∧ t.seq = doc.seq

section
variable (site : Site) (installed : Analyzer → Nat → Prop) (pending : List Timer) (s : Server)

/-- The result of a document and its last diagnostics are those of its text, by an analyzer and
within a limit that have been installed together. -/
def UpToDate (uri : Uri) (doc : Document) : Prop :=
  ∃ analyzer limit publication, installed analyzer limit ∧
    s.workspace.cache.get? uri = some (analyzer.analyze site.host doc.text) ∧
    s.lastPublication? uri = some publication ∧
    publication.diagnostics = (analyzer.analyze site.host doc.text).diagnostics.take limit

/-- What is known of a name: a document is awaited or up to date, and without a document nothing is
displayed. -/
structure Covered (uri : Uri) : Prop where
  document : ∀ doc, s.workspace.documents.get? uri = some doc →
    Awaited pending uri doc ∨ UpToDate site installed s uri doc
  cleared : ∀ publication, s.workspace.documents.get? uri = none →
    s.lastPublication? uri = some publication → publication.diagnostics = []

/-- What holds of a server, with these timers still to fire. -/
structure Watched : Prop where
  consistent : s.workspace.Consistent
  timers : ∀ t ∈ pending, installed t.analyzer t.limit
  covered : ∀ uri, Covered site installed pending s uri

end

section
variable {site : Site} {installed installed' : Analyzer → Nat → Prop}
  {pending pending' : List Timer} {s s' : Server} {timer : Timer} {uri : Uri}

theorem Awaited.mono {doc : Document} (h : Awaited pending uri doc)
    (hpending : ∀ t ∈ pending, t.uri = uri → t ∈ pending') : Awaited pending' uri doc := by
  obtain ⟨t, ht, huri, hseq⟩ := h
  exact ⟨t, hpending t ht huri, huri, hseq⟩

/-- What is known of a name depends on its document, its result, what was said last of it, and the
timers that await it. -/
theorem Covered.frame (h : Covered site installed pending s uri)
    (hdoc : s'.workspace.documents.get? uri = s.workspace.documents.get? uri)
    (hcache : s'.workspace.cache.get? uri = s.workspace.cache.get? uri)
    (hlast : s'.lastPublication? uri = s.lastPublication? uri)
    (hpending : ∀ t ∈ pending, t.uri = uri → t ∈ pending') :
    Covered site installed pending' s' uri := by
  refine ⟨fun doc hd => ?_, fun p hd hp => h.cleared p (hdoc ▸ hd) (hlast ▸ hp)⟩
  rcases h.document doc (hdoc ▸ hd) with hawaited | ⟨a, l, p, hi, hc, hp, hdiag⟩
  · exact .inl (hawaited.mono hpending)
  · exact .inr ⟨a, l, p, hi, hcache.trans hc, hlast.trans hp, hdiag⟩

namespace Watched

theorem frame (h : Watched site installed pending s) (hw : s'.workspace = s.workspace)
    (hlog : s'.log = s.log) : Watched site installed pending s' := by
  refine ⟨hw ▸ h.consistent, h.timers, fun uri => (h.covered uri).frame ?_ ?_ ?_ ?_⟩
  · rw [hw]
  · rw [hw]
  · rw [lastPublication?, hlog, ← lastPublication?]
  · exact fun t ht _ => ht

theorem mono (h : Watched site installed pending s)
    (hinstalled : ∀ a l, installed a l → installed' a l) : Watched site installed' pending s := by
  refine ⟨h.consistent, fun t ht => hinstalled _ _ (h.timers t ht), fun uri => ?_⟩
  refine ⟨fun doc hd => ?_, (h.covered uri).cleared⟩
  rcases (h.covered uri).document doc hd with hawaited | ⟨a, l, p, hi, hrest⟩
  · exact .inl hawaited
  · exact .inr ⟨a, l, p, hinstalled a l hi, hrest⟩

/-! ## Timers -/

/-- A timer that fires leaves its document up to date, if it awaited one. -/
theorem fire (h : Watched site installed (timer :: pending) s) :
    Watched site installed pending (s.fire site timer) := by
  have hrest : ∀ t ∈ pending, installed t.analyzer t.limit :=
    fun t ht => h.timers t (List.mem_cons_of_mem _ ht)
  obtain ⟨doc, hdoc, hseq, heq⟩ | ⟨hgone, heq⟩ := fire_cases site s timer
  · rw [heq]
    refine ⟨h.consistent.store hdoc _, hrest, fun uri => ?_⟩
    by_cases hu : uri = timer.uri
    · subst hu
      refine ⟨fun d hd => .inr ?_, fun p hnone => ?_⟩
      · cases hdoc.symm.trans hd
        exact ⟨timer.analyzer, timer.limit, _, h.timers timer List.mem_cons_self,
          Table.get?_insert_self .., (lastPublication?_publish ..).trans (if_pos rfl), rfl⟩
      · cases hdoc.symm.trans hnone
    · refine (h.covered uri).frame rfl ?_ ?_ fun t ht huri => ?_
      · exact (Table.get?_insert ..).trans (if_neg hu)
      · exact (lastPublication?_publish ..).trans (if_neg hu)
      · rcases List.mem_cons.1 ht with rfl | ht
        · exact absurd huri.symm hu
        · exact ht
  · rw [heq]
    refine ⟨h.consistent, hrest, fun uri => ⟨fun d hd => ?_, (h.covered uri).cleared⟩⟩
    -- a timer that finds no document with its number awaited none
    rcases (h.covered uri).document d hd with ⟨t, ht, huri, hseq⟩ | hup
    · rcases List.mem_cons.1 ht with rfl | ht
      · exact absurd hseq.symm (hgone d (huri ▸ hd))
      · exact .inl ⟨t, ht, huri, hseq⟩
    · exact .inr hup

/-- Timers fire one after another; each takes its place among those that are still to fire. -/
theorem fireAll {due : List Timer} (h : Watched site installed (due ++ pending) s) :
    Watched site installed pending (due.foldl (Server.fire site) s) := by
  induction due generalizing s with
  | nil => exact h
  | cons t due ih => exact ih h.fire

theorem elapse (h : Watched site installed s.timers s) (ms : Nat) :
    Watched site installed (s.elapse site ms).timers (s.elapse site ms) := by
  have hsplit : s.timers.takeWhile (·.due ≤ s.clock + ms) ++
      s.timers.dropWhile (·.due ≤ s.clock + ms) = s.timers := List.takeWhile_append_dropWhile
  rw [← hsplit] at h
  rw [timers_elapse]
  have hwait : Watched site installed (s.timers.takeWhile (·.due ≤ s.clock + ms) ++
      s.timers.dropWhile (·.due ≤ s.clock + ms))
      { s with timers := s.timers.dropWhile (·.due ≤ s.clock + ms) } := h.frame rfl rfl
  exact hwait.fireAll.frame rfl rfl

/-! ## Requests -/

/-- A document that is written under a new number is awaited by the timer that is set for it. -/
theorem renew (h : Watched site installed s.timers s) {w : Workspace Analysis} (doc : Document)
    (hw : w.Consistent) (hdocs : w.documents = s.workspace.documents.insert uri doc)
    (hcache : ∀ key, key ≠ uri → w.cache.get? key = s.workspace.cache.get? key)
    (hinstalled : installed s.analyzer s.settings.maxProblems) :
    Watched site installed ({ s with workspace := w }.setTimer uri doc.seq).timers
      ({ s with workspace := w }.setTimer uri doc.seq) := by
  refine ⟨hw, fun t ht => ?_, fun key => ?_⟩
  · rcases mem_timers_setTimer.1 ht with rfl | ht
    · exact hinstalled
    · exact h.timers t ht
  · by_cases hkey : key = uri
    · subst hkey
      have hdoc : w.documents.get? key = some doc := by rw [hdocs, Table.get?_insert_self]
      refine ⟨fun d hd => .inl ?_, fun p hnone => ?_⟩
      · cases hdoc.symm.trans hd
        exact ⟨_, mem_timers_setTimer.2 (.inl rfl), rfl, rfl⟩
      · cases hdoc.symm.trans hnone
    · refine (h.covered key).frame ?_ (hcache key hkey) rfl fun t ht _ =>
        mem_timers_setTimer.2 (.inr ht)
      change w.documents.get? key = _
      rw [hdocs, Table.get?_insert, if_neg hkey]

/-- A document that keeps its number and its text is awaited or up to date as it was. -/
theorem keep (h : Watched site installed pending s) {doc doc' : Document}
    (hw : Workspace.Consistent
      { s.workspace with documents := s.workspace.documents.insert uri doc' })
    (hdoc : s.workspace.documents.get? uri = some doc) (hseq : doc'.seq = doc.seq)
    (htext : doc'.text = doc.text) :
    Watched site installed pending { s with workspace := { s.workspace with
      documents := s.workspace.documents.insert uri doc' } } := by
  refine ⟨hw, h.timers, fun key => ?_⟩
  by_cases hkey : key = uri
  · subst hkey
    have hnew : (s.workspace.documents.insert key doc').get? key = some doc' :=
      Table.get?_insert_self ..
    refine ⟨fun d hd => ?_, fun p hnone => ?_⟩
    · cases hnew.symm.trans hd
      rw [UpToDate, Awaited, hseq, htext]
      exact (h.covered key).document doc hdoc
    · cases hnew.symm.trans hnone
  · exact (h.covered key).frame ((Table.get?_insert ..).trans (if_neg hkey)) rfl rfl
      fun _ ht _ => ht

theorem opened (h : Watched site installed s.timers s)
    (hinstalled : installed s.analyzer s.settings.maxProblems) (uri : Uri) (version : Int)
    (text : String) : Watched site installed (s.serve site (.opened uri version text)).1.timers
      (s.serve site (.opened uri version text)).1 := by
  refine h.renew ⟨text, version, s.workspace.lastSeq + 1, Text.hash text⟩
    (h.consistent.openDocument uri version text) rfl (fun key hkey => ?_) hinstalled
  exact (Table.get?_erase ..).trans (if_neg hkey)

/-- An edit that draws no number leaves a text with the hash of the old one, and thus the old
text. -/
theorem changed (h : Watched site installed s.timers s)
    (hinstalled : installed s.analyzer s.settings.maxProblems) (uri : Uri) (version : Int)
    (changes : List Text.Change)
    (hfaithful : s.workspace.Faithful (s.workspace.change uri version changes).1) :
    Watched site installed (s.serve site (.changed uri version changes)).1.timers
      (s.serve site (.changed uri version changes)).1 := by
  have hw := h.consistent.change uri version changes
  rw [serve]
  obtain ⟨doc, hdoc, hhash, heq⟩ | heq := h.consistent.kept_cases uri version changes
  · rw [heq] at hfaithful hw ⊢
    have htext := hfaithful uri doc _ hdoc (Table.get?_insert_self ..) hhash
    exact h.keep hw hdoc rfl htext
  · rw [heq] at hw ⊢
    exact h.renew ⟨_, version, s.workspace.lastSeq + 1, _⟩ hw rfl (fun _ _ => rfl) hinstalled

theorem closed (h : Watched site installed pending s) (uri : Uri) :
    Watched site installed pending (s.serve site (.closed uri)).1 := by
  refine ⟨h.consistent.close uri, h.timers, fun key => ?_⟩
  by_cases hkey : key = uri
  · subst hkey
    refine ⟨fun d hd => ?_, fun p _ hp => ?_⟩
    · cases (Table.get?_erase_self ..).symm.trans hd
    · cases ((lastPublication?_publish ..).trans (if_pos rfl)).symm.trans hp
      rfl
  · refine (h.covered key).frame ?_ ?_ ?_ fun _ ht _ => ht
    · exact (Table.get?_erase ..).trans (if_neg hkey)
    · exact (Table.get?_erase ..).trans (if_neg hkey)
    · exact (lastPublication?_publish ..).trans (if_neg hkey)

/-- An analysis on demand is one of a document without a result, which a timer awaits. -/
theorem analysisFor (h : Watched site installed pending s) (uri : Uri) :
    Watched site installed pending (s.analysisFor site uri).1 := by
  obtain heq | ⟨doc, hdoc, hnone, heq⟩ := analysisFor_cases site s uri
  · rw [heq]
    exact h
  · rw [heq]
    refine ⟨h.consistent.store hdoc _, h.timers, fun key => ?_⟩
    by_cases hkey : key = uri
    · subst hkey
      refine ⟨fun d hd => ?_, (h.covered key).cleared⟩
      -- the timer is still there, and what it will publish takes the place of this result
      rcases (h.covered key).document d hd with hawaited | ⟨a, l, p, -, hcache, -⟩
      · exact .inl hawaited
      · cases hnone.symm.trans hcache
    · exact (h.covered key).frame rfl ((Table.get?_insert ..).trans (if_neg hkey)) rfl
        fun _ ht _ => ht

/-- A reload drops every result, and sets a timer for every document. -/
theorem refreshAll (h : Watched site installed s.timers s)
    (hinstalled : installed s.analyzer s.settings.maxProblems) :
    Watched site installed s.refreshAll.timers s.refreshAll := by
  obtain ⟨cache, timers, heq⟩ := s.refreshAll_frame
  have hdocs : s.refreshAll.workspace.documents = s.workspace.documents := by rw [heq]
  have hlog : s.refreshAll.log = s.log := by rw [heq]
  refine ⟨consistent_refreshAll h.consistent, fun t ht => ?_, fun uri => ⟨fun d hd => .inl ?_, ?_⟩⟩
  · rcases mem_timers_refreshAll.1 ht with ht | ⟨e, -, rfl⟩
    · exact h.timers t ht
    · exact hinstalled
  · rw [hdocs] at hd
    exact ⟨_, mem_timers_refreshAll.2 (.inr ⟨_, Table.mem_of_get? hd, rfl⟩), rfl, rfl⟩
  · rw [lastPublication?, hdocs, hlog]
    exact (h.covered uri).cleared

theorem settingsChanged (h : Watched site installed s.timers s) (reply : SettingsReply)
    (hinstalled : installed (s.loadSettings site reply).analyzer
      (s.loadSettings site reply).settings.maxProblems) :
    Watched site installed (s.serve site (.settingsChanged reply)).1.timers
      (s.serve site (.settingsChanged reply)).1 := by
  refine refreshAll ?_ hinstalled
  obtain heq | ⟨settings, heq⟩ := loadSettings_cases site s reply
  · rw [heq]
    exact h
  · rw [heq]
    exact h.frame rfl rfl

/-- A request keeps the invariant, if what is installed before it and behind it counts as such. -/
theorem serve (h : Watched site installed s.timers s) (r : Request)
    (hbefore : installed s.analyzer s.settings.maxProblems)
    (hbehind : installed (s.serve site r).1.analyzer (s.serve site r).1.settings.maxProblems)
    (hfaithful : s.workspace.Faithful (s.serve site r).1.workspace) :
    Watched site installed (s.serve site r).1.timers (s.serve site r).1 := by
  cases r with
  | opened uri version text => exact h.opened hbefore uri version text
  | changed uri version changes =>
    exact h.changed hbefore uri version changes (workspace_adopt s uri _ ▸ hfaithful)
  | closed uri => exact h.closed uri
  | settingsChanged reply =>
    obtain ⟨cache, timers, heq⟩ := (s.loadSettings site reply).refreshAll_frame
    rw [Server.serve, heq] at hbehind
    exact h.settingsChanged reply hbehind
  | completion uri cursor trigger =>
    rw [Server.serve]
    split
    · exact h
    · rw [timers_analysisFor]
      exact h.analysisFor uri
  | symbols uri =>
    rw [Server.serve, timers_analysisFor]
    exact h.analysisFor uri
  | malformed => exact h
  | shutdown => exact h.frame rfl rfl

/-- An event keeps the invariant; behind a shutdown it is only waiting that does anything. -/
theorem step (h : Watched site installed s.timers s) (e : Event)
    (hbefore : installed s.analyzer s.settings.maxProblems)
    (hbehind : installed (s.step site e).analyzer (s.step site e).settings.maxProblems)
    (hfaithful : s.workspace.Faithful (s.step site e).workspace) :
    Watched site installed (s.step site e).timers (s.step site e) := by
  cases e with
  | elapse ms => exact h.elapse ms
  | request r =>
    by_cases hstopped : s.stopped = true
    · rw [Server.step, handle_of_stopped site hstopped]
      exact h
    · rw [Server.step, handle_of_not_stopped site (Bool.eq_false_iff.2 hstopped)] at *
      exact h.serve r hbefore hbehind hfaithful

end Watched

end

/-! ## Sessions -/

section
variable (site : Site) (reply : SettingsReply) (events : List Event)

/-- The state behind a session, whose editor gave this reply at its start. -/
def session : Server := run site (start site reply) events

/-- The states that a session passes through. -/
def Reaches (s : Server) : Prop := Passes (step site) (start site reply) events s

/-- The texts that documents have in the course of a session. -/
def texts : Set String := Workspace.textsOf (step site) workspace (start site reply) events

/-- An analyzer and a limit that are in force together at some point of a session. -/
def Installed (analyzer : Analyzer) (limit : Nat) : Prop :=
  ∃ s, Reaches site reply events s ∧ s.analyzer = analyzer ∧ s.settings.maxProblems = limit

/-- Results are there for open documents and for no others, and are those of the texts that they
have; the last diagnostics are those of the results, and nothing is displayed for a name without a
document. -/
structure Fresh (s : Server) : Prop where
  cached_iff : ∀ uri,
    (s.workspace.cache.get? uri).isSome ↔ (s.workspace.documents.get? uri).isSome
  result : ∀ uri doc result, s.workspace.documents.get? uri = some doc →
    s.workspace.cache.get? uri = some result → ∃ t publication, Reaches site reply events t ∧
      result = t.analyzer.analyze site.host doc.text ∧
      s.lastPublication? uri = some publication ∧
      publication.diagnostics = result.diagnostics.take t.settings.maxProblems
  cleared : ∀ uri publication, s.workspace.documents.get? uri = none →
    s.lastPublication? uri = some publication → publication.diagnostics = []

end

section
variable {site : Site} {reply : SettingsReply} {events : List Event}

theorem session_concat (e : Event) :
    session site reply (events ++ [e]) = (session site reply events).step site e :=
  List.foldl_concat ..

theorem Installed.concat {e : Event} {analyzer : Analyzer} {limit : Nat}
    (h : Installed site reply events analyzer limit) :
    Installed site reply (events ++ [e]) analyzer limit := by
  obtain ⟨s, hs, hrest⟩ := h
  exact ⟨s, Passes.concat hs, hrest⟩

theorem Installed.last : Installed site reply events (session site reply events).analyzer
    (session site reply events).settings.maxProblems :=
  ⟨_, Passes.last, rfl, rfl⟩

theorem watched_start (installed : Analyzer → Nat → Prop) :
    Watched site installed (start site reply).timers (start site reply) := by
  have hinitial : Watched site installed [] (initial site) :=
    ⟨.empty, nofun, fun _ => ⟨nofun, nofun⟩⟩
  obtain heq | ⟨settings, heq⟩ := loadSettings_cases site (initial site) reply
  · rw [start, heq]
    exact hinitial
  · rw [start, heq]
    exact hinitial.frame rfl rfl

theorem watched_session (h : Set.InjOn Text.hash (texts site reply events)) :
    Watched site (Installed site reply events) (session site reply events).timers
      (session site reply events) := by
  induction events using List.reverseRecOn with
  | nil => exact watched_start _
  | append_singleton events e ih =>
    have hbehind : Installed site reply (events ++ [e]) _ _ := Installed.last
    rw [session_concat] at hbehind ⊢
    have hold : Watched site (Installed site reply (events ++ [e])) _ _ :=
      (ih (h.mono Workspace.textsOf_concat)).mono fun _ _ => Installed.concat
    exact hold.step e Installed.last.concat hbehind (Workspace.faithful_of_injOn h)

/-- Where no timer is left, each open document has a result, and it is up to date. -/
theorem Watched.fresh {s : Server} (h : Watched site (Installed site reply events) [] s) :
    Fresh site reply events s := by
  have hup : ∀ uri doc, s.workspace.documents.get? uri = some doc →
      UpToDate site (Installed site reply events) s uri doc := by
    intro uri doc hdoc
    rcases (h.covered uri).document doc hdoc with ⟨t, ht, -⟩ | hup
    · cases ht
    · exact hup
  refine ⟨fun uri => ⟨fun hc => ?_, fun hd => ?_⟩, fun uri doc result hdoc hresult => ?_,
    fun uri => (h.covered uri).cleared⟩
  · obtain ⟨result, hresult⟩ := Option.isSome_iff_exists.1 hc
    exact h.consistent.cached uri result hresult
  · obtain ⟨doc, hdoc⟩ := Option.isSome_iff_exists.1 hd
    obtain ⟨a, l, p, -, hcache, -⟩ := hup uri doc hdoc
    exact Option.isSome_of_eq_some hcache
  · obtain ⟨a, l, p, ⟨t, ht, rfl, rfl⟩, hcache, hp, hdiagnostics⟩ := hup uri doc hdoc
    cases hcache.symm.trans hresult
    exact ⟨t, p, ht, rfl, hp, hdiagnostics⟩

/-- Where hashes tell the texts of a session apart, a state in which no timer waits is fresh: each
open document has a result, and no other name has one; it is the analysis of its present text by an
analyzer that was installed, and its diagnostics, cut off at the limit then in force, are what was
published last; for a name without a document it is the empty list that was published last. -/
theorem fresh_of_no_timers (site : Site) (reply : SettingsReply) (events : List Event)
    (h : Set.InjOn Text.hash (texts site reply events))
    (quiet : (session site reply events).timers = []) :
    Fresh site reply events (session site reply events) := by
  have hwatched := watched_session h
  rw [quiet] at hwatched
  exact hwatched.fresh

/-- A session in which a document is analysed on demand before its timer is due, then anew for other
settings, which come with a shorter wait and a compiler that cannot be started, and edited without a
change of its text while it has no result; another one is closed while its timer waits. -/
def reloading (a b : Uri) : List Event :=
  [.request (.opened a 1 "x"), .request (.symbols a), .request (.opened b 1 "y"), .elapse 100,
    .request (.settingsChanged (some [.object [("compiler", .object
      [("command", .array [.string "krlc"])]), ("debounceMs", .int 10),
      ("maxNumberOfProblems", .int 1)]])),
    .request (.changed a 2 []), .request (.closed b), .elapse 500, .request (.changed a 3 [])]

theorem fresh_of_no_timers_reloading :
    let site : Site := ⟨⟨fun command _ => .error ⟨command.program, Tool.noSuchFile⟩⟩, {}⟩
    let s := session site none (reloading ⟨"a"⟩ ⟨"b"⟩)
    s.timers = [] ∧ (s.workspace.documents.get? ⟨"a"⟩).isSome ∧
      (s.lastPublication? ⟨"b"⟩).isSome ∧ Fresh site none (reloading ⟨"a"⟩ ⟨"b"⟩) s := by
  intro site s
  have hash : Set.InjOn Text.hash (texts site none (reloading ⟨"a"⟩ ⟨"b"⟩)) :=
    Workspace.injOn_of_forall_mem ["x", "y"] (by decide +kernel) (by decide +kernel)
  have quiet : s.timers = [] := by decide +kernel
  exact ⟨quiet, by decide +kernel, by decide +kernel, fresh_of_no_timers site none _ hash quiet⟩

end

end Krl.Server
