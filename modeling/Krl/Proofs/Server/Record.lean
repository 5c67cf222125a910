import Krl.Proofs.Server.Freshness
import Krl.Proofs.Server.Requests

/-!
# A record of results and of the settings that they are made with

A timer has its document analysed with the settings that were in force when it was set, and another
load of settings sets new timers beside it under the same number. So a server is run with a record
beside it (`Dated`): how often settings have been loaded, under which load each timer was set, and
what has been kept, published and made under which load.

* `Dated.genuine_session`: the record of a session is true.
-/

set_option autoImplicit false

namespace Krl.Server

/-! ## The record -/

/-- A result that is kept for a document, the load of settings that it was made with, and what is
published of it, if anything is. -/
structure Kept where
  uri : Uri
  load : Nat
  result : Analysis
  publication : Option Publication

/-- The document of a name, if there is no result for it. -/
def uncached? (s : Server) (uri : Uri) : Option (Uri × Document) :=
  if s.workspace.cache.contains uri then none else (s.workspace.documents.get? uri).map (uri, ·)

/-- The document that is to be analysed before a request is answered, if one is. -/
def demanded? (s : Server) (r : Request) : Option (Uri × Document) :=
  if s.stopped then none
  else match r with
  | .completion uri cursor trigger =>
    if s.wantsOperators uri cursor trigger then none else s.uncached? uri
  | .symbols uri => s.uncached? uri
  | _ => none

/-- A server with the number of loads of settings since its start, the load under which each timer
was set, and all that has been kept. -/
structure Dated where
  server : Server
  load : Nat := 0
  setUnder : Timer → Nat := fun _ => 0
  kept : List Kept := []

namespace Dated

/-- What a timer that fires keeps. -/
def keptBy (site : Site) (d : Dated) (timer : Timer) (doc : Document) : Kept :=
  ⟨timer.uri, d.setUnder timer, timer.analyzer.analyze site.host doc.text,
    some (timer.publication site doc)⟩

/-- What is kept in the course of an event, in order. -/
def keeps (site : Site) (d : Dated) : Event → List Kept
  | .elapse ms => (d.server.timers.takeWhile (·.due ≤ d.server.clock + ms)).filterMap fun t =>
      (d.server.target? t).map (d.keptBy site t)
  | .request r => ((d.server.demanded? r).map fun e =>
      ⟨e.1, d.load, d.server.analyzer.analyze site.host e.2.text, none⟩).toList

/-- A timer that has not been there before an event is set in its course. -/
def step (site : Site) (d : Dated) (e : Event) : Dated :=
  let load := if d.server.reloads e then d.load + 1 else d.load
  { server := d.server.step site e
    load := load
    setUnder := fun t => if t ∈ d.server.timers then d.setUnder t else load
    kept := d.kept ++ d.keeps site e }

def run (site : Site) (d : Dated) (events : List Event) : Dated := events.foldl (step site) d

/-- The record of a session. -/
def session (site : Site) (reply : SettingsReply) (events : List Event) : Dated :=
  run site { server := start site reply } events

theorem setUnder_step (site : Site) (d : Dated) (e : Event) (t : Timer) :
    (d.step site e).setUnder t =
      if t ∈ d.server.timers then d.setUnder t else (d.step site e).load := rfl

end Dated

/-! ## The record is true -/

section
variable {site : Site} {s : Server} {uri : Uri}

theorem analysisFor_eq (site : Site) (s : Server) (uri : Uri) : (s.analysisFor site uri).1 =
    ((s.uncached? uri).map fun e =>
      s.store e.1 (s.analyzer.analyze site.host e.2.text)).getD s := by
  cases hcache : s.workspace.cache.get? uri with
  | some result => simp [analysisFor, uncached?, Table.contains, hcache]
  | none =>
    cases hdoc : s.workspace.documents.get? uri with
    | none => simp [analysisFor, uncached?, Table.contains, Workspace.snapshot?, hcache, hdoc]
    | some doc =>
      simp [analysisFor, uncached?, Table.contains, Workspace.snapshot?, Workspace.offer,
        Workspace.isCurrent, Document.snapshot, store, hcache, hdoc]

theorem cache_refreshEntries (entries : List (Uri × Document)) {result : Analysis}
    (h : (s.refreshEntries entries).workspace.cache.get? uri = some result) :
    s.workspace.cache.get? uri = some result := by
  induction entries generalizing s with
  | nil => exact h
  | cons e entries ih =>
    have hforget : (s.workspace.cache.erase e.1).get? uri = some result := ih h
    rw [Table.get?_erase] at hforget
    split at hforget
    · cases hforget
    · exact hforget

theorem cache_analysisFor (site : Site) (s : Server) (u : Uri) {result : Analysis}
    (h : (s.analysisFor site u).1.workspace.cache.get? uri = some result) :
    (s.workspace.cache.get? uri = some result ∧ ∀ e, s.uncached? u = some e → e.1 ≠ uri) ∨
      ∃ e, s.uncached? u = some e ∧ e.1 = uri ∧ result = s.analyzer.analyze site.host e.2.text := by
  rw [analysisFor_eq] at h
  cases hdemand : s.uncached? u with
  | none =>
    rw [hdemand] at h
    exact .inl ⟨h, nofun⟩
  | some e =>
    rw [hdemand] at h
    have hinsert := (Table.get?_insert s.workspace.cache e.1 uri
      (s.analyzer.analyze site.host e.2.text)).symm.trans h
    split at hinsert
    · next huri =>
      cases hinsert
      exact .inr ⟨e, rfl, huri.symm, rfl⟩
    · next hne =>
      refine .inl ⟨hinsert, fun f hf => ?_⟩
      cases hf
      exact Ne.symm hne

/-- The only results that a request brings are those made on demand. -/
theorem cache_handle (site : Site) (s : Server) (r : Request) {result : Analysis}
    (h : (s.handle site r).1.workspace.cache.get? uri = some result) :
    (s.workspace.cache.get? uri = some result ∧ ∀ e, s.demanded? r = some e → e.1 ≠ uri) ∨
      ∃ e, s.demanded? r = some e ∧ e.1 = uri ∧
        result = s.analyzer.analyze site.host e.2.text := by
  by_cases hstopped : s.stopped = true
  · rw [handle_of_stopped site hstopped] at h
    exact .inl ⟨h, by simp [demanded?, hstopped]⟩
  rw [handle_of_not_stopped site (Bool.eq_false_iff.2 hstopped)] at h
  have herase : ∀ u, (s.workspace.cache.erase u).get? uri = some result →
      s.workspace.cache.get? uri = some result := by
    intro u hu
    rw [Table.get?_erase] at hu
    split at hu
    · cases hu
    · exact hu
  cases r with
  | opened u version text => exact .inl ⟨herase u h, by simp [demanded?]⟩
  | changed u version changes =>
    refine .inl ⟨?_, by simp [demanded?]⟩
    obtain ⟨doc, lastSeq, timers, heq⟩ := changed_frame site s u version changes
    rw [heq] at h
    exact h
  | closed u => exact .inl ⟨herase u h, by simp [demanded?]⟩
  | settingsChanged reply =>
    refine .inl ⟨?_, by simp [demanded?]⟩
    have hload := cache_refreshEntries _ h
    obtain heq | ⟨settings, heq⟩ := loadSettings_cases site s reply <;>
      · rw [heq] at hload
        exact hload
  | completion u cursor trigger =>
    simp only [serve] at h
    split at h
    · next hoperators => exact .inl ⟨h, by simp [demanded?, hoperators]⟩
    · next hoperators =>
      have hdemand : s.demanded? (.completion u cursor trigger) = s.uncached? u := by
        simp [demanded?, hstopped, hoperators]
      rw [hdemand]
      exact cache_analysisFor site s u h
  | symbols u =>
    have hdemand : s.demanded? (.symbols u) = s.uncached? u := by simp [demanded?, hstopped]
    rw [hdemand]
    exact cache_analysisFor site s u h
  | malformed => exact .inl ⟨h, by simp [demanded?]⟩
  | shutdown => exact .inl ⟨h, by simp [demanded?]⟩

/-- A timer has been there before an event, or is set with the settings in force behind it. -/
theorem mem_timers_step (site : Site) (s : Server) (e : Event) {t : Timer}
    (ht : t ∈ (s.step site e).timers) : t ∈ s.timers ∨
      t.analyzer = (s.step site e).analyzer ∧ t.limit = (s.step site e).settings.maxProblems := by
  cases e with
  | elapse ms =>
    rw [step, timers_elapse] at ht
    exact .inl ((List.dropWhile_sublist _).mem ht)
  | request r =>
    by_cases hreload : s.reloads (.request r) = true
    · obtain ⟨reply, hstep⟩ := step_of_reloads site hreload
      rw [hstep] at ht ⊢
      obtain ⟨cache, timers, heq⟩ := (s.loadSettings site reply).refreshAll_frame
      rcases mem_timers_refreshAll.1 ht with ht | ⟨entry, -, rfl⟩
      · obtain hload | ⟨settings, hload⟩ := loadSettings_cases site s reply <;>
          · rw [hload] at ht
            exact .inl ht
      · rw [heq]
        exact .inr ⟨rfl, rfl⟩
    · obtain ⟨hsettings, hanalyzer, -, htimers⟩ :=
        handle_frame site (Bool.eq_false_iff.2 hreload)
      rw [step] at ht ⊢
      obtain heq | ⟨u, seq, heq⟩ := htimers
      · exact .inl (heq ▸ ht)
      · rcases mem_insertTimer.1 (heq ▸ ht) with rfl | ht
        · exact .inr ⟨hanalyzer.symm, by rw [hsettings]; rfl⟩
        · exact .inl ht

/-- Each result is the last one of its document in a list. -/
def Lists (s : Server) (kept : List Kept) : Prop :=
  ∀ uri result, s.workspace.cache.get? uri = some result →
    ((kept.filter (·.uri = uri)).getLast?).map (·.result) = some result

theorem Lists.store {kept : List Kept} (h : s.Lists kept) (k : Kept) :
    (s.store k.uri k.result).Lists (kept ++ [k]) := by
  intro uri result hresult
  have hinsert := (Table.get?_insert s.workspace.cache k.uri uri k.result).symm.trans hresult
  split at hinsert
  · next huri =>
    cases hinsert
    simp [huri]
  · next hne => simpa [Ne.symm hne] using h uri result hinsert

theorem Lists.fire {kept : List Kept} (h : s.Lists kept) (site : Site) (d : Dated) (t : Timer) :
    (s.fire site t).Lists (kept ++ ((s.target? t).map (d.keptBy site t)).toList) := by
  obtain ⟨doc, hdoc, hseq, heq⟩ | ⟨hgone, heq⟩ := fire_cases site s t
  · rw [target?_eq_some.2 ⟨hdoc, hseq⟩, heq]
    exact h.store (d.keptBy site t doc)
  · rw [target?_eq_none hgone, heq, Option.map_none, Option.toList_none, List.append_nil]
    exact h

theorem Lists.foldl_fire {kept : List Kept} (h : s.Lists kept) (site : Site) (d : Dated)
    (due : List Timer) :
    (due.foldl (Server.fire site) s).Lists
      (kept ++ due.filterMap fun t => (s.target? t).map (d.keptBy site t)) := by
  induction due generalizing s kept with
  | nil => simpa using h
  | cons t due ih =>
    obtain ⟨cache, hfire⟩ := fire_frame site s t
    have hsame : ∀ u, (s.fire site t).target? u = s.target? u :=
      fun u => target?_congr (by rw [hfire]) u
    have hrest := ih (h.fire site d t)
    simp only [hsame] at hrest
    cases htarget : s.target? t <;> simpa [htarget] using hrest

end

namespace Dated

section
variable {site : Site} {d : Dated}

/-- What is at hand and what has been published is what has been kept. -/
structure Recorded (d : Dated) : Prop where
  cached : d.server.Lists d.kept
  published : ∀ uri, d.server.published uri =
    (d.kept.filter (·.uri = uri)).filterMap (·.publication)

theorem Recorded.elapse (h : d.Recorded) (site : Site) (ms : Nat) :
    (d.step site (.elapse ms)).Recorded := by
  obtain ⟨cache, heq⟩ := elapse_frame site d.server ms
  refine ⟨?_, fun uri => ?_⟩
  · have hwait : Lists { d.server with
        timers := d.server.timers.dropWhile (·.due ≤ d.server.clock + ms) } d.kept := h.cached
    exact hwait.foldl_fire site d (d.server.timers.takeWhile (·.due ≤ d.server.clock + ms))
  · have hnew : ((d.keeps site (.elapse ms)).filter (·.uri = uri)).filterMap (·.publication) =
        ((d.server.timers.takeWhile (·.due ≤ d.server.clock + ms)).filterMap fun t =>
          (d.server.target? t).map (t.publication site)).filter fun p =>
            p.uri = uri && p.version.isSome := by
      simp only [keeps, List.filter_filterMap, List.filterMap_filterMap]
      refine List.filterMap_congr fun t _ => ?_
      cases d.server.target? t <;> by_cases huri : t.uri = uri <;>
        simp [keptBy, Timer.publication, Option.filter_some, huri]
    rw [step, List.filter_append, List.filterMap_append, ← h.published, hnew, Server.step, heq]
    exact List.filter_append ..

theorem Recorded.handle (h : d.Recorded) (hd : Orderly d.server) (site : Site) (r : Request) :
    (d.step site (.request r)).Recorded := by
  refine ⟨fun uri result hresult => ?_, fun uri => ?_⟩
  · obtain ⟨hold, hnot⟩ | ⟨e, hdemand, rfl, rfl⟩ := cache_handle site d.server r hresult
    · have hnone : (d.keeps site (.request r)).filter (·.uri = uri) = [] := by
        refine List.filter_eq_nil_iff.2 fun k hk => ?_
        obtain ⟨e, he, rfl⟩ := Option.map_eq_some_iff.1 (Option.mem_toList.1 hk)
        simpa using hnot e he
      rw [step, List.filter_append, hnone, List.append_nil]
      exact h.cached uri result hold
    · simp [step, keeps, hdemand]
  · -- what is made on demand is kept, but it is not published
    have hnone :
        ((d.keeps site (.request r)).filter (·.uri = uri)).filterMap (·.publication) = [] := by
      refine List.filterMap_eq_nil_iff.2 fun k hk => ?_
      obtain ⟨e, -, rfl⟩ := Option.map_eq_some_iff.1 (Option.mem_toList.1 (List.mem_filter.1 hk).1)
      rfl
    rw [step, List.filter_append, List.filterMap_append, hnone, List.append_nil, ← h.published]
    by_cases hreload : d.server.reloads (.request r) = true
    · obtain ⟨reply, hstep⟩ := step_of_reloads site hreload
      obtain ⟨settings, analyzer, cache, timers, heq⟩ := reload_frame site d.server reply
      rw [hstep, Server.published, heq, Server.published]
    · obtain hrenewed | hclosed | hundisturbed :=
        handle_cases site hd.consistent (Bool.eq_false_iff.2 hreload) uri
      · exact hrenewed.published
      · exact hclosed.published
      · exact hundisturbed.published

theorem Recorded.step (h : d.Recorded) (hd : Orderly d.server) (site : Site) (e : Event) :
    (d.step site e).Recorded := by
  cases e with
  | elapse ms => exact h.elapse site ms
  | request r => exact h.handle hd site r

end

section
variable (site : Site) (reply : SettingsReply) (events : List Event)

/-- The states that the record of a session passes through. -/
def Reaches (e : Dated) : Prop := Passes (step site) { server := start site reply } events e

/-- The settings of a load are those with which an analyzer and a limit have come. -/
def InForce (load : Nat) (analyzer : Analyzer) (limit : Nat) : Prop :=
  ∃ e, Reaches site reply events e ∧ e.load = load ∧ e.server.analyzer = analyzer ∧
    e.server.settings.maxProblems = limit

/-- A result is made with the settings of its load, and so is what is published of it. -/
def MadeUnder (k : Kept) : Prop :=
  ∃ analyzer limit text, InForce site reply events k.load analyzer limit ∧
    k.result = analyzer.analyze site.host text ∧
    ∀ p ∈ k.publication, p.diagnostics = k.result.diagnostics.take limit

/-- The record of a session is true. -/
structure Genuine (d : Dated) : Prop where
  server : d.server = Server.session site reply events
  orderly : Orderly d.server
  recorded : d.Recorded
  timers : ∀ t ∈ d.server.timers, InForce site reply events (d.setUnder t) t.analyzer t.limit
  kept : ∀ k ∈ d.kept, MadeUnder site reply events k

end

section
variable {site : Site} {reply : SettingsReply} {events : List Event} {d : Dated} {e : Event}

theorem session_concat : session site reply (events ++ [e]) =
    (session site reply events).step site e :=
  List.foldl_concat ..

theorem InForce.concat {load limit : Nat} {analyzer : Analyzer}
    (h : InForce site reply events load analyzer limit) :
    InForce site reply (events ++ [e]) load analyzer limit := by
  obtain ⟨d, hd, hrest⟩ := h
  exact ⟨d, Passes.concat hd, hrest⟩

theorem InForce.last : InForce site reply events (session site reply events).load
    (session site reply events).server.analyzer
    (session site reply events).server.settings.maxProblems :=
  ⟨_, Passes.last, rfl, rfl, rfl⟩

theorem MadeUnder.concat {k : Kept} (h : MadeUnder site reply events k) :
    MadeUnder site reply (events ++ [e]) k := by
  obtain ⟨analyzer, limit, text, hforce, hrest⟩ := h
  exact ⟨analyzer, limit, text, hforce.concat, hrest⟩

/-- What is kept in the course of an event is made by a timer, with the settings of the load under
which it was set, or on demand with those in force. -/
theorem madeUnder_of_mem_keeps {k : Kept}
    (h : ∀ t ∈ d.server.timers, InForce site reply events (d.setUnder t) t.analyzer t.limit)
    (hd : InForce site reply events d.load d.server.analyzer d.server.settings.maxProblems)
    (hk : k ∈ d.keeps site e) : MadeUnder site reply events k := by
  cases e with
  | elapse ms =>
    obtain ⟨t, ht, hkept⟩ := List.mem_filterMap.1 hk
    obtain ⟨doc, -, rfl⟩ := Option.map_eq_some_iff.1 hkept
    refine ⟨t.analyzer, t.limit, doc.text, h t ((List.takeWhile_sublist _).mem ht), rfl, ?_⟩
    rintro p ⟨⟩
    rfl
  | request r =>
    obtain ⟨entry, -, rfl⟩ := Option.map_eq_some_iff.1 (Option.mem_toList.1 hk)
    exact ⟨_, _, entry.2.text, hd, rfl, nofun⟩

/-- The record of a session is true: it is one of what the server has at hand and has published, and
each result in it is made with the settings of the load that is noted beside it. -/
theorem genuine_session (site : Site) (reply : SettingsReply) (events : List Event) :
    Genuine site reply events (session site reply events) := by
  induction events using List.reverseRecOn with
  | nil =>
    obtain ⟨settings, heq⟩ := start_eq site reply
    have hnone : (session site reply []).server = { settings, analyzer := .ofSettings settings } :=
      heq
    refine ⟨rfl, .start site reply, ⟨?_, fun uri => ?_⟩, ?_, nofun⟩ <;> rw [hnone]
    · exact nofun
    · rfl
    · exact nofun
  | append_singleton events e ih =>
    have hlast : InForce site reply (events ++ [e]) _ _ _ := InForce.last
    rw [session_concat] at hlast ⊢
    refine ⟨?_, ih.orderly.step site e, ih.recorded.step ih.orderly site e, fun t ht => ?_,
      fun k hk => ?_⟩
    · rw [Server.session_concat, ← ih.server]
      rfl
    · rw [setUnder_step]
      split
      · next hold => exact (ih.timers t hold).concat
      · next hnew =>
        obtain hold | ⟨hanalyzer, hlimit⟩ := mem_timers_step site _ e ht
        · exact absurd hold hnew
        · rw [hanalyzer, hlimit]
          exact hlast
    · rcases List.mem_append.1 hk with hk | hk
      · exact (ih.kept k hk).concat
      · exact (madeUnder_of_mem_keeps ih.timers InForce.last hk).concat

end

end Dated

end Krl.Server
