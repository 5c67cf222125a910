import Krl.Proofs.Server.Agreement

/-!
# The same request to two servers

Two servers that agree on a document still do so when both have done what the same request asks for,
and if it speaks of no other document, they give the same answer. A request to the document has it
draw a number in both servers or in neither, since that depends on its text, its hash and its result
alone. A reload touches all documents, but drops the result of each and sets one timer for it, as
each document is there once (`Tidy`).

* `Agree.handle`: the same request to both keeps the agreement.
* `Agree.response`: to a request that speaks of no other document, both give the same answer.
-/

set_option autoImplicit false

namespace Krl

/-! ## Tables with each key once -/

namespace Table

variable {α : Type} {t : Table α}

/-- No key is there twice. -/
def Distinct (t : Table α) : Prop := (t.entries.map (·.1)).Nodup

theorem keys_insertEntry (uri : Uri) (value : α) (entries : List (Uri × α)) :
    (insertEntry uri value entries).map (·.1) =
      if uri ∈ entries.map (·.1) then entries.map (·.1) else entries.map (·.1) ++ [uri] := by
  induction entries with
  | nil => rfl
  | cons e entries ih =>
    rcases e with ⟨u, v⟩
    rw [insertEntry]
    split
    · next h => simp [h]
    · next h =>
      simp only [List.map_cons, ih, List.mem_cons, Ne.symm h, false_or]
      split <;> rfl

theorem Distinct.insert (h : t.Distinct) (uri : Uri) (value : α) :
    (t.insert uri value).Distinct := by
  show ((insertEntry uri value t.entries).map (·.1)).Nodup
  rw [keys_insertEntry]
  split
  · exact h
  · next hnew => exact List.nodup_append.2 ⟨h, by simp, by grind⟩

theorem Distinct.erase (h : t.Distinct) (uri : Uri) : (t.erase uri).Distinct :=
  h.sublist (List.filter_sublist.map _)

end Table

namespace Server

variable {site : Site} {s s' t t' : Server} {timer : Timer} {ts : List Timer} {uri : Uri}

/-! ## Edits -/

/-- Does the document keep its number when it is edited? -/
def Keeps (s : Server) (uri : Uri) (version : Int) (changes : List Text.Change) : Prop :=
  Text.hash (s.workspace.edited uri version changes).text =
    (s.workspace.edited uri version changes).hash ∧ (s.workspace.cache.get? uri).isSome

section
variable {version : Int} {changes : List Text.Change}

theorem cache_changed (site : Site) (s : Server) (uri : Uri) (version : Int)
    (changes : List Text.Change) : (s.serve site (.changed uri version changes)).1.workspace.cache =
      s.workspace.cache := by
  obtain ⟨doc, lastSeq, timers, heq⟩ := changed_frame site s uri version changes
  rw [heq]

theorem changed_of_keeps (site : Site) (hs : s.workspace.Consistent)
    (h : s.Keeps uri version changes) :
    Undisturbed s (s.serve site (.changed uri version changes)).1 uri ∧
      (s.serve site (.changed uri version changes)).1.workspace.documents.get? uri =
        some (s.workspace.edited uri version changes) := by
  obtain ⟨result, hresult⟩ := Option.isSome_iff_exists.1 h.2
  obtain ⟨doc, hdoc⟩ := Option.isSome_iff_exists.1 (hs.cached uri result hresult)
  have hedited : s.workspace.edited uri version changes = doc.edit version changes := by
    rw [Workspace.edited, hdoc]
    rfl
  obtain ⟨-, -, heq⟩ | ⟨hnot, -⟩ := Workspace.change_cases s.workspace uri version changes
  · rw [serve, heq, hedited]
    exact ⟨undisturbed_edit s hdoc version changes, Table.get?_insert_self ..⟩
  · exact absurd h hnot

theorem changed_of_not_keeps (site : Site) (h : ¬ s.Keeps uri version changes) :
    Renewed s (s.serve site (.changed uri version changes)).1 uri ∧
      (s.serve site (.changed uri version changes)).1.workspace.documents.get? uri =
        some ⟨(s.workspace.edited uri version changes).text, version, s.workspace.lastSeq + 1,
          Text.hash (s.workspace.edited uri version changes).text⟩ := by
  obtain ⟨hhash, hcached, -⟩ | ⟨-, heq⟩ :=
    Workspace.change_cases s.workspace uri version changes
  · exact absurd ⟨hhash, hcached⟩ h
  · have hnew := Table.get?_insert_self s.workspace.documents uri
      ⟨(s.workspace.edited uri version changes).text, version, s.workspace.lastSeq + 1,
        Text.hash (s.workspace.edited uri version changes).text⟩
    rw [serve, heq]
    exact ⟨⟨⟨_, hnew, rfl⟩, rfl, rfl⟩, hnew⟩

end

/-! ## Analyses on demand -/

/-- A document is analysed where there is no result, and what is answered is at hand afterwards. -/
theorem analysisFor_snd (site : Site) (s : Server) (uri : Uri) : (s.analysisFor site uri).2 =
    (s.workspace.cache.get? uri).or ((s.workspace.documents.get? uri).map fun doc =>
      s.analyzer.analyze site.host doc.text) := by
  unfold analysisFor Workspace.snapshot?
  cases s.workspace.cache.get? uri with
  | some result => rfl
  | none => cases s.workspace.documents.get? uri <;> rfl

theorem cache_analysisFor_self (site : Site) (s : Server) (uri : Uri) :
    (s.analysisFor site uri).1.workspace.cache.get? uri = (s.analysisFor site uri).2 := by
  unfold analysisFor Workspace.snapshot?
  cases hcache : s.workspace.cache.get? uri with
  | some result => exact hcache
  | none =>
    cases hdoc : s.workspace.documents.get? uri with
    | none => exact hcache
    | some doc => simp [Workspace.offer, Workspace.isCurrent, Document.snapshot, hdoc]

/-! ## Reloads -/

/-- What holds of a server wherever the events lead: besides, each document is there once. -/
structure Tidy (s : Server) : Prop extends Orderly s where
  distinct : s.workspace.documents.Distinct

/-- Of the timers that a reload sets, one is for the document. -/
theorem timers_refreshEntries (h : Ordered s.timers) {entries : List (Uri × Document)}
    (hentries : (entries.map (·.1)).Nodup) (uri : Uri) :
    (s.refreshEntries entries).timers.filter (·.uri = uri) =
      (entries.lookup uri).elim (s.timers.filter (·.uri = uri)) fun doc =>
        insertTimer (s.newTimer uri doc.seq) (s.timers.filter (·.uri = uri)) := by
  induction entries generalizing s with
  | nil => rfl
  | cons e entries ih =>
    obtain ⟨hnew, hrest⟩ := List.nodup_cons.1 hentries
    have hentry := ih (s := s.refresh e.1 e.2.seq) (ordered_insertTimer h _) hrest
    have hset : (s.refresh e.1 e.2.seq).timers = insertTimer (s.newTimer e.1 e.2.seq) s.timers :=
      rfl
    rw [refreshEntries, List.foldl_cons, ← refreshEntries, hentry, hset, Table.lookup_cons_eq]
    by_cases huri : uri = e.1
    · have hnone : entries.lookup uri = none := by
        refine List.lookup_eq_none_iff.2 fun f hf => ?_
        have hne : uri ≠ f.1 := fun hf' => hnew (List.mem_map.2 ⟨f, hf, hf'.symm.trans huri⟩)
        exact bne_iff_ne.2 hne
      rw [if_pos huri, hnone, huri]
      exact filter_insertTimer h (by simp [newTimer])
    · have hother : (s.newTimer e.1 e.2.seq).uri ≠ uri := Ne.symm huri
      rw [if_neg huri, filter_insertTimer_of_neg (by simpa using hother)]
      rfl

theorem results_refreshEntries (s : Server) (entries : List (Uri × Document)) (uri : Uri) :
    (s.refreshEntries entries).workspace.cache.get? uri =
      if (entries.lookup uri).isSome then none else s.workspace.cache.get? uri := by
  induction entries generalizing s with
  | nil => rfl
  | cons e entries ih =>
    have hforget : (s.refresh e.1 e.2.seq).workspace.cache.get? uri =
        if uri = e.1 then none else s.workspace.cache.get? uri := Table.get?_erase ..
    rw [refreshEntries, List.foldl_cons, ← refreshEntries, ih, hforget, Table.lookup_cons_eq]
    by_cases huri : uri = e.1
    · simp [huri]
    · simp only [if_neg huri]

namespace Tidy

/-- Behind a reload there are no results. -/
theorem results_refreshAll (h : Tidy s) (uri : Uri) :
    s.refreshAll.workspace.cache.get? uri = none := by
  refine (s.results_refreshEntries _ uri).trans ?_
  split
  · rfl
  · next hnone =>
    refine Option.eq_none_iff_forall_ne_some.2 fun result hresult => ?_
    exact hnone (h.consistent.cached uri result hresult)

/-- Behind a reload one timer more awaits a document that is open. -/
theorem awaiting_refreshAll (h : Tidy s) (uri : Uri) : s.refreshAll.awaiting uri =
    (s.workspace.documents.get? uri).elim [] fun doc =>
      insertTimer (s.newTimer uri doc.seq) (s.awaiting uri) := by
  obtain ⟨cache, timers, heq⟩ := s.refreshAll_frame
  have hdoc : s.refreshAll.workspace.documents = s.workspace.documents := by rw [heq]
  have htimers : s.refreshAll.timers.filter (·.uri = uri) =
      (s.workspace.documents.get? uri).elim (s.timers.filter (·.uri = uri)) fun doc =>
        insertTimer (s.newTimer uri doc.seq) (s.timers.filter (·.uri = uri)) :=
    timers_refreshEntries h.ordered h.distinct uri
  rw [awaiting_eq, hdoc, htimers, awaiting_eq]
  cases s.workspace.documents.get? uri with
  | none => simp
  | some doc =>
    have hordered : Ordered (s.timers.filter (·.uri = uri)) := h.ordered.filter _
    exact filter_insertTimer hordered (by simp [newTimer])

end Tidy

/-! ## Requests to both -/

namespace Agree

/-- Where the document draws a number in both, the timers that are set for it are the same. -/
theorem renewed (h : Agree uri s s') (hs : Orderly s) (hs' : Orderly s') (ht : Alike s t)
    (ht' : Alike s' t') (hrenewed : Renewed s t uri) (hrenewed' : Renewed s' t' uri)
    (hdocument : (t.workspace.documents.get? uri).map Document.unnumbered =
      (t'.workspace.documents.get? uri).map Document.unnumbered)
    (hresult : t.workspace.cache.get? uri = t'.workspace.cache.get? uri) : Agree uri t t' := by
  refine ⟨h.toAlike.both ht ht', hdocument, hresult, ?_, ?_⟩
  · rw [hrenewed.awaiting hs.seq_le, hrenewed'.awaiting hs'.seq_le, List.map_singleton,
      List.map_singleton, h.newTimer]
  · rw [Server.told, hrenewed.log, Server.told, hrenewed'.log]
    exact h.told

theorem undisturbed (h : Agree uri s s') (ht : Alike s t) (ht' : Alike s' t')
    (hundisturbed : Undisturbed s t uri) (hundisturbed' : Undisturbed s' t' uri)
    (hdocument : (t.workspace.documents.get? uri).map Document.unnumbered =
      (t'.workspace.documents.get? uri).map Document.unnumbered)
    (hresult : t.workspace.cache.get? uri = t'.workspace.cache.get? uri) : Agree uri t t' := by
  refine ⟨h.toAlike.both ht ht', hdocument, hresult, ?_, ?_⟩
  · rw [hundisturbed.awaiting, hundisturbed'.awaiting, h.awaiting]
  · exact hundisturbed.log.trans (h.told.trans hundisturbed'.log.symm)

theorem opened (h : Agree uri s s') (hs : Orderly s) (hs' : Orderly s')
    (hrunning : s.stopped = false) (site : Site) (version : Int) (text : String) :
    Agree uri (s.serve site (.opened uri version text)).1
      (s'.serve site (.opened uri version text)).1 := by
  refine h.renewed hs hs' (alike_serve site hrunning rfl)
    (alike_serve site (h.stopped.symm.trans hrunning) rfl) (renewed_opened site s uri version text)
    (renewed_opened site s' uri version text) ?_ ?_
  · simp [serve, setTimer, Document.unnumbered]
  · simp [serve, setTimer]

theorem edited (h : Agree uri s s') (version : Int) (changes : List Text.Change) :
    (s.workspace.edited uri version changes).unnumbered =
      (s'.workspace.edited uri version changes).unnumbered := by
  have hmap := h.map_document (fun doc => (doc.edit version changes).unnumbered) fun _ => rfl
  have hget : ∀ s : Server, (s.workspace.edited uri version changes).unnumbered =
      ((s.workspace.documents.get? uri).map fun doc => (doc.edit version changes).unnumbered).getD
        (Document.edit {} version changes).unnumbered := by
    intro s
    rw [Workspace.edited]
    cases s.workspace.documents.get? uri <;> rfl
  rw [hget, hmap, ← hget]

theorem changed (h : Agree uri s s') (hs : Orderly s) (hs' : Orderly s')
    (hrunning : s.stopped = false) (site : Site) (version : Int) (changes : List Text.Change) :
    Agree uri (s.serve site (.changed uri version changes)).1
      (s'.serve site (.changed uri version changes)).1 := by
  have hedited := h.edited version changes
  have htext : (s.workspace.edited uri version changes).text =
      (s'.workspace.edited uri version changes).text := (congrArg Document.text hedited :)
  have hhash : (s.workspace.edited uri version changes).hash =
      (s'.workspace.edited uri version changes).hash := (congrArg Document.hash hedited :)
  -- no number is looked at when it is decided whether one is drawn
  have hkeeps : s.Keeps uri version changes ↔ s'.Keeps uri version changes := by
    rw [Keeps, htext, hhash, h.result, ← Keeps]
  have halike := alike_serve site hrunning (r := .changed uri version changes) rfl
  have halike' := alike_serve site (h.stopped.symm.trans hrunning)
    (r := .changed uri version changes) rfl
  by_cases hkept : s.Keeps uri version changes
  · obtain ⟨hundisturbed, hdoc⟩ := changed_of_keeps site hs.consistent hkept
    obtain ⟨hundisturbed', hdoc'⟩ := changed_of_keeps site hs'.consistent (hkeeps.1 hkept)
    refine h.undisturbed halike halike' hundisturbed hundisturbed' ?_ ?_
    · rw [hdoc, hdoc', Option.map_some, Option.map_some, hedited]
    · rw [cache_changed, cache_changed, h.result]
  · obtain ⟨hrenewed, hdoc⟩ := changed_of_not_keeps site hkept
    obtain ⟨hrenewed', hdoc'⟩ := changed_of_not_keeps site (mt hkeeps.2 hkept)
    refine h.renewed hs hs' halike halike' hrenewed hrenewed' ?_ ?_
    · rw [hdoc, hdoc', htext]
      rfl
    · rw [cache_changed, cache_changed, h.result]

theorem closed (h : Agree uri s s') (hrunning : s.stopped = false) (site : Site) :
    Agree uri (s.serve site (.closed uri)).1 (s'.serve site (.closed uri)).1 := by
  have hclosed := closed_closed site s uri
  have hclosed' := closed_closed site s' uri
  refine ⟨h.toAlike.both (alike_serve site hrunning rfl)
    (alike_serve site (h.stopped.symm.trans hrunning) rfl), ?_, ?_, ?_, ?_⟩
  · rw [hclosed.document, hclosed'.document]
  · exact (Table.get?_erase_self ..).trans (Table.get?_erase_self ..).symm
  · rw [hclosed.awaiting, hclosed'.awaiting]
  · rw [Server.told, hclosed.log, List.filter_append, ← Server.told, h.told, Server.told,
      Server.told, hclosed'.log, List.filter_append, h.clock]

/-- A document is analysed in both or in neither, and gives the same result. -/
theorem demanded (h : Agree uri s s') (site : Site) :
    (s.analysisFor site uri).2 = (s'.analysisFor site uri).2 := by
  have hmap := h.map_document (fun doc => s.analyzer.analyze site.host doc.text) fun _ => rfl
  rw [analysisFor_snd, analysisFor_snd, h.result, hmap, h.analyzer]

theorem analysisFor (h : Agree uri s s') (hrunning : s.stopped = false) (site : Site) :
    Agree uri (s.analysisFor site uri).1 (s'.analysisFor site uri).1 := by
  have hquestion : ¬ Request.concerns uri (.symbols uri) := id
  obtain ⟨hundisturbed, hdoc⟩ := undisturbed_of_not_concerns site s hquestion
  obtain ⟨hundisturbed', hdoc'⟩ := undisturbed_of_not_concerns site s' hquestion
  refine h.undisturbed (alike_serve site hrunning (r := .symbols uri) rfl)
    (alike_serve site (h.stopped.symm.trans hrunning) (r := .symbols uri) rfl)
    hundisturbed hundisturbed' ?_ ?_
  · exact (congrArg _ hdoc).trans (h.document.trans (congrArg _ hdoc').symm)
  · rw [cache_analysisFor_self, cache_analysisFor_self, h.demanded]

theorem wantsOperators (h : Agree uri s s') (cursor : Text.Cursor) (trigger : Option String) :
    s.wantsOperators uri cursor trigger = s'.wantsOperators uri cursor trigger := by
  have hmap := h.map_document (fun doc => Text.lineHead doc.text.toList cursor) fun _ => rfl
  rw [Server.wantsOperators, hmap, Server.wantsOperators]

theorem loadSettings (h : Agree uri s s') (site : Site) (reply : SettingsReply) :
    Agree uri (s.loadSettings site reply) (s'.loadSettings site reply) := by
  unfold Server.loadSettings
  split
  · exact h
  · exact ⟨⟨rfl, rfl, h.clock, h.stopped⟩, h.document, h.result, h.awaiting, h.told⟩

theorem refreshAll (h : Agree uri s s') (hs : Tidy s) (hs' : Tidy s') :
    Agree uri s.refreshAll s'.refreshAll := by
  obtain ⟨cache, timers, heq⟩ := s.refreshAll_frame
  obtain ⟨cache', timers', heq'⟩ := s'.refreshAll_frame
  refine ⟨?_, ?_, ?_, ?_, ?_⟩
  · rw [heq, heq']
    exact ⟨h.settings, h.analyzer, h.clock, h.stopped⟩
  · rw [heq, heq']
    exact h.document
  · rw [hs.results_refreshAll, hs'.results_refreshAll]
  · have hset : ∀ {s : Server}, Tidy s → (s.refreshAll.awaiting uri).map Timer.unnumbered =
        ((s.workspace.documents.get? uri).map Document.unnumbered).elim [] fun _ =>
          insertTimer (s.newTimer uri 0) ((s.awaiting uri).map Timer.unnumbered) := by
      intro s hs
      rw [hs.awaiting_refreshAll]
      cases s.workspace.documents.get? uri with
      | none => rfl
      | some doc => exact map_unnumbered_insertTimer ..
    have htimer : s.newTimer uri 0 = s'.newTimer uri 0 := h.newTimer 0 0
    rw [hset hs, hset hs', h.document, h.awaiting, htimer]
  · rw [heq, heq']
    exact h.told

end Agree

/-! ## All requests -/

namespace Tidy

theorem withSettings (h : Tidy s) (site : Site) (reply : SettingsReply) :
    Tidy (s.loadSettings site reply) := by
  obtain heq | ⟨settings, heq⟩ := loadSettings_cases site s reply
  · rw [heq]
    exact h
  · rw [heq]
    exact ⟨⟨h.consistent, h.drawn, h.ordered, h.seq_le⟩, h.distinct⟩

theorem handle (h : Tidy s) (site : Site) (r : Request) : Tidy (s.handle site r).1 := by
  refine ⟨h.toOrderly.step site (.request r), ?_⟩
  by_cases hstopped : s.stopped = true
  · rw [handle_of_stopped site hstopped]
    exact h.distinct
  have hdemand : ∀ u, (s.analysisFor site u).1.workspace.documents.Distinct := by
    intro u
    obtain ⟨cache, heq⟩ := analysisFor_frame site s u
    rw [heq]
    exact h.distinct
  rw [handle_of_not_stopped site (Bool.eq_false_iff.2 hstopped)]
  cases r with
  | opened u version text => exact h.distinct.insert u _
  | changed u version changes =>
    obtain ⟨doc, lastSeq, timers, heq⟩ := changed_frame site s u version changes
    rw [heq]
    exact h.distinct.insert u doc
  | closed u => exact h.distinct.erase u
  | settingsChanged reply =>
    obtain ⟨settings, analyzer, cache, timers, heq⟩ := reload_frame site s reply
    rw [serve, heq]
    exact h.distinct
  | completion u cursor trigger =>
    simp only [serve]
    split
    · exact h.distinct
    · exact hdemand u
  | symbols u => exact hdemand u
  | malformed => exact h.distinct
  | shutdown => exact h.distinct

theorem elapse (h : Tidy s) (site : Site) (ms : Nat) : Tidy (s.elapse site ms) := by
  obtain ⟨cache, heq⟩ := elapse_frame site s ms
  refine ⟨h.toOrderly.elapse site ms, ?_⟩
  rw [heq]
  exact h.distinct

theorem start (site : Site) (reply : SettingsReply) : Tidy (start site reply) := by
  obtain ⟨settings, heq⟩ := start_eq site reply
  refine ⟨.start site reply, ?_⟩
  rw [heq]
  exact List.nodup_nil

end Tidy

namespace Agree

theorem settingsChanged (h : Agree uri s s') (hs : Tidy s) (hs' : Tidy s') (site : Site)
    (reply : SettingsReply) : Agree uri (s.serve site (.settingsChanged reply)).1
      (s'.serve site (.settingsChanged reply)).1 :=
  (h.loadSettings site reply).refreshAll (hs.withSettings site reply) (hs'.withSettings site reply)

/-- The same request to both keeps the agreement. -/
theorem handle (h : Agree uri s s') (hs : Tidy s) (hs' : Tidy s') (site : Site) (r : Request) :
    Agree uri (s.handle site r).1 (s'.handle site r).1 := by
  -- a request to another document leaves each of the two in agreement with itself
  by_cases haway : ∃ u, r.addressee? = some u ∧ u ≠ uri
  · obtain ⟨u, hr, hu⟩ := haway
    exact (agree_of_away site s hr hu).symm.trans (h.trans (agree_of_away site s' hr hu))
  have hself : ∀ u, r.addressee? = some u → u = uri := by
    intro u hr
    exact Classical.not_not.1 fun hu => haway ⟨u, hr, hu⟩
  by_cases hstopped : s.stopped = true
  · rw [handle_of_stopped site hstopped, handle_of_stopped site (h.stopped.symm.trans hstopped)]
    exact h
  have hrunning : s.stopped = false := Bool.eq_false_iff.2 hstopped
  rw [handle_of_not_stopped site hrunning,
    handle_of_not_stopped site (h.stopped.symm.trans hrunning)]
  cases r with
  | opened u version text =>
    obtain rfl := hself u rfl
    exact h.opened hs.toOrderly hs'.toOrderly hrunning site version text
  | changed u version changes =>
    obtain rfl := hself u rfl
    exact h.changed hs.toOrderly hs'.toOrderly hrunning site version changes
  | closed u =>
    obtain rfl := hself u rfl
    exact h.closed hrunning site
  | settingsChanged reply => exact h.settingsChanged hs hs' site reply
  | completion u cursor trigger =>
    obtain rfl := hself u rfl
    simp only [serve, h.wantsOperators]
    split
    · exact h
    · exact h.analysisFor hrunning site
  | symbols u =>
    obtain rfl := hself u rfl
    exact h.analysisFor hrunning site
  | malformed => exact h
  | shutdown =>
    exact ⟨⟨h.settings, h.analyzer, h.clock, rfl⟩, h.document, h.result, h.awaiting, h.told⟩

/-- To a request that speaks of no other document, both give the same answer. -/
theorem response (h : Agree uri s s') (site : Site) {r : Request}
    (hr : ∀ u, r.addressee? = some u → u = uri) :
    (s.handle site r).2 = (s'.handle site r).2 := by
  unfold Server.handle
  rw [h.stopped]
  split
  · rfl
  cases r with
  | completion u cursor trigger =>
    obtain rfl := hr u rfl
    simp only [serve, h.wantsOperators, h.demanded]
    split <;> rfl
  | symbols u =>
    obtain rfl := hr u rfl
    simp only [serve, h.demanded]
  | _ => rfl

end Agree

end Server

end Krl
